import SearchWire.Indices.Coordinates
import SearchWire.Query.Basic
import SearchWire.Request.Basic
import SearchWire.Request.Timeout
import SearchWire.Search.Sort

/-!
# Search requests

The search request of a query, and the request that deletes what the query means.

* `Rescorer.entry`: the entry for a second scoring.
* `Query.searchFields`, `Query.searchRequest`: the search request.
* `Query.deleteRequest`: the request that deletes by query.
-/

namespace SearchWire

/-- The entry for a second scoring. The usual way to put scores together is not named. -/
def Rescorer.entry (rename : String → String) (r : Rescorer Query) : Except Failure Value := do
  let clause ← r.query.clause rename
  let mode : Fields := if r.mode = .default then [] else [("score_mode", .str r.mode.text)]
  let query := [("rescore_query", clause.toValue)] ++
    Fields.given [("query_weight", r.queryWeight), ("rescore_query_weight", r.rescoreQueryWeight)]
      ++ mode
  .ok (.object (Fields.given [("window_size", r.windowSize)] ++ [("query", .object query)]))

namespace Query

/-- The fields for the window of hits. -/
def windowFields (settings : Settings) (q : Query) : Fields :=
  let (start, count) := (q.paging.getD (.standard settings)).window settings
  [("from_", .int start), ("size", .int count)]

/-- A mark for hits that return the numbers of their writes: the domain type has a property for
them. -/
def concurrencyFields (domain : Option Domain) : Fields :=
  match domain.bind fun d => d.catalogue.holder? d.type with
  | some _ => [("seq_no_primary_term", .bool true)]
  | none => []

/-- A field that holds a list, unless the list is empty. -/
def listFields (name : String) (vs : List Value) : Fields :=
  if vs.isEmpty then [] else [(name, .list vs)]

/-- A field that is there if a value is. -/
def optionalField (name : String) (v : Option Value) : Fields :=
  match v with
  | some v => [(name, v)]
  | none => []

/-- What hits return, with the names of fields in documents. -/
def hitFields (rename : String → String) (q : Query) : Fields :=
  optionalField "stored_fields" (q.storedFields.map fun fs => .ofTexts (fs.map rename)) ++
    optionalField "source_filter" (q.sourceFilter.map fun s => (s.rename rename).toValue)

/-- The options that are passed on as they are. -/
def optionFields (q : Query) : Fields :=
  Fields.given [("request_cache", q.requestCache), ("track_scores", q.trackScores),
    ("track_total_hits", q.trackTotalHits), ("min_score", q.minScore), ("explain", q.explain),
    ("preference", q.preference), ("routing", q.route)]

/-- The index options, if they are set. -/
def indicesFields (q : Query) : Fields := (q.indicesOptions.map IndicesOptions.params).getD []

/-- The values after which the hits start, as a clause has them. -/
def searchAfterFields (q : Query) : Except Failure Fields :=
  match q.searchAfter with
  | none => .ok []
  | some vs => do .ok [("search_after", .list (← vs.mapM formOf))]

/-- Aggregations unless there are none, and the filter on the hits. -/
def nativeFields (q : Query) : Fields :=
  match q.source with
  | .native _ filter aggregations =>
    (if aggregations.isGiven then [("aggs", aggregations)] else []) ++
      Fields.given [("post_filter", filter)]
  | _ => []

/-- The fields of the search request. -/
def searchFields (settings : Settings) (domain : Option Domain) (q : Query)
    (index : IndexCoordinates) : Except Failure Fields := do
  let rename := fieldName domain
  let clause ← q.mainClause rename
  let sort ← SortOrder.entries domain q.sort
  let rescore ← q.rescorers.mapM (Rescorer.entry rename)
  let timeout ← timeField "timeout" q.timeout
  let searchAfter ← q.searchAfterFields
  .ok ([("index", .ofTexts index.names), ("query", clause.toValue), ("version", .bool true)] ++
    q.windowFields settings ++ concurrencyFields domain ++ listFields "sort" sort ++
    listFields "rescore" rescore ++ q.hitFields rename ++ timeout ++
    optionalField "highlight" (q.highlight.map fun h => (h.rename rename).toValue) ++
    searchAfter ++ q.optionFields ++ q.indicesFields ++ q.nativeFields)

/-- The search request of a query. -/
def searchRequest (settings : Settings) (domain : Option Domain) (q : Query)
    (index : IndexCoordinates) : Except Failure Request := do
  Request.make .search (← q.searchFields settings domain index)

/-- The request that deletes what a query means, up to a number of documents. -/
def deleteRequest (domain : Option Domain) (q : Query) (index : IndexCoordinates)
    (maxDocs : Value) : Except Failure Request := do
  let clause ← q.mainClause (fieldName domain)
  let timeout ← timeField "timeout" q.timeout
  Request.make .deleteByQuery
    ([("index", .ofTexts index.names), ("query", clause.toValue), ("max_docs", maxDocs),
      ("routing", q.route)] ++ timeout ++ q.indicesFields)

end Query

end SearchWire
