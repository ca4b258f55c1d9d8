import SearchWire.Query.Basic

/-!
# Queries as records

The models of queries, and the query that a record holds.

* `Query.models`: the models.
* `Query.ofValue?`: the query of a record.
* `Query.clauseOf`: the clause of a value that may be a query.
-/

namespace SearchWire.Query

/-- The options that all queries have. -/
def properties : List Property := [
  .optional "pageable" (.model "Pageable"),
  .withDefault "sort" (.sequence .list SortOrder.shape 0) (.list []),
  .withDefault "rescorer_queries" (.sequence .list (.model "RescorerQuery") 0) (.list []),
  .optional "stored_fields" .texts,
  .optional "source_filter" (.model "SourceFilter"),
  .optional "route" .text,
  .optional "request_cache" .flag,
  .withDefault "timeout" .timeout .null,
  .optional "ids" .texts,
  .optional "min_score" .decimal,
  .optional "track_total_hits" (.anyOf [.flag, .whole]),
  .optional "track_scores" .flag,
  .optional "explain" .flag,
  .optional "preference" .text,
  .optional "search_after" (.sequence .list .any 0),
  .optional "highlight" (.model "HighlightQuery"),
  .optional "indices_options" (.model "IndicesOptions")]

/-- A model of queries with some options more. -/
def modelOf (name : String) (more : List Property) : Model :=
  { Model.plain name (properties ++ more) with ancestors := ["Query"] }

def rescorerModel : Model :=
  .plain "RescorerQuery" [
    .required "query" (.model "Query"),
    .optional "window_size" (.integer (some 1) none),
    .optional "query_weight" .decimal,
    .optional "rescore_query_weight" .decimal,
    .withDefault "score_mode" (Worded.shape RescoreMode) (Worded.value RescoreMode.default)]

def models : List Model := [
  .plain "Query" properties,
  modelOf "CriteriaQuery" [.withDefault "criteria" (.rooted (.optional Criteria.nodeShape)) .null],
  modelOf "NativeQuery" [
    .optional "query" (.firstOf [.object, .model "FunctionScoreQuery"]),
    .optional "filter" .object, .optional "aggregations" .object],
  modelOf "StringQuery" [.required "source" .text],
  rescorerModel]

/-- The source of a query of the given class. -/
def sourceOf? (c : RecordClass) (get : String → Value) : Option QuerySource :=
  if c.isA "CriteriaQuery" then some (.criteria (Criteria.given (get "criteria")))
  else if c.isA "NativeQuery" then
    some (.native (ClauseSource.ofValue (get "query")) (get "filter") (get "aggregations"))
  else if c.isA "StringQuery" then do some (.text (← (get "source").text?))
  else if c.isA "Query" then some .everything
  else none

/-- The query of a record whose rescorers were read before. -/
def assemble? (c : RecordClass) (get : String → Value) (rescorers : List (Rescorer Query)) :
    Option Query := do
  some {
    source := ← sourceOf? c get
    paging := ← (get "pageable").unlessNull Paging.ofValue?
    sort := ← (← (get "sort").itemsOrNone?).mapM SortOrder.ofValue?
    rescorers := rescorers
    storedFields := ← (get "stored_fields").unlessNull Value.texts?
    sourceFilter := ← (get "source_filter").unlessNull SourceFilter.ofValue?
    highlight := ← (get "highlight").unlessNull Highlight.ofValue?
    indicesOptions := ← (get "indices_options").unlessNull IndicesOptions.ofValue?
    ids := ← (get "ids").unlessNull Value.texts?
    searchAfter := ← (get "search_after").unlessNull Value.collection?
    timeout := get "timeout"
    route := get "route"
    requestCache := get "request_cache"
    trackScores := get "track_scores"
    trackTotalHits := get "track_total_hits"
    minScore := get "min_score"
    explain := get "explain"
    preference := get "preference" }

/-- The rescorer of a record whose query was read before. -/
def rescorerWith? (get : String → Value) (query : Query) : Option (Rescorer Query) := do
  some ⟨query, get "window_size", get "query_weight", get "rescore_query_weight",
    ← Worded.ofValue? (get "score_mode")⟩

mutual

/-- The query that a record holds. -/
def ofValue? : Value → Option Query
  | .record c slots => do
    let rescorers ← rescorersIn slots
    assemble? c (Value.slotValue slots) rescorers
  | _ => none

/-- The rescorers among the properties of a query. -/
def rescorersIn : List (Slot Value) → Option (List (Rescorer Query))
  | [] => some []
  | ⟨name, _, v⟩ :: slots =>
    if name = "rescorer_queries" then rescorersOf v else rescorersIn slots

def rescorersOf : Value → Option (List (Rescorer Query))
  | .list xs => rescorersEach xs
  | .tuple xs => rescorersEach xs
  | .null => some []
  | _ => none

def rescorersEach : List Value → Option (List (Rescorer Query))
  | [] => some []
  | x :: xs => do some ((← rescorerOf x) :: (← rescorersEach xs))

def rescorerOf : Value → Option (Rescorer Query)
  | .record _ slots => do
    let query ← queryIn slots
    rescorerWith? (Value.slotValue slots) query
  | _ => none

/-- The query among the properties of a rescorer. -/
def queryIn : List (Slot Value) → Option Query
  | [] => none
  | ⟨name, _, v⟩ :: slots => if name = "query" then ofValue? v else queryIn slots

end

/-- The clause of a value that may be a query; what is none means every document. -/
def clauseOf (rename : String → String) (v : Value) : Except Failure Clause :=
  if v.isInstance "Query" then do (← legible (ofValue? v)).clause rename else .ok .matchAll

end SearchWire.Query
