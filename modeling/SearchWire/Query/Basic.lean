import SearchWire.Clause.Score
import SearchWire.Indices.Options
import SearchWire.Json.Document
import SearchWire.Query.Hits
import SearchWire.Query.Paging
import SearchWire.Query.Sort

/-!
# Queries

A query says which documents are meant and how the hits come back: paging, sort orders, a second
scoring of the best hits, what a hit returns. Options that are not set are `null` and leave no
trace in a request; options that are only passed on are kept as they were given.

* `RescoreMode`, `Rescorer`: a second scoring.
* `QuerySource`, `Query`: queries.
* `Query.rename`: the same query with other names for the fields.
* `Query.clause`, `Query.mainClause`: the clause of a query, without and with its ids.
-/

namespace SearchWire

/-- How the two scores of a hit are put together. -/
inductive RescoreMode where
  | default
  | average
  | max
  | min
  | total
  | multiply
  deriving DecidableEq, Repr

def RescoreMode.text : RescoreMode → String
  | .default => "default"
  | .average => "avg"
  | .max => "max"
  | .min => "min"
  | .total => "total"
  | .multiply => "multiply"

instance : Worded RescoreMode where
  enumeration := "RescoreScoreMode"
  members := [.default, .average, .max, .min, .total, .multiply]
  text := RescoreMode.text
  label m := Worded.capitals m.text

/-- A second scoring of the best hits by another query. -/
structure Rescorer (κ : Type) where
  query : κ
  windowSize : Value
  queryWeight : Value
  rescoreQueryWeight : Value
  mode : RescoreMode

/-- Where the main clause of a query comes from. -/
inductive QuerySource where
  | everything
  | criteria (tree : Option Criteria)
  /-- A clause, with a filter on the hits and aggregations of its own. -/
  | native (clause : ClauseSource) (filter aggregations : Value)
  /-- A clause as a JSON text. -/
  | text (json : String)

structure Query where
  source : QuerySource
  paging : Option Paging
  sort : List SortOrder
  rescorers : List (Rescorer Query)
  storedFields : Option (List String)
  sourceFilter : Option SourceFilter
  highlight : Option Highlight
  indicesOptions : Option IndicesOptions
  ids : Option (List String)
  searchAfter : Option (List Value)
  timeout : Value
  route : Value
  requestCache : Value
  trackScores : Value
  trackTotalHits : Value
  minScore : Value
  explain : Value
  preference : Value

namespace QuerySource

/-- The clause of a source. -/
def compile (rename : String → String) : QuerySource → Except Failure Clause
  | .everything => .ok .matchAll
  | .criteria tree => Criteria.compile rename tree
  | .native clause _ _ => clause.compile rename
  | .text json => do
    let fields ← Document.ofText "query" json
    .ok (.readyMade (fields.map fun f => (.str f.1, f.2)))

def rename (f : String → String) : QuerySource → QuerySource
  | .everything => .everything
  | .criteria tree => .criteria (tree.map (Criteria.rename f))
  | .native clause filter aggregations => .native (clause.rename f) filter aggregations
  | .text json => .text json

end QuerySource

namespace Query

mutual

/-- The same query with other names for the fields, also in the queries of its rescorers. -/
def rename (f : String → String) : Query → Query
  | ⟨source, paging, sort, rescorers, storedFields, sourceFilter, highlight, indicesOptions, ids,
      searchAfter, timeout, route, requestCache, trackScores, trackTotalHits, minScore, explain,
      preference⟩ =>
    ⟨source.rename f, paging, sort.map (SortOrder.rename f), renameRescorers f rescorers,
      storedFields.map (List.map f), sourceFilter.map (SourceFilter.rename f),
      highlight.map (Highlight.rename f), indicesOptions, ids, searchAfter, timeout, route,
      requestCache, trackScores, trackTotalHits, minScore, explain, preference⟩

def renameRescorers (f : String → String) : List (Rescorer Query) → List (Rescorer Query)
  | [] => []
  | r :: rs => renameRescorer f r :: renameRescorers f rs

def renameRescorer (f : String → String) : Rescorer Query → Rescorer Query
  | ⟨query, windowSize, queryWeight, rescoreQueryWeight, mode⟩ =>
    ⟨rename f query, windowSize, queryWeight, rescoreQueryWeight, mode⟩

end

/-- The clause of a query; its ids do not count. -/
def clause (rename : String → String) (q : Query) : Except Failure Clause := q.source.compile rename

/-- A clause that holds for documents with one of some ids only. -/
def restrict (ids : List String) (c : Clause) : Clause :=
  .boolean [c, .atom "ids" [("values", .ofTexts ids)]] [] [] .null

/-- The clause of a query, restricted to its ids unless it has none. -/
def mainClause (rename : String → String) (q : Query) : Except Failure Clause := do
  let c ← q.clause rename
  match q.ids with
  | some (id :: ids) => .ok (restrict (id :: ids) c)
  | _ => .ok c

end Query

end SearchWire
