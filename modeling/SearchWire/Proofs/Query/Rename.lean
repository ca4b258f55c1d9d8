import SearchWire.Proofs.Criteria.Rename
import SearchWire.Search.Request

/-!
# Names of fields in compiled queries

What holds for criteria holds for everything that a query may be compiled from: function scores
with their filters and decays, however deep, the queries of rescorers, sort orders. Ready-made
clauses and JSON texts have no names to change.

* `ClauseSource.follows_compile`: the sources of clauses, by induction over function scores.
* `Query.follows_mainClause`, `Rescorer.follows_entry`, `SortOrder.follows_entry`: **the parts of a
  search request that may fail.**
-/

namespace SearchWire

namespace ClauseSource

mutual

theorem follows_compile (f : String → String) :
    ∀ source : ClauseSource, Follows (source.compile f) ((source.rename f).compile id)
  | .everything => .refl _
  | .readyMade _ => .refl _
  | .criteria tree => Criteria.follows_compile f (some tree)
  | .scored inner functions options => by
    rw [rename, compile, compile]
    exact (follows_compile f inner).bind fun clause =>
      (follows_functionEntries f functions).bind fun entries => .refl _

theorem follows_functionEntries (f : String → String) :
    ∀ functions : List (ScoreFunction ClauseSource),
      Follows (functionEntries f functions) (functionEntries id (renameFunctions f functions))
  | [] => .refl _
  | g :: gs => by
    rw [renameFunctions, functionEntries, functionEntries]
    exact (follows_functionEntry f g).bind fun entry =>
      (follows_functionEntries f gs).bind fun entries => .refl _

theorem follows_functionEntry (f : String → String) :
    ∀ function : ScoreFunction ClauseSource,
      Follows (functionEntry f function) (functionEntry id (renameFunction f function))
  | ⟨filter, weight, decay⟩ => by
    rw [renameFunction, functionEntry, functionEntry]
    refine (follows_filterFields f filter).bind fun fields => ?_
    -- a decay asks for the name of its field just once, so the renamed one gives the same
    cases decay with
    | none => exact .refl _
    | some d => exact .refl _

theorem follows_filterFields (f : String → String) :
    ∀ filter : Option ClauseSource,
      Follows (filterFields f filter) (filterFields id (renameFilter f filter))
  | none => .refl _
  | some source => by
    rw [renameFilter, filterFields, filterFields]
    exact (follows_compile f source).bind fun clause => .refl _

end

end ClauseSource

theorem QuerySource.follows_compile (f : String → String) (source : QuerySource) :
    Follows (source.compile f) ((source.rename f).compile id) := by
  cases source with
  | everything => exact .refl _
  | criteria tree => exact Criteria.follows_compile f tree
  | native clause filter aggregations => exact clause.follows_compile f
  | text json => exact .refl _

namespace Query

theorem renameRescorers_eq_map (f : String → String) (rs : List (Rescorer Query)) :
    renameRescorers f rs = rs.map (renameRescorer f) := by
  induction rs with
  | nil => rfl
  | cons r rs ih => rw [renameRescorers, ih, List.map_cons]

theorem ids_rename (f : String → String) (q : Query) : (q.rename f).ids = q.ids := by
  cases q
  rfl

theorem follows_clause (f : String → String) (q : Query) :
    Follows (q.clause f) ((q.rename f).clause id) := by
  cases q
  exact QuerySource.follows_compile f _

theorem follows_mainClause (f : String → String) (q : Query) :
    Follows (q.mainClause f) ((q.rename f).mainClause id) := by
  unfold mainClause
  rw [ids_rename]
  exact (q.follows_clause f).bind fun c => .refl _

end Query

theorem Rescorer.follows_entry (f : String → String) (r : Rescorer Query) :
    Follows (r.entry f) ((Query.renameRescorer f r).entry id) := by
  cases r
  exact (Query.follows_clause f _).bind fun clause => .refl _

/-- A distance sort is checked against the domain type, and not at all without one. -/
theorem SortOrder.follows_entry (domain : Option Domain) (s : SortOrder) :
    Follows (s.entry domain) ((s.rename (fieldName domain)).entry none) := by
  cases s with
  | field s => exact .refl _
  | distance s =>
    intro v h
    obtain ⟨-, -, h⟩ := bind_eq_ok.1 h
    exact h

end SearchWire
