import SearchWire.Clause.Score
import SearchWire.Proofs.Clause.Regular

/-!
# Failures of scored clauses

A scored clause is compiled without any data being fitted to a model on the way. So what keeps it
from being made is never that data does not fit.

* `Decay.neverRejects_body`: the parameters of a decay.
* `ClauseSource.neverRejects_compile`: scored clauses, by their functions and filters.
-/

namespace SearchWire

variable {rename : String → String}

theorem Decay.neverRejects_body (d : Decay) : NeverRejects (d.body rename) := by
  refine (neverRejects_formOf d.origin).bind fun _ _ => ?_
  refine (neverRejects_formOf d.scale).bind fun _ _ => ?_
  dsimp only
  split
  · trivial
  · exact (neverRejects_formOf d.offset).andThen _

namespace ClauseSource

mutual

theorem neverRejects_compile : ∀ source : ClauseSource, NeverRejects (source.compile rename)
  | .everything | .readyMade _ => by
    rw [compile]
    trivial
  | .criteria tree => by
    rw [compile]
    exact Criteria.neverRejects_compile _
  | .scored inner functions _ => by
    rw [compile]
    exact (neverRejects_compile inner).bind fun _ _ =>
      (neverRejects_functionEntries functions).andThen _

theorem neverRejects_functionEntries : ∀ fs : List (ScoreFunction ClauseSource),
    NeverRejects (functionEntries rename fs)
  | [] => by
    rw [functionEntries]
    trivial
  | f :: fs => by
    rw [functionEntries]
    exact (neverRejects_functionEntry f).bind fun _ _ =>
      (neverRejects_functionEntries fs).andThen _

theorem neverRejects_functionEntry : ∀ f : ScoreFunction ClauseSource,
    NeverRejects (functionEntry rename f)
  | ⟨filter, _, decay⟩ => by
    rw [functionEntry]
    refine (neverRejects_filterFields filter).bind fun _ _ => ?_
    cases decay with
    | none => trivial
    | some d => exact d.neverRejects_body.andThen _

theorem neverRejects_filterFields : ∀ filter : Option ClauseSource,
    NeverRejects (filterFields rename filter)
  | none => by
    rw [filterFields]
    trivial
  | some source => by
    rw [filterFields]
    exact (neverRejects_compile source).andThen _

end

end ClauseSource

end SearchWire
