import SearchWire.Proofs.Criteria.Basic

/-!
# Criteria as predicates

A tree of criteria is read as a predicate once it is known which of its conditions hold: all
children of one kind of group, some child of the other, the contrary of the child of a negation.

* `Criteria.holds`: the truth of a tree under a truth assignment to its conditions.
* `Criteria.holds_boostLast`: weights do not change it where conditions do not look at them.
-/

namespace SearchWire.Criteria

mutual

/-- The truth of a tree. `leaf` gives the truth of conditions, `hollow` that of alternatives of
which there are none. -/
def holds (leaf : Condition → Bool) (hollow : Bool) : Criteria → Bool
  | .condition c => leaf c
  | .all cs => (truths leaf hollow cs).all id
  | .any cs => if cs.isEmpty then hollow else (truths leaf hollow cs).any id
  | .not c => !holds leaf hollow c
  | .foreign _ => false

def truths (leaf : Condition → Bool) (hollow : Bool) : List Criteria → List Bool
  | [] => []
  | c :: cs => holds leaf hollow c :: truths leaf hollow cs

end

variable (leaf : Condition → Bool) (hollow : Bool)

theorem truths_eq_map (cs : List Criteria) :
    truths leaf hollow cs = cs.map (holds leaf hollow) := by
  induction cs with
  | nil => rfl
  | cons c cs ih => rw [truths, ih, List.map_cons]

theorem holds_all (cs : List Criteria) :
    holds leaf hollow (.all cs) = cs.all (holds leaf hollow) := by
  rw [holds, truths_eq_map, List.all_map, Function.id_comp]

theorem holds_any (cs : List Criteria) :
    holds leaf hollow (.any cs) = if cs.isEmpty then hollow else cs.any (holds leaf hollow) := by
  rw [holds, truths_eq_map, List.any_map, Function.id_comp]

/-- A weight for the last condition changes no truth value. -/
theorem holds_boostLast (boost : Value) (hleaf : ∀ c, leaf { c with boost := boost } = leaf c)
    (t : Criteria) : holds leaf hollow (boostLast boost t) = holds leaf hollow t := by
  induction t using treeInduction with
  | condition c => exact hleaf c
  | all cs ih =>
    have h := congrArg (fun ts => ts.all id) (map_boostLastOf _ boost ih)
    rw [boostLast, holds_all, holds_all]
    simpa only [List.all_map, Function.id_comp] using h
  | any cs ih =>
    have h := congrArg (fun ts => if ts.isEmpty then hollow else ts.any id)
      (map_boostLastOf _ boost ih)
    rw [boostLast, holds_any, holds_any]
    simpa only [List.any_map, List.isEmpty_map, Function.id_comp] using h
  | not c ih => rw [boostLast, holds, holds, ih]
  | foreign v => rfl

end SearchWire.Criteria
