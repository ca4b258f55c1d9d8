import Mathlib.Data.List.Perm.Basic
import SearchWire.Proofs.Criteria.Basic

/-!
# Orders in which a tree is gone through

The conditions of a tree stand in it from left to right. The compiler comes to them in another
order: of the children of a group that must all hold it takes the negations last. It also comes to
groups without children and to values that are no criteria.

* `Criteria.conditions`: the conditions from left to right.
* `Criteria.visits`: what the compiler comes to, in its order.
* `Criteria.visits_all`, `Criteria.visits_any`: the children of a group, one after the other.
* `Criteria.conditions_perm`: **the compiler comes to every condition once.**
* `Criteria.mem_visitsOf`: so it comes to the conditions of the tree and to no others.
-/

namespace SearchWire

/-- Something that the compiler comes to in a tree. -/
inductive Visit where
  | condition (c : Condition)
  /-- A group without children, or no tree at all. -/
  | hollow
  /-- A value that is no criterion. -/
  | foreign (v : Value)

def Visit.condition? : Visit → Option Condition
  | condition c => some c
  | hollow | foreign _ => none

theorem Visit.condition?_eq_some {v : Visit} {c : Condition} :
    v.condition? = some c ↔ v = .condition c := by
  cases v <;> simp [condition?]

/-- Before a condition the compiler comes to nothing but the conditions before it, groups without
children and foreign values. -/
theorem Visit.exists_of_conditions_eq {vs : List Visit} {before after : List Condition}
    {c : Condition} (h : vs.filterMap Visit.condition? = before ++ c :: after) :
    ∃ earlier later, vs = earlier ++ .condition c :: later ∧
      ∀ d, .condition d ∈ earlier → d ∈ before := by
  obtain ⟨first, rest, rfl, hfirst, hrest⟩ := List.filterMap_eq_append_iff.1 h
  obtain ⟨between, v, later, rfl, hbetween, hv, -⟩ := List.filterMap_eq_cons_iff.1 hrest
  obtain rfl := Visit.condition?_eq_some.1 hv
  refine ⟨first ++ between, later, (List.append_assoc _ _ _).symm, ?_⟩
  intro d hd
  rcases List.mem_append.1 hd with hd | hd
  · rw [← hfirst]
    exact List.mem_filterMap.2 ⟨_, hd, rfl⟩
  · cases hbetween _ hd

namespace Criteria

mutual

/-- The conditions of a tree from left to right. -/
def conditions : Criteria → List Condition
  | .condition c => [c]
  | .all cs => conditionsOf cs
  | .any cs => conditionsOf cs
  | .not c => conditions c
  | .foreign _ => []

def conditionsOf : List Criteria → List Condition
  | [] => []
  | c :: cs => conditions c ++ conditionsOf cs

end

def isNegation : Criteria → Bool
  | .not _ => true
  | _ => false

mutual

/-- What the compiler comes to in a tree. Among children that must all hold the negations come
after the others; within either of the two, and everywhere else, the order is that of the tree. -/
def visits : Criteria → List Visit
  | .condition c => [.condition c]
  | .all [] | .any [] => [.hollow]
  | .all (c :: cs) =>
    visitsWhere (fun c => !c.isNegation) (c :: cs) ++ visitsWhere isNegation (c :: cs)
  | .any (c :: cs) => visitsWhere (fun _ => true) (c :: cs)
  | .not c => visits c
  | .foreign v => [.foreign v]

/-- What the compiler comes to in the children that are kept. -/
def visitsWhere (keep : Criteria → Bool) : List Criteria → List Visit
  | [] => []
  | c :: cs => if keep c then visits c ++ visitsWhere keep cs else visitsWhere keep cs

end

theorem conditionsOf_eq_flatMap (cs : List Criteria) : conditionsOf cs = cs.flatMap conditions := by
  induction cs with
  | nil => rfl
  | cons c cs ih => rw [conditionsOf, ih, List.flatMap_cons]

theorem conditions_all (cs : List Criteria) : conditions (.all cs) = cs.flatMap conditions := by
  rw [conditions, conditionsOf_eq_flatMap]

theorem conditions_any (cs : List Criteria) : conditions (.any cs) = cs.flatMap conditions := by
  rw [conditions, conditionsOf_eq_flatMap]

theorem visitsWhere_eq (keep : Criteria → Bool) (cs : List Criteria) :
    visitsWhere keep cs = (cs.filter keep).flatMap visits := by
  induction cs with
  | nil => rfl
  | cons c cs ih =>
    rw [visitsWhere, ih]
    by_cases hc : keep c = true
    · rw [if_pos hc, List.filter_cons_of_pos hc, List.flatMap_cons]
    · rw [if_neg hc, List.filter_cons_of_neg hc]

/-- In a group of which all children must hold the compiler comes to the negations last. -/
theorem visits_all (c : Criteria) (cs : List Criteria) :
    visits (.all (c :: cs)) = ((c :: cs).filter (fun d => !d.isNegation) ++
      (c :: cs).filter isNegation).flatMap visits := by
  rw [visits, visitsWhere_eq, visitsWhere_eq, List.flatMap_append]

theorem visits_any (c : Criteria) (cs : List Criteria) :
    visits (.any (c :: cs)) = (c :: cs).flatMap visits := by
  have hkept : (c :: cs).filter (fun _ => true) = c :: cs := List.filter_eq_self.2 fun _ _ => rfl
  rw [visits, visitsWhere_eq, hkept]

/-- The children that the compiler comes to, in its order, are all children. -/
theorem filter_isNegation_perm (cs : List Criteria) :
    (cs.filter (fun c => !c.isNegation) ++ cs.filter isNegation).Perm cs := by
  have h : (cs.filter isNegation ++ cs.filter (fun c => !c.isNegation)).Perm cs :=
    List.filter_append_perm isNegation cs
  exact List.perm_append_comm.trans h

/-- Children of which every condition is come to once are gone through in any order. -/
theorem flatMap_conditions_perm {cs ds : List Criteria} (hds : ds.Perm cs)
    (hcs : ∀ c ∈ cs, (c.visits.filterMap Visit.condition?).Perm c.conditions) :
    ((ds.flatMap visits).filterMap Visit.condition?).Perm (cs.flatMap conditions) := by
  rw [List.filterMap_flatMap]
  exact hds.flatMap fun c hc => hcs c (hds.mem_iff.1 hc)

/-- **The compiler comes to every condition of a tree once.** -/
theorem conditions_perm (t : Criteria) :
    (t.visits.filterMap Visit.condition?).Perm t.conditions := by
  induction t using treeInduction with
  | condition c => exact .refl _
  | all cs ih =>
    rw [conditions_all]
    cases cs with
    | nil => exact .refl _
    | cons c cs =>
      rw [visits_all]
      exact flatMap_conditions_perm (filter_isNegation_perm _) ih
  | any cs ih =>
    rw [conditions_any]
    cases cs with
    | nil => exact .refl _
    | cons c cs =>
      rw [visits_any]
      exact flatMap_conditions_perm (.refl _) ih
  | not c ih => exact ih
  | foreign v => exact .refl _

/-- What the compiler comes to in a tree, or in no tree. -/
def visitsOf : Option Criteria → List Visit
  | none => [.hollow]
  | some t => t.visits

/-- The conditions that the compiler comes to are those of the tree. -/
theorem mem_visitsOf {tree : Option Criteria} {c : Condition} :
    .condition c ∈ visitsOf tree ↔ ∃ t ∈ tree, c ∈ t.conditions := by
  have hvisit : ∀ vs : List Visit, .condition c ∈ vs ↔ c ∈ vs.filterMap Visit.condition? := by
    intro vs
    simp [List.mem_filterMap, Visit.condition?_eq_some]
  cases tree with
  | none => simp [visitsOf]
  | some t =>
    rw [hvisit, visitsOf, (conditions_perm t).mem_iff]
    simp

end Criteria

end SearchWire
