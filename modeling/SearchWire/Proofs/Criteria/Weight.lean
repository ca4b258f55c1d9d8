import SearchWire.Proofs.Criteria.Normal

/-!
# The weight of the last condition

A weight goes to the condition that was added last, and to nothing else. What else there is of a
tree is its outline, the groups and negations without what their conditions say, and its conditions
from left to right; the two together determine the tree.

* `Criteria.outline`: the outline of a tree.
* `Criteria.eq_of_outline`: a tree is determined by its outline and its conditions.
* `Criteria.outline_boostLast`: weights do not change the outline.
* `FluentCall.perform_boost_last`: **a weight changes the condition that was added last.**
-/

namespace SearchWire

/-- A condition that says nothing. -/
def Condition.blank : Condition := ⟨"", .unknown "", .null, .null⟩

namespace Criteria

mutual

/-- The groups and negations of a tree, with blanks for its conditions. -/
def outline : Criteria → Criteria
  | .condition _ => .condition .blank
  | .all cs => .all (outlines cs)
  | .any cs => .any (outlines cs)
  | .not c => .not (outline c)
  | .foreign v => .foreign v

def outlines : List Criteria → List Criteria
  | [] => []
  | c :: cs => outline c :: outlines cs

end

theorem outlines_eq_map (cs : List Criteria) : outlines cs = cs.map outline := by
  induction cs with
  | nil => rfl
  | cons c cs ih => rw [outlines, ih, List.map_cons]

/-- The outline has a blank for each condition. -/
theorem conditions_outline (t : Criteria) :
    t.outline.conditions = t.conditions.map fun _ => .blank := by
  have hchildren : ∀ cs : List Criteria,
      (∀ c ∈ cs, c.outline.conditions = c.conditions.map fun _ => .blank) →
      (cs.map outline).flatMap conditions = (cs.flatMap conditions).map fun _ => .blank := by
    intro cs ih
    rw [List.flatMap_map, List.map_flatMap]
    exact List.flatMap_congr ih
  induction t using treeInduction with
  | condition c => rfl
  | all cs ih => simpa only [outline, conditions_all, outlines_eq_map] using hchildren cs ih
  | any cs ih => simpa only [outline, conditions_any, outlines_eq_map] using hchildren cs ih
  | not c ih => exact ih
  | foreign v => rfl

theorem length_conditions_of_outline {t u : Criteria} (h : t.outline = u.outline) :
    t.conditions.length = u.conditions.length := by
  have hlength : ∀ t : Criteria, t.outline.conditions.length = t.conditions.length := by
    intro t
    rw [conditions_outline, List.length_map]
  rw [← hlength t, h, hlength u]

/-- **A tree is determined by its outline and its conditions.** -/
theorem eq_of_outline {t u : Criteria} (houtline : t.outline = u.outline)
    (hconditions : t.conditions = u.conditions) : t = u := by
  have hchildren : ∀ cs ds : List Criteria,
      (∀ c ∈ cs, ∀ d : Criteria, c.outline = d.outline → c.conditions = d.conditions → c = d) →
      cs.map outline = ds.map outline → cs.flatMap conditions = ds.flatMap conditions →
      cs = ds := by
    intro cs ds ih ho hc
    induction cs generalizing ds with
    | nil => exact (List.map_eq_nil_iff.1 ho.symm).symm
    | cons c cs ihs =>
      cases ds with
      | nil => simp at ho
      | cons d ds =>
        rw [List.forall_mem_cons] at ih
        rw [List.map_cons, List.map_cons, List.cons.injEq] at ho
        -- the outline tells how many of the conditions are those of the first child
        rw [List.flatMap_cons, List.flatMap_cons] at hc
        obtain ⟨hfirst, hrest⟩ := List.append_inj hc (length_conditions_of_outline ho.1)
        rw [ih.1 d ho.1 hfirst, ihs ds ih.2 ho.2 hrest]
  induction t using treeInduction generalizing u with
  | condition c =>
    cases u with
    | condition d => exact congrArg Criteria.condition (List.cons.inj hconditions).1
    | _ => simp [outline] at houtline
  | all cs ih =>
    cases u with
    | all ds =>
      simp only [outline, outlines_eq_map, Criteria.all.injEq] at houtline
      rw [conditions_all, conditions_all] at hconditions
      exact congrArg Criteria.all (hchildren cs ds (fun c hc d => ih c hc) houtline hconditions)
    | _ => simp [outline] at houtline
  | any cs ih =>
    cases u with
    | any ds =>
      simp only [outline, outlines_eq_map, Criteria.any.injEq] at houtline
      rw [conditions_any, conditions_any] at hconditions
      exact congrArg Criteria.any (hchildren cs ds (fun c hc d => ih c hc) houtline hconditions)
    | _ => simp [outline] at houtline
  | not c ih =>
    cases u with
    | not d =>
      simp only [outline, Criteria.not.injEq] at houtline
      exact congrArg Criteria.not (ih houtline hconditions)
    | _ => simp [outline] at houtline
  | foreign v =>
    cases u with
    | foreign w => exact houtline
    | _ => simp [outline] at houtline

theorem outline_boostLast (boost : Value) (t : Criteria) :
    (t.boostLast boost).outline = t.outline := by
  induction t using treeInduction with
  | condition c => rfl
  | all cs ih =>
    rw [boostLast, outline, outline, outlines_eq_map, outlines_eq_map, map_boostLastOf _ boost ih]
  | any cs ih =>
    rw [boostLast, outline, outline, outlines_eq_map, outlines_eq_map, map_boostLastOf _ boost ih]
  | not c ih => exact congrArg Criteria.not ih
  | foreign v => rfl

/-- Of two weights the second one counts. -/
theorem boostLast_boostLast {t : Criteria} (h : Normal t) (first second : Value) :
    (t.boostLast first).boostLast second = t.boostLast second := by
  have houtline :
      ((t.boostLast first).boostLast second).outline = (t.boostLast second).outline := by
    rw [outline_boostLast, outline_boostLast, outline_boostLast]
  obtain ⟨before, c, -, hboost⟩ := h.conditions_boostLast
  obtain ⟨before', d, hfirst, hsecond⟩ := (h.boostLast first).conditions_boostLast
  have hlast : before ++ [{ c with boost := first }] = before' ++ [d] := by
    rw [← hboost first, hfirst]
  obtain ⟨rfl, hd⟩ := List.append_inj' hlast rfl
  obtain rfl := (List.cons.inj hd).1
  refine eq_of_outline houtline ?_
  rw [hsecond second, hboost second]

end Criteria

namespace FluentCall

open Criteria

/-- **A weight changes the condition that was added last.** The tree stays the same otherwise, that
is, its outline, its other conditions, and of the last condition all but the weight; another weight
afterwards takes the place of the first one. The empty chain stays empty. -/
theorem perform_boost_last (calls : List FluentCall) (weight : Value) :
    perform (.boost weight) none = .ok none ∧
      ∀ t, performAll calls none = .ok (some t) →
        ∃ u before c, perform (.boost weight) (some t) = .ok (some u) ∧
          u.outline = t.outline ∧
          t.conditions = before ++ [c] ∧
          u.conditions = before ++ [{ c with boost := weight }] ∧
          addedAll calls = .ok ((before ++ [c]).map Condition.unweighted) ∧
          ∀ other, perform (.boost other) (some u) = perform (.boost other) (some t) := by
  refine ⟨rfl, ?_⟩
  intro t ht
  have hadds := extends_performAll calls
  rw [ht] at hadds
  generalize hmore : addedAll calls = more at hadds
  cases hadds with
  | @adds _ cs hsound hcs =>
    have hnormal : t.Normal := (hsound t rfl).normal
    obtain ⟨before, c, hconditions, hboost⟩ := hnormal.conditions_boostLast
    have hadded : cs = (before ++ [c]).map Condition.unweighted := by
      rw [← hconditions]
      exact hcs.symm
    refine ⟨t.boostLast weight, before, c, rfl, outline_boostLast weight t, hconditions,
      hboost weight, congrArg Except.ok hadded, ?_⟩
    intro other
    have hagain := boostLast_boostLast hnormal weight other
    exact congrArg (fun u => Except.ok (some u)) hagain

/-- Calls of which the last one joins a negated chain that ends in a negated condition. -/
private def nestedCalls : List FluentCall :=
  [.condition .and (.str "a") 0 .exists [],
    .chain .or [.condition .and (.str "b") 0 .exists [], .condition .or (.str "c") 1 .exists [],
      .negate]]

theorem perform_boost_last_nested :
    ∃ t u before c, performAll nestedCalls none = .ok (some t) ∧
      perform (.boost (.int 3)) (some t) = .ok (some u) ∧
      u.outline = t.outline ∧
      t.conditions = before ++ [c] ∧
      u.conditions = before ++ [{ c with boost := .int 3 }] := by
  obtain ⟨u, before, c, hu, houtline, ht, hboost, -⟩ :=
    (perform_boost_last nestedCalls (.int 3)).2 _ rfl
  exact ⟨_, u, before, c, rfl, hu, houtline, ht, hboost⟩

end FluentCall

end SearchWire
