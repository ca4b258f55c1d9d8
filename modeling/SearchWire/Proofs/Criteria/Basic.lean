import SearchWire.Criteria.Basic

/-!
# Induction over trees of criteria

A property of all trees is proved kind by kind; for a group it may be used of every child.

* `Criteria.treeInduction`: the principle.
* `Criteria.boostLastOf_concat`: of the children of a group only the last one gets the weight.
* `Criteria.map_boostLastOf`, `Criteria.forall_mem_boostLastOf`: what the children keep if the last
  one keeps it.
* `Criteria.WellMade`: the trees that chains are made of.
-/

namespace SearchWire.Criteria

/-- **Induction over a tree**, one case for each kind of node. -/
@[elab_as_elim]
theorem treeInduction {P : Criteria → Prop} (condition : ∀ c, P (.condition c))
    (all : ∀ cs, (∀ c ∈ cs, P c) → P (.all cs)) (any : ∀ cs, (∀ c ∈ cs, P c) → P (.any cs))
    (not : ∀ c, P c → P (.not c)) (foreign : ∀ v, P (.foreign v)) (t : Criteria) : P t :=
  @Criteria.rec P (fun cs => ∀ c ∈ cs, P c) condition all any not foreign
    (fun _ h => absurd h List.not_mem_nil) (fun _ _ hc hcs => List.forall_mem_cons.2 ⟨hc, hcs⟩) t

theorem boostLastOf_concat (boost : Value) (cs : List Criteria) (c : Criteria) :
    boostLastOf boost (cs ++ [c]) = cs ++ [boostLast boost c] := by
  induction cs with
  | nil => rfl
  | cons d cs ih =>
    rw [List.cons_append, List.cons_append, ← ih]
    cases cs <;> rfl

/-- What a weight does not change in a child it does not change in a list of children. -/
theorem map_boostLastOf {β : Type} (f : Criteria → β) (boost : Value) {cs : List Criteria}
    (h : ∀ c ∈ cs, f (boostLast boost c) = f c) : (boostLastOf boost cs).map f = cs.map f := by
  obtain rfl | ⟨init, last, rfl⟩ := List.eq_nil_or_concat cs
  · rfl
  · rw [List.concat_eq_append] at h ⊢
    have hlast : f (boostLast boost last) = f last := h last (by simp)
    rw [boostLastOf_concat, List.map_append, List.map_append, List.map_singleton,
      List.map_singleton, hlast]

theorem length_boostLastOf (boost : Value) (cs : List Criteria) :
    (boostLastOf boost cs).length = cs.length := by
  have hmap : (boostLastOf boost cs).map (fun _ => ()) = cs.map fun _ => () :=
    map_boostLastOf _ boost fun _ _ => rfl
  simpa using congrArg List.length hmap

/-- The children are the old ones, but for the last one. -/
theorem forall_mem_boostLastOf {P : Criteria → Prop} {boost : Value} {cs : List Criteria}
    (hcs : ∀ c ∈ cs, P c) (hboost : ∀ c ∈ cs, P (boostLast boost c)) :
    ∀ c ∈ boostLastOf boost cs, P c := by
  obtain rfl | ⟨init, last, rfl⟩ := List.eq_nil_or_concat cs
  · exact hcs
  · rw [List.concat_eq_append] at hcs hboost ⊢
    rw [boostLastOf_concat]
    rw [List.forall_mem_append] at hcs hboost ⊢
    exact ⟨hcs.1, List.forall_mem_singleton.2 (hboost.2 last (by simp))⟩

/-- A tree of conditions with operators of the enumeration and of groups with children. -/
inductive WellMade : Criteria → Prop where
  | condition (c : Condition) (op : Operator) (hop : c.operator = .known op) :
    WellMade (.condition c)
  | all (cs : List Criteria) (hne : cs ≠ []) (hcs : ∀ c ∈ cs, WellMade c) : WellMade (.all cs)
  | any (cs : List Criteria) (hne : cs ≠ []) (hcs : ∀ c ∈ cs, WellMade c) : WellMade (.any cs)
  | not (c : Criteria) (hc : WellMade c) : WellMade (.not c)

theorem WellMade.connect {left : Option Criteria} {right : Criteria}
    (hleft : ∀ t ∈ left, WellMade t) (connective : Connective) (hright : WellMade right) :
    WellMade (connect left connective right) := by
  have hpair : ∀ {t : Criteria}, WellMade t → ∀ c ∈ [t, right], WellMade c := by
    intro t ht
    simp [ht, hright]
  have hmore : ∀ {cs : List Criteria}, (∀ c ∈ cs, WellMade c) → ∀ c ∈ cs ++ [right], WellMade c :=
    fun hcs => List.forall_mem_append.2 ⟨hcs, List.forall_mem_singleton.2 hright⟩
  cases left with
  | none => exact hright
  | some t =>
    have ht := hleft t rfl
    cases connective with
    | and =>
      cases ht with
      | all cs hne hcs => exact .all _ (by simp) (hmore hcs)
      | _ => exact .all _ (by simp) (hpair (hleft _ rfl))
    | or =>
      cases ht with
      | any cs hne hcs => exact .any _ (by simp) (hmore hcs)
      | _ => exact .any _ (by simp) (hpair (hleft _ rfl))

theorem WellMade.boostLast {t : Criteria} (h : WellMade t) (boost : Value) :
    WellMade (t.boostLast boost) := by
  have hlast : ∀ cs : List Criteria, cs ≠ [] → boostLastOf boost cs ≠ [] := by
    intro cs hne hnil
    have hlength := length_boostLastOf boost cs
    rw [hnil, List.length_nil] at hlength
    exact hne (List.length_eq_zero_iff.1 hlength.symm)
  induction h with
  | condition c op hop => exact .condition _ op hop
  | all cs hne hcs ih => exact .all _ (hlast cs hne) (forall_mem_boostLastOf hcs ih)
  | any cs hne hcs ih => exact .any _ (hlast cs hne) (forall_mem_boostLastOf hcs ih)
  | not c hc ih => exact .not _ ih

end SearchWire.Criteria
