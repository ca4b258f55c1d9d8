import SearchWire.Proofs.Mapping.Declared

/-!
# Taking wrappers off

The wrappers of a type come off one at a time, from the outside, and it is kept in mind if one of
them was a collection. Each of them holds a smaller type, so this ends, and it ends with a type
that is no wrapper.

* `TypeExpr.inside?`: the type inside the outermost wrapper.
* `TypeExpr.Unwraps`: wrappers are taken off until none is left.
* `TypeExpr.unwraps_iff`: **this ends for every type, with what `unwrap` says.**
* `TypeExpr.wrappers_come_off`: what is left is no wrapper, and what further wrappers change.
* `Catalogue.inside?_of_fieldType?`: no query sees a wrapper at the end of a path.
-/

namespace SearchWire

namespace TypeExpr

/-- The type inside the outermost wrapper, and whether that wrapper is a collection. -/
def inside? : TypeExpr → Option (TypeExpr × Bool)
  | .union members _ =>
    match members.filter fun t => !t.isNone with
    | [t] => some (t, false)
    | _ => .none
  | .list t | .set t | .frozenset t => some (t, true)
  | .tuple (t :: _) => some (t, true)
  | _ => .none

/-- Wrappers are taken off until none is left: from a type and whether a collection was met so
far, to the type that is left and whether a collection was met at all. -/
inductive Unwraps : TypeExpr → Bool → TypeExpr → Bool → Prop
  | done {t : TypeExpr} {met : Bool} (h : t.inside? = .none) : Unwraps t met t met
  | pass {t u t' : TypeExpr} {met collection isList : Bool} (h : t.inside? = some (u, collection))
      (rest : Unwraps u (met || collection) t' isList) : Unwraps t met t' isList

variable {t u t' : TypeExpr} {met collection isList : Bool}

/-! ## One wrapper -/

/-- A wrapper is a union with one type beside `null`, or a collection. -/
theorem inside?_cases (h : t.inside? = some (u, collection)) :
    (∃ members piped, t = .union members piped ∧
      members.filter (fun v => !v.isNone) = [u] ∧ collection = false) ∨
    (t = .list u ∨ t = .set u ∨ t = .frozenset u ∨ ∃ ts, t = .tuple (u :: ts)) ∧
      collection = true := by
  cases t with
  | union members piped =>
    rw [inside?] at h
    split at h
    · next v hv =>
      cases h
      exact .inl ⟨members, piped, rfl, hv, rfl⟩
    · cases h
  | list v =>
    cases h
    exact .inr ⟨.inl rfl, rfl⟩
  | set v =>
    cases h
    exact .inr ⟨.inr (.inl rfl), rfl⟩
  | frozenset v =>
    cases h
    exact .inr ⟨.inr (.inr (.inl rfl)), rfl⟩
  | tuple items =>
    cases items with
    | nil => cases h
    | cons v ts =>
      cases h
      exact .inr ⟨.inr (.inr (.inr ⟨ts, rfl⟩)), rfl⟩
  | _ => cases h

/-- All other types are no wrappers. -/
theorem inside?_eq_none_iff :
    t.inside? = .none ↔
      (∀ members piped, t = .union members piped →
        (members.filter fun v => !v.isNone).length ≠ 1) ∧ t.isCollection = false := by
  cases t with
  | union members piped =>
    rw [inside?]
    split
    · next v hv =>
      refine iff_of_false nofun fun hplain => ?_
      exact hplain.1 members piped rfl (by rw [hv]; rfl)
    · next hmany =>
      refine iff_of_true rfl ⟨?_, rfl⟩
      rintro _ _ ⟨⟩ hone
      obtain ⟨v, hv⟩ := List.length_eq_one_iff.1 hone
      exact hmany v hv
  | tuple items => cases items <;> simp [inside?, isCollection]
  | _ => simp [inside?, isCollection]

/-- The type inside a wrapper is smaller than the wrapper. -/
theorem sizeOf_inside? (h : t.inside? = some (u, collection)) : sizeOf u < sizeOf t := by
  rcases inside?_cases h with ⟨members, piped, rfl, hone, -⟩ | ⟨hcollection, -⟩
  · have hmem : u ∈ members.filter fun v => !v.isNone := by rw [hone]; exact .head _
    have hsize : sizeOf u < sizeOf members := List.sizeOf_lt_of_mem (List.mem_filter.1 hmem).1
    rw [union.sizeOf_spec]
    omega
  · rcases hcollection with rfl | rfl | rfl | ⟨ts, rfl⟩
    all_goals
      simp only [list.sizeOf_spec, set.sizeOf_spec, frozenset.sizeOf_spec, tuple.sizeOf_spec,
        List.cons.sizeOf_spec]
      omega

/-- What is seen of a wrapper is what is seen of the type inside, except that the wrapper may be
a collection. -/
theorem unwrap_of_inside? (h : t.inside? = some (u, collection)) :
    t.unwrap = (u.unwrap.1, collection || u.unwrap.2) := by
  rcases inside?_cases h with ⟨members, piped, rfl, hone, rfl⟩ | ⟨hcollection, rfl⟩
  · rcases unwrap_union members piped with ⟨v, hv, hunwrap⟩ | ⟨hmany, -⟩
    · have huv : u = v := by simpa [hone] using hv
      rw [hunwrap, huv, Bool.false_or]
    · rw [hone] at hmany
      exact absurd rfl hmany
  · rcases hcollection with rfl | rfl | rfl | ⟨ts, rfl⟩
    all_goals simp [unwrap]

/-- A type that is no wrapper is seen as it is. -/
theorem unwrap_of_inside?_eq_none (h : t.inside? = .none) : t.unwrap = (t, false) := by
  obtain ⟨hmany, hcollection⟩ := inside?_eq_none_iff.1 h
  cases hunion : t.isUnion with
  | false => exact unwrap_of_plain hunion hcollection
  | true =>
    cases t with
    | union members piped =>
      rcases unwrap_union members piped with ⟨v, hv, -⟩ | ⟨-, hwhole⟩
      · exact absurd (by rw [hv]; rfl) (hmany members piped rfl)
      · exact hwhole
    | _ => cases hunion

/-! ## All wrappers -/

namespace Unwraps

theorem inside?_eq_none (h : Unwraps t met t' isList) : t'.inside? = .none := by
  induction h with
  | done h => exact h
  | pass _ _ ih => exact ih

/-- Each pass hands on what is still to be seen, so the last one has it all. -/
theorem eq_unwrap (h : Unwraps t met t' isList) :
    t' = t.unwrap.1 ∧ isList = (met || t.unwrap.2) := by
  induction h with
  | done h =>
    rw [unwrap_of_inside?_eq_none h, Bool.or_false]
    exact ⟨rfl, rfl⟩
  | pass h _ ih =>
    rw [unwrap_of_inside? h, ← Bool.or_assoc]
    exact ih

end Unwraps

/-- However many wrappers there are, they are all taken off. -/
theorem exists_unwraps (t : TypeExpr) (met : Bool) : ∃ t' isList, Unwraps t met t' isList := by
  cases h : t.inside? with
  | none => exact ⟨t, met, .done h⟩
  | some inner =>
    -- the type inside a union is one of a list of types, so the recursion is on sizes
    obtain ⟨u, collection⟩ := inner
    obtain ⟨t', isList, hrest⟩ := exists_unwraps u (met || collection)
    exact ⟨t', isList, .pass h hrest⟩
termination_by sizeOf t
decreasing_by exact sizeOf_inside? h

/-- **Taking wrappers off ends for every type**, with what `unwrap` says and nothing else. -/
theorem unwraps_iff :
    Unwraps t met t' isList ↔ t' = t.unwrap.1 ∧ isList = (met || t.unwrap.2) := by
  constructor
  · exact Unwraps.eq_unwrap
  · rintro ⟨rfl, rfl⟩
    obtain ⟨t', isList, h⟩ := exists_unwraps t met
    obtain ⟨rfl, rfl⟩ := h.eq_unwrap
    exact h

theorem inside?_unwrap (t : TypeExpr) : t.unwrap.1.inside? = .none := by
  have h : Unwraps t false t.unwrap.1 (false || t.unwrap.2) := unwraps_iff.2 ⟨rfl, rfl⟩
  exact h.inside?_eq_none

/-- It does not matter to what is seen of a type if `null` is allowed in its place. -/
theorem unwrap_orNone (h : t.isUnion = false) (piped : Bool) :
    (unionOf [t, .none] piped).unwrap = t.unwrap ∧
      (unionOf [.none, t] piped).unwrap = t.unwrap := by
  cases t with
  | union => cases h
  | _ => exact ⟨rfl, rfl⟩

/-- **All wrappers come off.** Taking them off one at a time ends for every type, and there is one
way in which it ends. What is left is no union with one type beside `null` and no collection, so
that nothing more comes off it. A collection of a type, or a tuple that starts with it, adds that a
collection was met; `null` in place of a type that is no union adds nothing, however the union is
written. -/
theorem wrappers_come_off (t : TypeExpr) :
    (∀ t' isList, Unwraps t false t' isList ↔ (t', isList) = t.unwrap) ∧
      (∀ members piped, t.unwrap.1 = .union members piped →
        (members.filter fun u => !u.isNone).length ≠ 1) ∧
      t.unwrap.1.isCollection = false ∧
      t.unwrap.1.unwrap = (t.unwrap.1, false) ∧
      (∀ collection ∈ [TypeExpr.list, .set, .frozenset],
        (collection t).unwrap = (t.unwrap.1, true)) ∧
      (∀ ts, (TypeExpr.tuple (t :: ts)).unwrap = (t.unwrap.1, true)) ∧
      (t.isUnion = false → ∀ piped, (unionOf [t, .none] piped).unwrap = t.unwrap ∧
        (unionOf [.none, t] piped).unwrap = t.unwrap) := by
  have hplain : t.unwrap.1.inside? = .none := inside?_unwrap t
  obtain ⟨hmany, hcollection⟩ := inside?_eq_none_iff.1 hplain
  refine ⟨?_, hmany, hcollection, unwrap_of_inside?_eq_none hplain, ?_, ?_, unwrap_orNone⟩
  · intro t' isList
    rw [unwraps_iff, Bool.false_or, Prod.ext_iff]
  · intro collection hmem
    have hinside : (collection t).inside? = some (t, true) := by
      simp only [List.mem_cons, List.not_mem_nil, or_false] at hmem
      rcases hmem with rfl | rfl | rfl <;> rfl
    rw [unwrap_of_inside? hinside, Bool.true_or]
  · intro ts
    have hinside : (TypeExpr.tuple (t :: ts)).inside? = some (t, true) := rfl
    rw [unwrap_of_inside? hinside, Bool.true_or]

/-- Marks, each a number, a text or nothing. -/
private def marks : TypeExpr :=
  .list (unionOf [.named "int", .named "str", .none] false)

theorem wrappers_come_off_marks :
    let mark : TypeExpr := .union [.named "int", .named "str", .none] false
    marks.unwrap = (mark, true) ∧ Unwraps marks false mark true ∧ mark.unwrap = (mark, false) ∧
      ([TypeExpr.named "int", .named "str", .none].filter fun u => !u.isNone).length ≠ 1 ∧
      (TypeExpr.set marks).unwrap = (mark, true) ∧ marks.isUnion = false ∧
      (unionOf [marks, .none] true).unwrap = (mark, true) := by
  obtain ⟨hends, hmany, -, hagain, hcollection, -, hnull⟩ := wrappers_come_off marks
  exact ⟨rfl, (hends _ _).2 rfl, hagain, hmany _ _ rfl, hcollection .set (by simp), rfl,
    (hnull rfl true).1⟩

end TypeExpr

/-- What a query sees at the end of a path is no wrapper. -/
theorem Catalogue.inside?_of_fieldType? {cat : Catalogue} {type t : TypeExpr} {path : String}
    (h : cat.fieldType? type path = some t) : t.inside? = .none := by
  rw [fieldType?_eq_map] at h
  obtain ⟨declared, -, rfl⟩ := Option.map_eq_some_iff.1 h
  exact TypeExpr.inside?_unwrap declared

end SearchWire
