import SearchWire.Proofs.Mapping.Build
import SearchWire.Proofs.Mapping.Path

/-!
# Declared types of properties

A query sees of a declared type what is inside its wrappers. A union of types that are no unions
themselves is a wrapper if it has one type beside `null`, after repetitions are dropped; else it is
seen as it is, with its types as they are written.

* `TypeExpr.isUnion`, `TypeExpr.isCollection`: two kinds of types.
* `TypeExpr.any_distinct`: dropping repetitions does not matter to what one of some types has.
* `TypeExpr.unwrap_unionOf`: **what is seen of a union.**
* `Catalogue.declared?`: the type with which the property at the end of a path is declared.
-/

namespace SearchWire

namespace TypeExpr

def isUnion : TypeExpr → Bool
  | .union _ _ => true
  | _ => false

/-- A collection of items of a given type. -/
def isCollection : TypeExpr → Bool
  | .list _ | .set _ | .frozenset _ | .tuple (_ :: _) => true
  | _ => false

theorem eq_none_of_isNone {t : TypeExpr} (h : t.isNone = true) : t = .none := by
  cases t with
  | none => rfl
  | _ => cases h

/-- Only unions and collections are wrappers. -/
theorem unwrap_of_plain {t : TypeExpr} (hunion : t.isUnion = false)
    (hcollection : t.isCollection = false) : t.unwrap = (t, false) := by
  cases t with
  | union => cases hunion
  | list => cases hcollection
  | set => cases hcollection
  | frozenset => cases hcollection
  | tuple items =>
    cases items with
    | nil => rfl
    | cons => cases hcollection
  | _ => rfl

theorem flatMap_flatten {ts : List TypeExpr} (h : ∀ t ∈ ts, t.isUnion = false) :
    ts.flatMap flatten = ts := by
  induction ts with
  | nil => rfl
  | cons t ts ih =>
    obtain ⟨ht, hts⟩ := List.forall_mem_cons.1 h
    have hflat : t.flatten = [t] := by
      cases t with
      | union => cases ht
      | _ => rfl
    rw [List.flatMap_cons, ih hts, hflat]
    rfl

/-! ## Repetitions -/

/-- One step of dropping repetitions. -/
private def keepNew (acc : List TypeExpr) (t : TypeExpr) : List TypeExpr :=
  if acc.contains t then acc else acc ++ [t]

theorem mem_distinct {ts : List TypeExpr} {t : TypeExpr} (h : t ∈ distinct ts) : t ∈ ts := by
  have hkept : ∀ acc, t ∈ ts.foldl keepNew acc → t ∈ acc ∨ t ∈ ts := by
    clear h
    induction ts with
    | nil => exact fun acc h => .inl h
    | cons u ts ih =>
      intro acc h
      rcases ih _ h with hacc | hts
      · unfold keepNew at hacc
        split at hacc
        · exact .inl hacc
        · rcases List.mem_append.1 hacc with hacc | hu
          · exact .inl hacc
          · exact .inr (List.mem_cons.2 (.inl (List.mem_singleton.1 hu)))
      · exact .inr (List.mem_cons_of_mem u hts)
  rcases hkept [] h with hnil | hts
  · cases hnil
  · exact hts

/-- **Dropping repetitions** does not matter to what one of some types has, if types that are
written in the same way have it both or neither. -/
theorem any_distinct {p : TypeExpr → Bool} (hp : ∀ t u, same t u = true → p t = p u)
    (ts : List TypeExpr) : (distinct ts).any p = ts.any p := by
  have hstep : ∀ acc t, (keepNew acc t).any p = (acc.any p || p t) := by
    intro acc t
    unfold keepNew
    split
    · next hmem =>
      rw [List.contains_eq_any_beq, List.any_eq_true] at hmem
      obtain ⟨u, hu, hsame⟩ := hmem
      have hpu : p t = p u := hp t u hsame
      cases hpt : p t with
      | false => rw [Bool.or_false]
      | true => rw [Bool.or_true, List.any_eq_true.2 ⟨u, hu, hpu ▸ hpt⟩]
    · simp [List.any_append]
  have hfold : ∀ acc, (ts.foldl keepNew acc).any p = (acc.any p || ts.any p) := by
    induction ts with
    | nil => exact fun acc => by simp
    | cons t ts ih =>
      intro acc
      rw [List.foldl_cons, ih, hstep, List.any_cons, Bool.or_assoc]
  exact hfold []

/-! ## Unions -/

/-- A union is seen as its one type beside `null`, if it has one, or as it is. -/
theorem unwrap_union (members : List TypeExpr) (piped : Bool) :
    (∃ t, members.filter (fun t => !t.isNone) = [t] ∧ (union members piped).unwrap = t.unwrap) ∨
      (members.filter fun t => !t.isNone).length ≠ 1 ∧
        (union members piped).unwrap = (.union members piped, false) := by
  rw [unwrap, unwrapEach_eq_map]
  split
  · next r hr =>
    obtain ⟨t, ht, rfl⟩ := List.map_eq_singleton_iff.1 hr
    exact .inl ⟨t, ht, rfl⟩
  · next hmany =>
    refine .inr ⟨?_, rfl⟩
    intro hone
    obtain ⟨t, ht⟩ := List.length_eq_one_iff.1 hone
    exact hmany t.unwrap (by rw [ht]; rfl)

/-- **What is seen of a union** of types that are no unions: the one type beside `null`, if there
is one after repetitions are dropped; or else these types, one by one, or `null` alone. -/
theorem unwrap_unionOf {ts : List TypeExpr} (h : ∀ t ∈ ts, t.isUnion = false) (piped : Bool) :
    (∃ t, (distinct ts).filter (fun t => !t.isNone) = [t] ∧
        (unionOf ts piped).unwrap = t.unwrap) ∨
      ((distinct ts).filter fun t => !t.isNone).length ≠ 1 ∧
        (distinct ts = [.none] ∧ (unionOf ts piped).unwrap = (.none, false) ∨
          ∃ piped', (unionOf ts piped).unwrap = (.union (distinct ts) piped', false)) := by
  rw [unionOf, flatMap_flatten h]
  split
  · next t ht =>
    rw [ht]
    cases hnone : t.isNone with
    | true =>
      obtain rfl := eq_none_of_isNone hnone
      exact .inr ⟨by decide, .inl ⟨rfl, rfl⟩⟩
    | false => exact .inl ⟨t, by simp [hnone], rfl⟩
  · next us _ =>
    rcases unwrap_union (distinct ts) (piped && !ts.any joinsByName) with hone | ⟨hmany, hwhole⟩
    · exact .inl hone
    · exact .inr ⟨hmany, .inr ⟨_, hwhole⟩⟩

end TypeExpr

/-! ## Paths -/

namespace Catalogue

/-- The type with which the property at the end of some names is declared. -/
def declaredAlong (cat : Catalogue) : TypeExpr → List String → Option TypeExpr
  | .named n, name :: names => do
    let m ← cat.model? n
    let p ← m.properties.find? (·.name == name)
    if names.isEmpty then some p.declared else declaredAlong cat p.declared.unwrap.1 names
  | _, _ => none

/-- The type with which the property at the end of a path is declared. -/
def declared? (cat : Catalogue) (type : TypeExpr) (path : String) : Option TypeExpr :=
  cat.declaredAlong type (pathNames path)

variable {cat : Catalogue}

theorem type_declaredAlong {type : TypeExpr} {names : List String} (hnames : names ≠ []) :
    ((cat.walk type names).bind fun ps => ps.getLast?.map EntityProperty.type) =
      (cat.declaredAlong type names).map fun t => t.unwrap.1 := by
  induction names generalizing type with
  | nil => exact absurd rfl hnames
  | cons name names ih =>
    cases type with
    | named n =>
      rw [walk, declaredAlong, entity?]
      cases cat.model? n with
      | none => rfl
      | some m =>
        have hproperty : (cat.entityOf (.named n) m).property? name =
            (m.properties.find? (·.name == name)).map EntityProperty.ofProperty := by
          rw [Entity.property?, entityOf, List.find?_map]
          rfl
        simp only [Option.map_some, Option.bind_eq_bind, Option.bind_some, hproperty]
        cases m.properties.find? (·.name == name) with
        | none => rfl
        | some p =>
          cases names with
          | nil => rfl
          | cons name' names =>
            have hrest := @ih p.declared.unwrap.1 (List.cons_ne_nil name' names)
            rw [← EntityProperty.ofProperty_type] at hrest
            simp only [Option.map_some, Option.bind_some, List.isEmpty_cons, Bool.false_eq_true,
              if_false, ← EntityProperty.ofProperty_type]
            rw [← hrest]
            cases hw : cat.walk (EntityProperty.ofProperty p).type (name' :: names) with
            | none => rfl
            | some ps =>
              -- the walk has met a property for each name, so the last one is among the rest
              obtain ⟨_, _, _, _, -, -, -, -, rfl⟩ := walk_cons hw
              simp [List.getLast?_cons_cons]
    | _ => rfl

/-- A query sees of the declared type what is inside its wrappers. -/
theorem fieldType?_eq_map (type : TypeExpr) (path : String) :
    cat.fieldType? type path = (cat.declared? type path).map fun t => t.unwrap.1 := by
  rw [declared?, ← type_declaredAlong (pathNames_ne_nil path)]
  rfl

end Catalogue

end SearchWire
