import SearchWire.Proofs.Clause.Truth

/-!
# Clauses within clauses

A clause, written as an object, is walked through from the outside to the inside: a boolean clause
before the clauses in `must`, those before the ones in `must_not`, and those before the ones in
`should`, each list in its order. The clauses that are met and are no boolean ones are its atoms.

* `Value.walk`, `Value.atoms`: the clauses that are met, and the atoms among them.
* `Clause.atoms_boolean`: the atoms of a boolean clause.
* `Value.Orderly`: the parts of a boolean clause with lists that are not empty, and with a number of
  alternatives if and only if there are some.
* `Clause.Regular.orderly`: **in a clause that is put together from regular ones, every boolean
  clause is orderly.**
-/

namespace SearchWire

namespace Value

def isBoolean : Value → Bool
  | .dict [(.str "bool", .dict _)] => true
  | _ => false

mutual

/-- The clauses that are met in a clause, itself first. -/
def walk : Value → List Value
  | .dict [(.str "bool", .dict parts)] =>
    .dict [(.str "bool", .dict parts)] ::
      (walkPart "must" parts ++ walkPart "must_not" parts ++ walkPart "should" parts)
  | v => [v]

/-- The clauses that are met in the parts with a name. One clause alone needs no list. -/
def walkPart (name : String) : Entries → List Value
  | [] => []
  | (.str n, .list vs) :: parts =>
    (if n = name then walkAll vs else []) ++ walkPart name parts
  | (.str n, v) :: parts => (if n = name then walk v else []) ++ walkPart name parts
  | _ :: parts => walkPart name parts

def walkAll : List Value → List Value
  | [] => []
  | v :: vs => walk v ++ walkAll vs

end

/-- The clauses that are met and are no boolean ones. -/
def atoms (v : Value) : List Value := v.walk.filter fun w => !w.isBoolean

/-- The parts of a boolean clause are as they should be: each list that is there holds clauses, one
of the lists is there, and the number of alternatives that have to hold is there, and is one,
exactly when there are alternatives. -/
structure Orderly (parts : Entries) : Prop where
  lists : ∀ name ∈ ["must", "must_not", "should"], ∀ v, findEntry? parts name = some v →
    ∃ c cs, v = .list (c :: cs)
  some_list : ∃ name ∈ ["must", "must_not", "should"], ∃ v, findEntry? parts name = some v
  number : findEntry? parts "minimum_should_match" =
    (Option.map (fun _ => Value.int 1) <| findEntry? parts "should")

theorem walk_of_not_boolean {v : Value} (h : v.isBoolean = false) : v.walk = [v] := by
  unfold walk
  split
  · cases h
  · rfl

theorem walkPart_append (name : String) (ps qs : Entries) :
    walkPart name (ps ++ qs) = walkPart name ps ++ walkPart name qs := by
  induction ps with
  | nil => simp [walkPart]
  | cons p ps ih =>
    obtain ⟨k, v⟩ := p
    cases k with
    | str n => cases v <;> simp [walkPart, ih]
    | _ => simp [walkPart, ih]

/-- Nothing is met in a part with another name. -/
theorem walkPart_other {n name : String} (h : n ≠ name) (v : Value) :
    walkPart name [(.str n, v)] = [] := by
  cases v <;> simp [walkPart, h]

end Value

namespace Clause

open Value

/-- The clauses that are met in a clause. -/
def walk (c : Clause) : List Value := c.toValue.walk

def atoms (c : Clause) : List Value := c.toValue.atoms

theorem walkAll_toValues (cs : List Clause) : walkAll (toValues cs) = cs.flatMap walk := by
  induction cs with
  | nil => rfl
  | cons c cs ih => rw [toValues, walkAll, ih, List.flatMap_cons, walk]

theorem walkPart_listField (name n : String) (cs : List Clause) :
    walkPart name (Fields.entries (listField n (toValues cs))) =
      if n = name then cs.flatMap walk else [] := by
  cases cs with
  | nil => simp [listField, toValues, Fields.entries, walkPart]
  | cons c cs =>
    rw [← walkAll_toValues, toValues]
    simp [listField, Fields.entries, walkPart]

theorem walkPart_shouldFields {name : String} (h : "minimum_should_match" ≠ name)
    (cs : List Clause) :
    walkPart name (Fields.entries (shouldFields (toValues cs))) =
      if "should" = name then cs.flatMap walk else [] := by
  cases cs with
  | nil => simp [shouldFields, toValues, Fields.entries, walkPart]
  | cons c cs =>
    rw [← walkAll_toValues, toValues]
    simp [shouldFields, Fields.entries, walkPart, h]

/-- The weight of a boolean clause holds no clauses. -/
theorem walkPart_boost {name : String} (h : "boost" ≠ name) (boost : Value) :
    walkPart name (Fields.entries (Fields.given [("boost", boost)])) = [] := by
  have hother := walkPart_other h boost
  cases boost with
  | null => rfl
  | _ => exact hother

/-- **The clauses that are met in a boolean clause**: itself, and the ones that are met in what must
hold, in what must not, and in the alternatives. -/
theorem walk_boolean (must mustNot should : List Clause) (boost : Value) :
    walk (.boolean must mustNot should boost) =
      (boolean must mustNot should boost).toValue ::
        (must.flatMap walk ++ mustNot.flatMap walk ++ should.flatMap walk) := by
  have hvalue : (boolean must mustNot should boost).toValue =
      .dict [(.str "bool", .dict (Fields.entries (parts must mustNot should boost)))] := rfl
  have hmust := walkPart_boost (show "boost" ≠ "must" by decide) boost
  have hnot := walkPart_boost (show "boost" ≠ "must_not" by decide) boost
  have hshould := walkPart_boost (show "boost" ≠ "should" by decide) boost
  rw [walk, hvalue, Value.walk, parts_eq]
  simp only [Fields.entries_append, walkPart_append, walkPart_listField, hmust, hnot, hshould]
  rw [walkPart_shouldFields (by decide), walkPart_shouldFields (by decide),
    walkPart_shouldFields (by decide)]
  simp

/-- **The atoms of a boolean clause** are those of what must hold, of what must not, and of the
alternatives. -/
theorem atoms_boolean (must mustNot should : List Clause) (boost : Value) :
    atoms (.boolean must mustNot should boost) =
      must.flatMap atoms ++ mustNot.flatMap atoms ++ should.flatMap atoms := by
  have hflat : ∀ cs : List Clause, (cs.flatMap walk).filter (fun w => !w.isBoolean) =
      cs.flatMap atoms := by
    intro cs
    rw [List.filter_flatMap]
    rfl
  have hself : (boolean must mustNot should boost).toValue.isBoolean = true := rfl
  have hwalk := walk_boolean must mustNot should boost
  rw [walk] at hwalk
  rw [atoms, Value.atoms, hwalk, List.filter_cons_of_neg (by simp [hself])]
  rw [List.filter_append, List.filter_append, hflat, hflat, hflat]

/-! ## Orderly parts -/

/-- A clause of which no part is left empty: a boolean clause has clauses in it, and no other kind
of clause is called one. -/
inductive Regular : Clause → Prop where
  | matchAll : Regular .matchAll
  | atom {kind : String} (body : Fields) (hkind : kind ≠ "bool") : Regular (.atom kind body)
  | boolean {must mustNot should : List Clause} (boost : Value)
      (hne : must ++ mustNot ++ should ≠ []) (h : ∀ c ∈ must ++ mustNot ++ should, Regular c) :
      Regular (.boolean must mustNot should boost)

/-- Clauses as a part of a boolean clause, unless there are none. -/
def part? : List Clause → Option Value
  | [] => none
  | c :: cs => some (.list (toValues (c :: cs)))

theorem get?_listField (name : String) (cs : List Clause) (key : String) :
    Fields.get? (listField name (toValues cs)) key = if key = name then part? cs else none := by
  cases cs with
  | nil => exact (ite_self none).symm
  | cons c cs => exact Fields.get?_cons (name, .list (toValues (c :: cs))) [] key

theorem get?_shouldFields (cs : List Clause) (key : String) :
    Fields.get? (shouldFields (toValues cs)) key =
      if key = "should" then part? cs
      else if key = "minimum_should_match" then (part? cs).map fun _ => .int 1
      else none := by
  cases cs with
  | nil =>
    have hnone : Fields.get? (shouldFields (toValues [])) key = none := rfl
    simp [hnone, part?]
  | cons c cs =>
    have hfields : shouldFields (toValues (c :: cs)) =
        [("should", .list (toValues (c :: cs))), ("minimum_should_match", .int 1)] := rfl
    rw [hfields, Fields.get?_cons, Fields.get?_cons]
    rfl

/-- What a boolean clause has under a key, its weight apart. -/
theorem findEntry?_parts (must mustNot should : List Clause) (boost : Value) {key : String}
    (hkey : key ≠ "boost") :
    findEntry? (Fields.entries (parts must mustNot should boost)) key =
      (((if key = "must" then part? must else none).or
        (if key = "must_not" then part? mustNot else none)).or
        (if key = "should" then part? should
          else if key = "minimum_should_match" then (part? should).map fun _ => .int 1
          else none)) := by
  have hboost : Fields.get? (Fields.given [("boost", boost)]) key = none := by
    have hget : Fields.get? [("boost", boost)] key = none := by
      rw [Fields.get?_cons, if_neg hkey]
      rfl
    cases boost <;> first | rfl | exact hget
  rw [Fields.findEntry?_entries, parts_eq, Fields.get?_append, Fields.get?_append,
    Fields.get?_append, get?_listField, get?_listField, get?_shouldFields, hboost, Option.or_none]

theorem exists_of_part? {cs : List Clause} {v : Value} (h : part? cs = some v) :
    ∃ d ds, v = .list (d :: ds) := by
  cases cs with
  | nil => cases h
  | cons c cs =>
    cases h
    exact ⟨c.toValue, toValues cs, by rw [toValues]⟩

theorem exists_part? {cs : List Clause} (h : cs ≠ []) : ∃ v, part? cs = some v := by
  cases cs with
  | nil => exact absurd rfl h
  | cons c cs => exact ⟨_, rfl⟩

theorem orderly_parts {must mustNot should : List Clause} (boost : Value)
    (hne : must ++ mustNot ++ should ≠ []) :
    Orderly (Fields.entries (parts must mustNot should boost)) := by
  have hfind := fun {key : String} => @findEntry?_parts must mustNot should boost key
  have hmust : findEntry? (Fields.entries (parts must mustNot should boost)) "must" =
      part? must := by
    rw [hfind (by decide)]
    simp
  have hnot : findEntry? (Fields.entries (parts must mustNot should boost)) "must_not" =
      part? mustNot := by
    rw [hfind (by decide)]
    simp
  have hshould : findEntry? (Fields.entries (parts must mustNot should boost)) "should" =
      part? should := by
    rw [hfind (by decide)]
    simp
  constructor
  · intro name hname v hv
    simp only [List.mem_cons, List.not_mem_nil, or_false] at hname
    rcases hname with rfl | rfl | rfl
    · exact exists_of_part? (hmust.symm.trans hv)
    · exact exists_of_part? (hnot.symm.trans hv)
    · exact exists_of_part? (hshould.symm.trans hv)
  · by_cases h : must = []
    · by_cases h' : mustNot = []
      · have h'' : should ≠ [] := by simpa [h, h'] using hne
        exact ⟨"should", by simp, hshould ▸ exists_part? h''⟩
      · exact ⟨"must_not", by simp, hnot ▸ exists_part? h'⟩
    · exact ⟨"must", by simp, hmust ▸ exists_part? h⟩
  · rw [hshould, hfind (by decide)]
    simp

/-- **Every boolean clause within a regular clause is orderly.** -/
theorem Regular.orderly {c : Clause} (h : Regular c) :
    ∀ {ps : Entries}, .dict [(.str "bool", .dict ps)] ∈ c.walk → Orderly ps := by
  induction h with
  | matchAll =>
    intro ps hps
    have hwalk : walk .matchAll = [Clause.matchAll.toValue] := walk_of_not_boolean rfl
    rw [hwalk, List.mem_singleton] at hps
    simp [toValue, object] at hps
  | @atom kind body hkind =>
    intro ps hps
    have hplain : (Clause.atom kind body).toValue.isBoolean = false := by
      unfold isBoolean
      split
      · next h =>
        simp only [toValue, object, List.map_cons, List.map_nil, Value.dict.injEq,
          List.cons.injEq, Prod.mk.injEq, Value.str.injEq] at h
        exact absurd h.1.1 hkind
      · rfl
    rw [walk, walk_of_not_boolean hplain, List.mem_singleton] at hps
    rw [← hps] at hplain
    cases hplain
  | @boolean must mustNot should boost hne hcs ih =>
    intro ps hps
    rw [walk_boolean, List.mem_cons] at hps
    rcases hps with hself | hinner
    · have hvalue : (Clause.boolean must mustNot should boost).toValue =
          .dict [(.str "bool", .dict (Fields.entries (parts must mustNot should boost)))] := rfl
      rw [hvalue] at hself
      simp only [Value.dict.injEq, List.cons.injEq, Prod.mk.injEq, true_and, and_true] at hself
      rw [hself]
      exact orderly_parts boost hne
    · rw [← List.flatMap_append, ← List.flatMap_append, List.mem_flatMap] at hinner
      obtain ⟨d, hd, hps⟩ := hinner
      exact ih d hd hps

end Clause

end SearchWire
