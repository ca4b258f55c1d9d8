import SearchWire.Proofs.Request.Remake

/-!
# Fields that are taken as they are

A request may be made from fields that are of the shapes it asks for already, each under the name of
a property. Then it has these fields and no others: a field that is `null` is left out, and every
other one has the value that it was given.

* `Fields.get?_given`: reading among those fields that are set.
* `Shape.Admits.wireForm_eq`: texts, numbers, truth values and lists of them are their own wire
  forms.
* `Request.field_of_admits`: what a property takes.
* `Request.fields_of_optional`, `Request.fields_of_admits`: **the fields of the request.**
-/

namespace SearchWire

/-! ## Fields that are set -/

/-- A field that is `null` reads like one that is not there. -/
theorem Fields.get?_given {fs : Fields} (h : fs.names.Nodup) (name : String) :
    ((given fs).get? name).getD .null = (fs.get? name).getD .null := by
  rw [given_eq_filter]
  induction fs with
  | nil => rfl
  | cons f fs ih =>
    rw [names, List.map_cons, List.nodup_cons] at h
    have hrest := ih h.2
    rw [List.filter_cons]
    cases hnull : f.2.isNull with
    | false =>
      simp only [Bool.not_false, if_true]
      rw [get?_cons, get?_cons]
      split
      · rfl
      · exact hrest
    | true =>
      simp only [Bool.not_true, Bool.false_eq_true, if_false]
      rw [hrest, get?_cons]
      split
      · next hname =>
        -- the name is that of a `null` alone
        have hnew : name ∉ names fs := hname ▸ h.1
        rw [get?_of_not_mem hnew, Value.eq_null_of_isNull hnull]
        rfl
      · rfl

/-! ## Values without objects -/

/-- Shapes of texts, numbers, truth values and lists of them. -/
def Shape.isFlat : Shape → Bool
  | .sequence .list item 0 => isFlat item
  | .optional inner => isFlat inner
  | .anyOf [s, t] => s.isAtom && t.isAtom
  | s => s.isAtom

/-- Values of such shapes are their own wire forms. -/
theorem Shape.Admits.wireForm_eq {s : Shape} {v : Value} (h : s.Admits v) (hs : s.isFlat) :
    v.wireForm = v := by
  have hatom : ∀ {s : Shape} {v : Value}, s.Admits v → s.isAtom → v.wireForm = v := by
    intro s v h hs
    cases h <;> first | rfl | cases hs
  induction h with
  | any => cases hs
  | text => rfl
  | flag => rfl
  | whole => rfl
  | decimal => rfl
  | list h ih => exact Value.wireForm_list_of fun x hx => ih x hx hs
  | object => cases hs
  | null => rfl
  | given h ih => exact ih hs
  | first hchoice h => exact hatom h (isChoice_cases hchoice).1
  | second hchoice h =>
    rw [isFlat, Bool.and_eq_true] at hs
    exact hatom h hs.2

/-! ## Requests -/

namespace Request

variable {kind : RequestKind} {fields : Fields} {r : Request} {p : Property}

/-- The name of a property is one under which it looks for a field, and no other one is the name of
a property. -/
theorem name_mem_keys (kind : RequestKind) : ∀ p ∈ kind.properties, p.name ∈ p.keys ∧
    ∀ key ∈ p.keys, key ≠ p.name → key ∉ kind.properties.map Property.name := by
  cases kind <;> decide

theorem findSome?_of_unique {α β : Type} {f : α → Option β} {xs : List α} {x : α} (hx : x ∈ xs)
    (h : ∀ y ∈ xs, y ≠ x → f y = none) : xs.findSome? f = f x := by
  induction xs with
  | nil => cases hx
  | cons y ys ih =>
    obtain ⟨hy, hys⟩ := List.forall_mem_cons.1 h
    rw [List.findSome?_cons]
    by_cases heq : y = x
    · rw [heq]
      cases hfx : f x with
      | some b => rfl
      | none =>
        rw [List.findSome?_eq_none_iff]
        intro z hz
        by_cases hzx : z = x
        · rw [hzx, hfx]
        · exact hys z hz hzx
    · rw [hy heq]
      exact ih ((List.mem_cons.1 hx).resolve_left (Ne.symm heq)) hys

/-- What a property takes from fields under the names of properties, if that is of its shape. -/
theorem field_of_admits (hnames : ∀ n ∈ fields.names, n ∈ kind.properties.map Property.name)
    (hp : p ∈ kind.properties) (hadmits : p.shape.Admits ((fields.get? p.name).getD .null))
    (h : make kind fields = .ok r) : r.field p.name = (fields.get? p.name).getD .null := by
  obtain ⟨hkey, hothers⟩ := name_mem_keys kind p hp
  have hfind : (p.keys.findSome? fun key => (fields.get? key).map fun v =>
      (key, check ⟨[kind.model], []⟩ v)) =
        (fields.get? p.name).map fun v => (p.name, check ⟨[kind.model], []⟩ v) := by
    apply findSome?_of_unique hkey
    intro key hmem hne
    have hnew : key ∉ fields.names := fun hname => hothers key hmem hne (hnames key hname)
    rw [Fields.get?_of_not_mem hnew]
    rfl
  rw [field_eq_taken hp h, taken, checkProperty, given, findGiven_entries, hfind]
  cases hget : fields.get? p.name with
  | none =>
    rw [hget, Option.getD_none] at hadmits
    rw [Property.default_of_null (isWire_properties kind p hp) hadmits]
    rfl
  | some v =>
    rw [hget, Option.getD_some] at hadmits
    have hcheck : ∃ a, check ⟨[kind.model], []⟩ v p.shape = .ok a ∧ a.value = v :=
      check_of_admits hadmits
    obtain ⟨a, ha, rfl⟩ := hcheck
    simp only [Option.map_some, ha]
    rfl

/-- **The fields of the request** are those that are set among the fields it is made from, in the
order of its properties and in their wire forms. Fields that are `null` may be left out before. -/
theorem fields_of_optional (first : Fields) {optional : Fields}
    (hfull : (first ++ optional).names.Nodup)
    (hnames : ∀ n ∈ (first ++ optional).names, n ∈ kind.properties.map Property.name)
    (hadmits : ∀ p ∈ kind.properties,
      p.shape.Admits (((first ++ optional).get? p.name).getD .null))
    (h : make kind (first ++ optional.given) = .ok r) :
    r.fields = Fields.given (kind.properties.map fun p =>
      (p.wire, (((first ++ optional).get? p.name).getD .null).wireForm)) := by
  have hget : ∀ name, ((first ++ optional.given).get? name).getD .null =
      ((first ++ optional).get? name).getD .null := by
    intro name
    rw [Fields.names_append] at hfull
    rw [Fields.get?_append, Fields.get?_append]
    cases first.get? name with
    | some v => rfl
    | none => exact Fields.get?_given hfull.of_append_right name
  have hgiven : ∀ n ∈ (first ++ optional.given).names, n ∈ kind.properties.map Property.name := by
    intro n hn
    refine hnames n ?_
    rw [Fields.names_append, List.mem_append] at hn ⊢
    exact hn.imp id fun hmem => optional.names_given_sublist.subset hmem
  rw [fields_eq_given h]
  congr 1
  apply List.map_congr_left
  intro p hp
  rw [field_of_admits hgiven hp (by rw [hget]; exact hadmits p hp) h, hget]

theorem fields_of_admits {full : Fields} (hfull : full.names.Nodup)
    (hnames : ∀ n ∈ full.names, n ∈ kind.properties.map Property.name)
    (hadmits : ∀ p ∈ kind.properties, p.shape.Admits ((full.get? p.name).getD .null))
    (h : make kind full.given = .ok r) :
    r.fields = Fields.given (kind.properties.map fun p =>
      (p.wire, ((full.get? p.name).getD .null).wireForm)) :=
  fields_of_optional [] hfull hnames hadmits h

end Request

end SearchWire
