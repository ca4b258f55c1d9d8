import Mathlib.Data.List.Nodup
import SearchWire.Proofs.Request.Params
import SearchWire.Proofs.Schema.Wire

/-!
# Requests that are made again

The fields of a request are those that a request can be made from: each is found by its property and
taken as it is, and a property that has no field takes nothing.

* `Property.isWire`: the properties of requests.
* `Request.admits_field`: what a request has as the value of a property is of its shape.
* `Request.checkProperty_fields`: **a property takes its field again.**
* `Request.exists_remake`: **a request is made again from its fields.**
-/

namespace SearchWire

/-- Shapes that `null` is of. -/
def Shape.takesNull : Shape → Bool
  | .any => true
  | .optional _ => true
  | _ => false

/-- A property has a shape of requests. It may be left out if `null` is of this shape, and is `null`
then. -/
def Property.isWire (p : Property) : Bool :=
  p.shape.isWire &&
    match p.default with
    | some v => v.isNull && p.shape.takesNull
    | none => !p.shape.takesNull

theorem Value.eq_null_of_isNull {v : Value} (h : v.isNull) : v = .null := by
  cases v <;> first | rfl | cases h

theorem Shape.Admits.takesNull {s : Shape} (h : s.Admits .null) : s.takesNull := by
  cases h with
  | any => rfl
  | null => rfl
  | given h => rfl
  | first hchoice h =>
    have hatom := (isChoice_cases hchoice).1
    cases h <;> cases hatom
  | second hchoice h =>
    rcases (isChoice_cases hchoice).2 with hatom | ⟨-, rfl⟩
    · cases h <;> cases hatom
    · obtain ⟨fs, -, heq⟩ := admits_object.mp h
      cases heq

namespace Property

variable {p : Property}

theorem isWire_shape (h : p.isWire) : p.shape.isWire := by
  rw [isWire, Bool.and_eq_true] at h
  exact h.1

theorem admits_default (h : p.isWire) {v : Value} (hv : p.default = some v) : p.shape.Admits v := by
  rw [isWire, hv, Bool.and_eq_true, Bool.and_eq_true] at h
  obtain ⟨-, hnull, htakes⟩ := h
  rw [Value.eq_null_of_isNull hnull]
  unfold Shape.takesNull at htakes
  split at htakes
  · next heq => exact heq ▸ .any _
  · next inner heq => exact heq ▸ .null inner
  · cases htakes

/-- What may be `null` may be left out. -/
theorem default_of_null (h : p.isWire) (hnull : p.shape.Admits .null) : p.default = some .null := by
  rw [isWire, Bool.and_eq_true] at h
  have htakes := hnull.takesNull
  cases hdefault : p.default with
  | none => simp [hdefault, htakes] at h
  | some v =>
    simp only [hdefault, Bool.and_eq_true] at h
    rw [Value.eq_null_of_isNull h.2.1]

end Property

namespace Request

variable {kind : RequestKind} {fields : Fields} {r : Request} {p : Property}

theorem isWire_properties (kind : RequestKind) : ∀ p ∈ kind.properties, p.isWire := by
  cases kind <;> decide

/-- A property looks for its name in documents first; the other names that it may have in data are
names of no fields. -/
theorem keys_properties (kind : RequestKind) : ∀ p ∈ kind.properties,
    p.keys = p.wire :: p.keys.tail ∧
      ∀ key ∈ p.keys.tail, key ∉ kind.properties.map Property.wire := by
  cases kind <;> decide

/-- What a request has as the value of a property is of its shape. -/
theorem admits_field (hp : p ∈ kind.properties) (h : make kind fields = .ok r) :
    p.shape.Admits (r.field p.name) := by
  have hwire := isWire_properties kind p hp
  rw [field_eq_taken hp h]
  rcases taken_cases hp h with ⟨v, a, ha, heq⟩ | hdefault
  · exact heq ▸ admits_of_check (Property.isWire_shape hwire) ha
  · exact Property.admits_default hwire hdefault

theorem get?_fields_of_null (hp : p ∈ kind.properties) (h : make kind fields = .ok r)
    (hnull : (r.field p.name).isNull) {key : String} (hkey : key ∈ p.keys) :
    r.fields.get? key = none := by
  obtain ⟨hkeys, htail⟩ := keys_properties kind p hp
  apply Fields.get?_of_not_mem
  rw [fields_make h, Fields.names, List.map_map]
  intro hmem
  obtain ⟨q, hq, hname⟩ := List.mem_map.mp hmem
  obtain ⟨hq, hset⟩ := List.mem_filter.mp hq
  have hwire : q.wire = key := hname
  rw [hkeys, List.mem_cons] at hkey
  rcases hkey with rfl | hkey
  · -- only one property has this name in documents
    have heq : q = p := List.inj_on_of_nodup_map (wires_nodup kind) hq hp hwire
    rw [heq, ← field_eq_taken hp h, hnull] at hset
    cases hset
  · exact htail key hkey (List.mem_map.mpr ⟨q, hq, hwire⟩)

/-- **A property takes its field again.** -/
theorem checkProperty_fields (hp : p ∈ kind.properties) (h : make kind fields = .ok r) :
    ∃ a, checkProperty p (given kind r.fields) = .ok a ∧ a.value = (r.field p.name).wireForm := by
  have hadmits := (admits_field hp h).wireForm
  rw [checkProperty, given, findGiven_entries]
  -- a value that is nothing is not among the fields, so that its default is taken again
  by_cases hnull : (r.field p.name).isNull
  · have hnone : (p.keys.findSome? fun key => (r.fields.get? key).map fun v =>
        (key, check ⟨[kind.model], []⟩ v)) = none := by
      rw [List.findSome?_eq_none_iff]
      intro key hkey
      rw [get?_fields_of_null hp h hnull hkey, Option.map_none]
    have hfield := Value.eq_null_of_isNull hnull
    rw [hfield] at hadmits ⊢
    rw [hnone, Property.default_of_null (isWire_properties kind p hp) hadmits]
    exact ⟨_, rfl, rfl⟩
  · have hset : (taken kind fields p).isNull = false := by
      rw [← field_eq_taken hp h]
      simpa using hnull
    obtain ⟨a, ha, hvalue⟩ : ∃ a, check ⟨[kind.model], []⟩ (r.field p.name).wireForm p.shape =
        .ok a ∧ a.value = (r.field p.name).wireForm := check_of_admits hadmits
    rw [(keys_properties kind p hp).1, List.findSome?_cons, get?_fields hp h hset,
      ← field_eq_taken hp h]
    exact ⟨a, under_eq_ok.mpr ha, hvalue⟩

/-- **A request is made again from its fields**, with every value in its wire form. -/
theorem exists_remake (h : make kind fields = .ok r) :
    ∃ r', make kind r.fields = .ok r' ∧ r'.fields = r.fields ∧
      ∀ p ∈ kind.properties, r'.field p.name = (r.field p.name).wireForm := by
  have hchecked : ∀ p ∈ kind.properties, ∃ a, checkProperty p (given kind r.fields) = .ok a :=
    fun p hp => (checkProperty_fields hp h).imp fun a ha => ha.1
  obtain ⟨r', hr'⟩ : ∃ r', make kind r.fields = .ok r' := ⟨_, make_eq_ok.mpr ⟨hchecked, rfl⟩⟩
  have hfield : ∀ p ∈ kind.properties, r'.field p.name = (r.field p.name).wireForm := by
    intro p hp
    obtain ⟨a, ha, hvalue⟩ := checkProperty_fields hp h
    rw [field_eq_taken hp hr', taken, ha]
    exact hvalue
  refine ⟨r', hr', ?_, hfield⟩
  rw [fields_eq_given hr', fields_eq_given h]
  congr 1
  apply List.map_congr_left
  intro p hp
  rw [hfield p hp, Value.wireForm_wireForm]

end Request

end SearchWire
