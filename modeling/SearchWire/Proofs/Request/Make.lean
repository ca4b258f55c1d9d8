import SearchWire.Proofs.Failure
import SearchWire.Proofs.Schema.Check
import SearchWire.Request.Basic
import SearchWire.Request.Timeout

/-!
# Making requests

A request is made from its fields property by property: each takes the field that has one of its
names, or its default. So a request is known once it is known what each property takes, and a field
concerns the properties that have its name and no others.

* `Request.taken`: what a property takes.
* `Request.make_eq_ok`: **a request is made if every property takes a value, and from these.**
* `Request.fields_make`: its fields by their document names.
* `Request.field_make`: what a request has as the value of a property.
* `Request.taken_insert`: a field with another name does not matter to a property.
* `Request.make_without`, `Request.make_with`: **a field that is left out** where a property may be
  missing, and one that is put in.
* `not_mem_timeField`: the field for a timeout has its own name.
-/

namespace SearchWire

namespace Value

/-- The properties that are set and shown, in order. -/
theorem wireSlots_eq (shows : String → Bool) (slots : List (Slot Value)) :
    wireSlots shows slots = (slots.filter fun s => !s.value.isNull && shows s.name).map fun s =>
      (s.wire, s.value.wireForm) := by
  induction slots with
  | nil => rfl
  | cons s slots ih =>
    rw [wireSlots, ih, List.filter_cons]
    cases s.value.isNull <;> cases shows s.name <;> rfl

end Value

/-- The field for a timeout has its own name. -/
theorem not_mem_timeField {m name : String} {v : Value} {fs : Fields} (h : m ≠ name)
    (hfs : timeField name v = .ok fs) : m ∉ fs.names := by
  unfold timeField at hfs
  split at hfs
  · cases hfs
    simp [Fields.names]
  · obtain ⟨text, -, hfs⟩ := bind_eq_ok.1 hfs
    cases hfs
    simp [Fields.names, h]

namespace Request

/-- What checks the fields of a request, as its properties look for them. -/
def given (kind : RequestKind) (fields : Fields) : Parts :=
  ⟨[], checkEntries ⟨[kind.model], []⟩ fields.entries⟩

/-- The value that a property takes from the fields of a request. -/
def taken (kind : RequestKind) (fields : Fields) (p : Property) : Value :=
  valueOf (checkProperty p (given kind fields))

/-- **A request is made from what its properties take**, if each takes a value: kinds of requests
have no rules. -/
theorem make_eq_ok {kind : RequestKind} {fields : Fields} {r : Request} :
    make kind fields = .ok r ↔
      (∀ p ∈ kind.properties, ∃ a, checkProperty p (given kind fields) = .ok a) ∧
        r = ⟨kind, kind.properties.map fun p => ⟨p.name, p.wire, taken kind fields p⟩⟩ := by
  have hmodel : Catalogue.model? ⟨[kind.model], []⟩ kind.name = some kind.model := by
    simp [Catalogue.model?, RequestKind.model, Model.plain]
  constructor
  · intro h
    obtain ⟨v, hv, h⟩ := bind_eq_ok.1 h
    obtain ⟨m, a, hm, ha, rfl⟩ := build_eq_ok.1 hv
    cases hmodel.symm.trans hm
    obtain ⟨hok, hvalue⟩ := buildRecord_ok ha
    rw [hvalue, recordOf] at h
    cases h
    exact ⟨hok, rfl⟩
  · rintro ⟨hok, rfl⟩
    obtain ⟨a, ha⟩ := exists_buildRecord (m := kind.model) (fun _ => rfl) hok
    have hvalue := (buildRecord_ok ha).2
    exact bind_eq_ok.2 ⟨_, build_eq_ok.2 ⟨kind.model, a, hmodel, ha, hvalue⟩, rfl⟩

/-- Each property has a name of its own in documents. -/
theorem wires_nodup (kind : RequestKind) : (kind.properties.map Property.wire).Nodup := by
  cases kind <;> decide

/-- The fields of a request by their document names: those of the properties that took a value. -/
theorem fields_make {kind : RequestKind} {fields : Fields} {r : Request}
    (h : make kind fields = .ok r) :
    r.fields = (kind.properties.filter fun p => !(taken kind fields p).isNull).map fun p =>
      (p.wire, (taken kind fields p).wireForm) := by
  obtain ⟨-, rfl⟩ := make_eq_ok.1 h
  have hsub := (List.filter_sublist (p := fun p => !(taken kind fields p).isNull)
    (l := kind.properties)).map Property.wire
  rw [Request.fields, Value.wireSlots_eq, List.filter_map, List.map_map]
  simp only [Bool.and_true, Function.comp_def]
  apply Fields.ofList_of_nodup
  rw [Fields.names, List.map_map]
  exact hsub.nodup (wires_nodup kind)

/-! ## One field more -/

variable {fields before after : Fields} {name : String} {v : Value}

theorem findGiven_insert (kind : RequestKind) {keys : List String} (h : name ∉ keys) :
    findGiven keys (given kind (before ++ (name, v) :: after)) =
      findGiven keys (given kind (before ++ after)) := by
  rw [given, given, findGiven_entries, findGiven_entries]
  induction keys with
  | nil => rfl
  | cons key keys ih =>
    rw [List.mem_cons, not_or] at h
    rw [List.findSome?_cons, List.findSome?_cons, Fields.get?_insert (Ne.symm h.1), ih h.2]

/-- A field with another name does not matter to a property. -/
theorem checkProperty_insert (kind : RequestKind) {p : Property} (h : name ∉ p.keys) :
    checkProperty p (given kind (before ++ (name, v) :: after)) =
      checkProperty p (given kind (before ++ after)) := by
  rw [checkProperty, checkProperty, findGiven_insert kind h]

theorem taken_insert (kind : RequestKind) {p : Property} (h : name ∉ p.keys) :
    taken kind (before ++ (name, v) :: after) p = taken kind (before ++ after) p := by
  rw [taken, taken, checkProperty_insert kind h]

/-- An optional property that finds no field takes `null`. -/
theorem checkProperty_missing (kind : RequestKind) (shape : Shape) (h : name ∉ fields.names) :
    checkProperty (.optional name shape) (given kind fields) = Verdict.exact .null := by
  rw [checkProperty, given, findGiven_entries]
  simp [Property.optional, Property.withDefault, Fields.get?_of_not_mem h]

/-- A property that has one name takes the field with this name. -/
theorem checkProperty_new (kind : RequestKind) {p : Property} (hp : p.keys = [name])
    (h : name ∉ before.names) :
    checkProperty p (given kind (before ++ (name, v) :: after)) =
      (check ⟨[kind.model], []⟩ v p.shape).under (.name name) := by
  rw [checkProperty, given, findGiven_entries, hp]
  simp [Fields.get?_new h]

theorem taken_new {a : Accepted} (kind : RequestKind) {p : Property} (hp : p.keys = [name])
    (h : name ∉ before.names) (ha : check ⟨[kind.model], []⟩ v p.shape = .ok a) :
    taken kind (before ++ (name, v) :: after) p = a.value := by
  rw [taken, checkProperty_new kind hp h, ha]
  rfl

/-- What a request has as the value of a property. -/
theorem field_make {kind : RequestKind} {p : Property} {r : Request}
    (hp : kind.properties.find? (·.name == p.name) = some p) (h : make kind fields = .ok r) :
    r.field p.name = taken kind fields p := by
  obtain ⟨-, rfl⟩ := make_eq_ok.1 h
  rw [field, Value.slotValue, List.find?_map, Option.map_map]
  have hfind : kind.properties.find? ((fun s : Slot Value => s.name == p.name) ∘
      fun p => ⟨p.name, p.wire, taken kind fields p⟩) = some p := hp
  rw [hfind]
  rfl

section Optional

variable {kind : RequestKind} {shape : Shape} {r : Request}
  (hkind : ∀ p ∈ kind.properties, p = .optional name shape ∨ name ∉ p.keys ∧ p.wire ≠ name)
include hkind

/-- **A field that is left out** where a property may be missing: the request has all its other
fields. -/
theorem make_without (hnew : name ∉ Fields.names (before ++ after))
    (h : make kind (before ++ (name, v) :: after) = .ok r) :
    ∃ r', make kind (before ++ after) = .ok r' ∧ r'.fields = r.fields.filter (·.1 != name) := by
  obtain ⟨hok, -⟩ := make_eq_ok.1 h
  have hmissing := checkProperty_missing kind shape hnew
  have hmake : make kind (before ++ after) = .ok ⟨kind, kind.properties.map fun p =>
      ⟨p.name, p.wire, taken kind (before ++ after) p⟩⟩ := by
    refine make_eq_ok.2 ⟨?_, rfl⟩
    intro p hp
    rcases hkind p hp with rfl | ⟨hkeys, -⟩
    · exact ⟨_, hmissing⟩
    · rw [← checkProperty_insert kind hkeys]
      exact hok p hp
  refine ⟨_, hmake, ?_⟩
  -- the same properties are set, but for the one that the field is for
  have hfilter : (kind.properties.filter fun p => !(taken kind (before ++ after) p).isNull) =
      kind.properties.filter fun p => p.wire != name &&
        !(taken kind (before ++ (name, v) :: after) p).isNull := by
    apply List.filter_congr
    intro p hp
    rcases hkind p hp with rfl | ⟨hkeys, hwire⟩
    · rw [taken, hmissing]
      simp [valueOf, Verdict.exact, Value.isNull, Property.optional, Property.withDefault]
    · rw [taken_insert kind hkeys]
      simp [hwire]
  rw [fields_make hmake, fields_make h, List.filter_map, List.filter_filter, hfilter]
  apply List.map_congr_left
  intro p hp
  obtain ⟨hp, hwire⟩ := List.mem_filter.1 hp
  rcases hkind p hp with rfl | ⟨hkeys, -⟩
  · simp [Property.optional, Property.withDefault] at hwire
  · rw [taken_insert kind hkeys]

/-- A field that fits may be put in where a property may be missing. -/
theorem make_with (hnew : name ∉ before.names)
    (hv : ∃ a, check ⟨[kind.model], []⟩ v (.optional shape) = .ok a)
    (h : make kind (before ++ after) = .ok r) :
    ∃ r', make kind (before ++ (name, v) :: after) = .ok r' := by
  obtain ⟨hok, -⟩ := make_eq_ok.1 h
  refine ⟨_, make_eq_ok.2 ⟨fun p hp => ?_, rfl⟩⟩
  rcases hkind p hp with rfl | ⟨hkeys, -⟩
  · rw [checkProperty_new kind rfl hnew]
    obtain ⟨a, ha⟩ := hv
    exact ⟨a, under_eq_ok.2 ha⟩
  · rw [checkProperty_insert kind hkeys]
    exact hok p hp

/-- What the request has under the name of that property is what the property takes. -/
theorem of_mem_fields_make {w : Value} (h : make kind fields = .ok r) (hw : (name, w) ∈ r.fields) :
    (taken kind fields (.optional name shape)).isNull = false ∧
      w = (taken kind fields (.optional name shape)).wireForm := by
  rw [fields_make h] at hw
  obtain ⟨p, hp, heq⟩ := List.mem_map.1 hw
  obtain ⟨hp, htaken⟩ := List.mem_filter.1 hp
  rcases hkind p hp with rfl | ⟨-, hwire⟩
  · exact ⟨by simpa using htaken, (congrArg Prod.snd heq).symm⟩
  · exact absurd (congrArg Prod.fst heq) hwire

end Optional

end Request

end SearchWire
