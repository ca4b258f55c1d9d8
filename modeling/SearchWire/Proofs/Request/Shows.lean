import SearchWire.Proofs.Request.Exact

/-!
# Parameters that show a request

What a request takes from a field of the right shape is the field, and its parameters show those of
its properties that are set. So it is enough to know the fields that a request is made from to know
what stands in its parameters, under whatever names these have.

* `Value.present?`, `Fields.present`: a value that is set, and fields that have a value.
* `Request.field_optional`, `Request.field_required`: what a property takes.
* `Request.part?_body_eq`: the part of a body for a property.
* `Request.Shows`: parameters that show some properties.
* `Request.shows_params`: **the parameters of a request.**
-/

namespace SearchWire

/-- A value that is set. -/
def Value.present? (v : Value) : Option Value := if v.isNull then none else some v

theorem Value.present?_of_ne {v : Value} (h : v ≠ .null) : v.present? = some v :=
  if_neg fun hnull => h (eq_null_of_isNull hnull)

theorem Value.present?_option {α : Type} {f : α → Value} (h : ∀ a, (f a).isNull = false)
    (v : Option α) : ((v.map f).getD .null).present? = v.map f := by
  cases v with
  | none => rfl
  | some a => exact if_neg (by simp [h a])

/-- A value that is its own wire form is so also where it may be missing. -/
theorem Value.map_wireForm_present? {v : Value} (h : v.wireForm = v) :
    v.present?.map Value.wireForm = v.present? := by
  unfold Value.present?
  split
  · rfl
  · rw [Option.map_some, h]

theorem Value.present?_wireForm (v : Value) :
    v.wireForm.present? = v.present?.map Value.wireForm := by
  unfold present?
  rw [isNull_wireForm]
  split <;> rfl

namespace Fields

/-- The fields that have a value. -/
def present (fs : List (String × Option Value)) : Fields :=
  fs.filterMap fun f => f.2.map fun v => (f.1, v)

variable {fs gs : List (String × Option Value)}

theorem present_append : present (fs ++ gs) = present fs ++ present gs := List.filterMap_append

theorem present_cons (name : String) (v : Option Value) : present ((name, v) :: fs) =
    (v.map fun w => (name, w)).toList ++ present fs := by
  cases v <;> rfl

/-- Fields that are set are those that have a value that is set. -/
theorem given_eq_present (fs : Fields) :
    fs.given = present (fs.map fun f => (f.1, f.2.present?)) := by
  rw [given_eq_filter]
  induction fs with
  | nil => rfl
  | cons f fs ih =>
    obtain ⟨name, v⟩ := f
    rw [List.filter_cons, ih, List.map_cons, present_cons, Value.present?]
    cases v.isNull <;> rfl

/-- The names of the fields that have a value are in the order of the fields. -/
theorem names_present_sublist (fs : List (String × Option Value)) :
    (present fs).names.Sublist (fs.map Prod.fst) := by
  induction fs with
  | nil => exact .slnil
  | cons f fs ih =>
    obtain ⟨name, v⟩ := f
    rw [present_cons, names_append]
    cases v with
    | none => exact ih.cons name
    | some w => exact ih.cons_cons name

/-- An object in wire form has the same fields, with their values in wire form. -/
theorem wireForm_present (fs : List (String × Option Value)) :
    (Value.object (present fs)).wireForm =
      .object (present (fs.map fun f => (f.1, f.2.map Value.wireForm))) := by
  rw [Value.wireForm_object]
  congr 1
  induction fs with
  | nil => rfl
  | cons f fs ih =>
    obtain ⟨name, v⟩ := f
    rw [List.map_cons, present_cons, present_cons, List.map_append, ih]
    cases v <;> rfl

/-- Fields whose values are their own wire forms. -/
theorem wireForm_present_of {fs : List (String × Option Value)}
    (h : ∀ f ∈ fs, f.2.map Value.wireForm = f.2) :
    (Value.object (present fs)).wireForm = .object (present fs) := by
  have hsame : (fs.map fun f => (f.1, f.2.map Value.wireForm)) = fs.map id :=
    List.map_congr_left fun f hf => by rw [h f hf]; rfl
  rw [wireForm_present, hsame, List.map_id]

/-- Which fields have a value does not depend on which fields are looked at. -/
theorem filter_present (keep : String → Bool) (fs : List (String × Option Value)) :
    (present fs).filter (fun f => keep f.1) = present (fs.filter fun f => keep f.1) := by
  induction fs with
  | nil => rfl
  | cons f fs ih =>
    obtain ⟨name, v⟩ := f
    rw [present_cons, List.filter_append, ih, List.filter_cons]
    cases hkeep : keep name with
    | false => cases v <;> simp [hkeep]
    | true => cases v <;> simp [hkeep, present_cons]

/-- An object of fields with distinct names, each with a value or without one. -/
theorem isObject_present {fs : List (String × Option Value)} (h : (fs.map Prod.fst).Nodup) :
    (Value.object (present fs)).IsObject :=
  ⟨_, (names_present_sublist fs).nodup h, rfl⟩

end Fields

theorem Fields.get?_given_eq {fs : Fields} (h : fs.names.Nodup) (name : String) :
    fs.given.get? name = ((fs.get? name).getD .null).present? := by
  have hread := get?_given h name
  cases hget : fs.given.get? name with
  | none =>
    rw [hget, Option.getD_none] at hread
    rw [← hread]
    rfl
  | some v =>
    have hset : v ≠ .null := by
      have hmem := mem_of_get? hget
      rw [given_eq_filter] at hmem
      rintro rfl
      exact absurd (List.mem_filter.1 hmem).2 nofun
    rw [hget, Option.getD_some] at hread
    rw [← hread, Value.present?_of_ne hset]

/-! ## What requests are made from -/

namespace Request

variable {kind : RequestKind} {fields : Fields} {r : Request} {name : String} {shape : Shape}

/-- What an optional property takes from the field with its name, if that is of its shape. -/
theorem field_optional {v : Value} (hp : .optional name shape ∈ kind.properties)
    (hread : (fields.get? name).getD .null = v) (hadmits : (Shape.optional shape).Admits v)
    (h : make kind fields = .ok r) : r.field name = v := by
  cases hget : fields.get? name with
  | none =>
    rw [hget, Option.getD_none] at hread
    rw [← hread]
    refine field_missing hp (fun hmem => ?_) h
    obtain ⟨f, hf, rfl⟩ := List.mem_map.1 hmem
    rw [Fields.get?, List.lookup_eq_none_iff] at hget
    simpa using hget f hf
  | some w =>
    rw [hget, Option.getD_some] at hread
    have hcheck : ∃ a, check ⟨[kind.model], []⟩ v (.optional shape) = .ok a ∧ a.value = v :=
      check_of_admits hadmits
    obtain ⟨a, ha, rfl⟩ := hcheck
    exact field_of_get? (p := .optional name shape) hp rfl (hread ▸ hget) ha h

/-- The part of a body for a property of the request. -/
theorem part?_body_eq {p : Property}
    (hkind : kind.hasOwnBody = false) (hp : p ∈ kind.properties)
    (hparam : kind.paramKeys.contains p.wire = false) (h : make kind fields = .ok r) :
    r.body.part? [.name p.wire] = (r.field p.name).present?.map Value.wireForm := by
  have hk := kind_make h
  have hshown : (!r.isParam p.wire) = true := by rw [isParam, hk, hparam]; rfl
  have hnames : Fields.names (kind.properties.map fun p =>
      (p.wire, (r.field p.name).wireForm)) |>.Nodup := by
    rw [Fields.names, List.map_map]
    exact wires_nodup kind
  have hmem : (p.wire, (r.field p.name).wireForm) ∈ kind.properties.map fun p =>
      (p.wire, (r.field p.name).wireForm) := List.mem_map.2 ⟨p, hp, rfl⟩
  rw [body_eq (by rw [hk]; exact hkind), Value.part?_object,
    Fields.get?_filter (fun name => !r.isParam name) hshown, fields_eq_given h,
    Fields.get?_given_eq hnames, Fields.get?_of_mem hnames hmem, Option.getD_some,
    Value.present?_wireForm]
  cases (r.field p.name).present? <;> rfl

/-- A text that has to be given is taken as it is. -/
theorem field_required {s : String} (hp : .required name .text ∈ kind.properties)
    (hget : fields.get? name = some (.str s)) (h : make kind fields = .ok r) :
    r.field name = .str s := by
  have hcheck : ∃ a, check ⟨[kind.model], []⟩ (.str s) .text = .ok a ∧ a.value = .str s :=
    check_of_admits (.text s)
  obtain ⟨a, ha, hvalue⟩ := hcheck
  rw [← hvalue]
  exact field_of_get? (p := .required name .text) hp rfl hget ha h

/-! ## What parameters show -/

/-- Parameters show some properties of a request, each under a key: those that are set, and nothing
under the keys of the others. -/
structure Shows (r : Request) (key : String → String) (names : List String) (parameters : Fields) :
    Prop where
  nodup : parameters.names.Nodup
  get? : ∀ name ∈ names, parameters.get? (key name) = (r.field name).present?

theorem shows_given (key : String → String) {names : List String} (h : (names.map key).Nodup) :
    r.Shows key names (Fields.given (names.map fun name => (key name, r.field name))) := by
  have hnames : Fields.names (names.map fun name => (key name, r.field name)) = names.map key := by
    rw [Fields.names, List.map_map]
    rfl
  rw [← hnames] at h
  refine ⟨(Fields.names_given_sublist _).nodup h, fun name hname => ?_⟩
  have hmem : (key name, r.field name) ∈ names.map fun name => (key name, r.field name) :=
    List.mem_map.2 ⟨name, hname, rfl⟩
  rw [Fields.get?_given_eq h, Fields.get?_of_mem h hmem, Option.getD_some]

/-- The parameters of a kind of requests, in their order. -/
def paramNames (kind : RequestKind) : List String :=
  (kind.properties.filter fun p => kind.paramKeys.contains p.wire).map Property.name

/-- **The parameters of a request** show all properties that are parameters, if these are texts and
integers under their own names. -/
theorem shows_params (hplain : ∀ p ∈ kind.properties, kind.paramKeys.contains p.wire →
    p.isPlain ∧ p.wire = p.name) (h : make kind fields = .ok r) :
    r.Shows id (paramNames kind) r.params := by
  have hparams : r.params =
      Fields.given ((paramNames kind).map fun name => (id name, r.field name)) := by
    rw [params_eq (fun p hp hparam => (hplain p hp hparam).1) h, paramNames, List.map_map]
    congr 1
    apply List.map_congr_left
    intro p hp
    obtain ⟨hp, hparam⟩ := List.mem_filter.1 hp
    rw [(hplain p hp hparam).2]
    rfl
  have hnodup : ((paramNames kind).map id).Nodup := by
    rw [List.map_id]
    exact (List.filter_sublist.map Property.name).nodup (names_nodup kind)
  rw [hparams]
  exact shows_given id hnodup

end Request

end SearchWire
