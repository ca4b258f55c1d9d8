import SearchWire.Proofs.Request.Part
import SearchWire.Proofs.Schema.Record

/-!
# Parameters of requests

The parameters of a request for one document are texts and integers, so they are shown as they were
taken; a parameter that took nothing is left out.

* `Shape.isPlain`, `wireForm_of_check`: texts and integers are their own wire forms.
* `Request.taken_cases`: what a property takes is what fits its shape, or its default.
* `Request.field_eq_taken`, `Request.field_of_get?`, `Request.exists_check_of_get?`,
  `Request.field_missing`: the value of a property.
* `Request.params_eq`: **the parameters of a request**, one by one.
-/

namespace SearchWire

/-! ## Values without parts -/

theorem Value.isNull_wireForm (v : Value) : v.wireForm.isNull = v.isNull := by
  cases v <;> simp only [wireForm, object, isNull]

/-- Shapes of texts and integers. -/
def Shape.isPlain : Shape → Bool
  | .text => true
  | .integer _ _ => true
  | .optional inner => isPlain inner
  | _ => false

/-- Texts and integers are their own wire forms. -/
theorem wireForm_of_check {cat : Catalogue} {v : Value} {a : Accepted} :
    ∀ {s : Shape}, s.isPlain → check cat v s = .ok a → a.value.wireForm = a.value
  | .text, _, h => by
    obtain ⟨s, hs⟩ := check_text_ok h
    rw [hs, Value.wireForm] <;> simp
  | .integer low high, _, h => by
    obtain ⟨n, hn⟩ := check_integer_ok h
    rw [hn, Value.wireForm] <;> simp
  | .optional inner, hs, h => by
    rw [check_optional] at h
    split at h
    · next hnull =>
      cases h
      cases v <;> first | contradiction | rfl
    · exact wireForm_of_check (s := inner) hs h

/-- A property for a text or an integer that may be missing or not. -/
def Property.isPlain (p : Property) : Bool := p.shape.isPlain && (p.default.getD .null).isNull

namespace Request

variable {kind : RequestKind} {fields : Fields} {r : Request} {p : Property}

/-- What a property takes is what fits its shape, or its default. -/
theorem taken_cases (hp : p ∈ kind.properties) (h : make kind fields = .ok r) :
    (∃ v a, check ⟨[kind.model], []⟩ v p.shape = .ok a ∧ taken kind fields p = a.value) ∨
      p.default = some (taken kind fields p) := by
  obtain ⟨hok, -⟩ := make_eq_ok.1 h
  obtain ⟨a, ha⟩ := hok p hp
  rw [taken, ha, valueOf]
  rcases checkProperty_cases ha with ⟨-, v, -, hv⟩ | hdefault
  · exact .inl ⟨v, a, hv, rfl⟩
  · exact .inr hdefault

theorem wireForm_taken (hp : p ∈ kind.properties) (h : make kind fields = .ok r)
    (hplain : p.isPlain) : (taken kind fields p).wireForm = taken kind fields p := by
  rw [Property.isPlain, Bool.and_eq_true] at hplain
  rcases taken_cases hp h with ⟨v, a, ha, heq⟩ | hdefault
  · rw [heq]
    exact wireForm_of_check hplain.1 ha
  · have hnull := hplain.2
    rw [hdefault, Option.getD_some] at hnull
    cases htaken : taken kind fields p with
    | null => rfl
    | _ => simp [htaken, Value.isNull] at hnull

/-- Each property has a name of its own. -/
theorem names_nodup (kind : RequestKind) : (kind.properties.map Property.name).Nodup := by
  cases kind <;> decide

/-- The value of a property is what the property takes. -/
theorem field_eq_taken (hp : p ∈ kind.properties) (h : make kind fields = .ok r) :
    r.field p.name = taken kind fields p :=
  field_make (Property.find?_name (names_nodup kind) hp) h

/-- The value of a property that has one name is the field with this name, brought into its
shape. -/
theorem field_of_get? {key : String} {v : Value} {a : Accepted} (hp : p ∈ kind.properties)
    (hkeys : p.keys = [key]) (hget : fields.get? key = some v)
    (ha : check ⟨[kind.model], []⟩ v p.shape = .ok a) (h : make kind fields = .ok r) :
    r.field p.name = a.value := by
  rw [field_eq_taken hp h, taken_of_get? hkeys hget ha]

/-- A request is made only if the field fits. -/
theorem exists_check_of_get? {key : String} {v : Value} (hp : p ∈ kind.properties)
    (hkeys : p.keys = [key]) (hget : fields.get? key = some v) (h : make kind fields = .ok r) :
    ∃ a, check ⟨[kind.model], []⟩ v p.shape = .ok a ∧ r.field p.name = a.value := by
  obtain ⟨a, ha⟩ := (make_eq_ok.1 h).1 p hp
  rw [given, checkProperty, findGiven_entries, hkeys, List.findSome?_cons, hget] at ha
  have hcheck := under_eq_ok.1 ha
  exact ⟨a, hcheck, field_of_get? hp hkeys hget hcheck h⟩

/-- The value of an optional property for which there is no field. -/
theorem field_missing {name : String} {shape : Shape}
    (hp : Property.optional name shape ∈ kind.properties) (hname : name ∉ fields.names)
    (h : make kind fields = .ok r) : r.field name = .null := by
  have htaken : r.field name = taken kind fields (.optional name shape) := field_eq_taken hp h
  rw [htaken, taken, checkProperty_missing kind shape hname]
  rfl

/-- The fields of a request are those properties that are not `null`, in their order. -/
theorem fields_eq_given (h : make kind fields = .ok r) :
    r.fields = Fields.given (kind.properties.map fun p => (p.wire, (r.field p.name).wireForm)) := by
  rw [fields_make h, Fields.given_eq_filter, List.filter_map]
  have hset : (kind.properties.filter fun p => !(taken kind fields p).isNull) =
      kind.properties.filter ((fun f : String × Value => !f.2.isNull) ∘
        fun p => (p.wire, (r.field p.name).wireForm)) := by
    apply List.filter_congr
    intro p hp
    rw [Function.comp_apply, field_eq_taken hp h, Value.isNull_wireForm]
  rw [hset]
  apply List.map_congr_left
  intro p hp
  rw [field_eq_taken (List.mem_filter.1 hp).1 h]

/-- **The parameters of a request** are those of its properties that are parameters and not
`null`, in their order. -/
theorem params_eq
    (hplain : ∀ p ∈ kind.properties, kind.paramKeys.contains p.wire → p.isPlain)
    (h : make kind fields = .ok r) :
    r.params = Fields.given ((kind.properties.filter fun p => kind.paramKeys.contains p.wire).map
      fun p => (p.wire, r.field p.name)) := by
  have hparam : (fun f : String × Value => r.isParam f.1) =
      fun f => kind.paramKeys.contains f.1 := by
    funext f
    rw [isParam, kind_make h]
  rw [params, hparam, fields_eq_given h, Fields.filter_given kind.paramKeys.contains,
    List.filter_map]
  congr 1
  apply List.map_congr_left
  intro p hp
  obtain ⟨hp, hwire⟩ := List.mem_filter.1 hp
  rw [field_eq_taken hp h, wireForm_taken hp h (hplain p hp hwire)]

end Request

end SearchWire
