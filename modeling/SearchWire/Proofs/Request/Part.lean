import SearchWire.Proofs.Request.Make
import SearchWire.Proofs.Value.Wire

/-!
# Parts of bodies

A part of a value is found by a path of keys and positions. A request shows its parts in wire form,
at the places at which they were put into its fields.

* `Value.part?`: the part at the end of a path.
* `Value.part?_wireForm`: parts keep their places in the wire form.
* `Value.part?_ne_self`: no part but the whole is the value itself.
* `Request.get?_fields`: the field that a request has for a property.
* `Request.part?_body`: **the parts of a body** are those of what its properties took.
-/

namespace SearchWire

namespace Fields

theorem get?_filter (keep : String → Bool) {name : String} (h : keep name) (fs : Fields) :
    get? (fs.filter fun f => keep f.1) name = fs.get? name := by
  induction fs with
  | nil => rfl
  | cons f fs ih =>
    rw [get?] at ih ⊢
    rw [List.filter_cons, get?, List.lookup_cons]
    by_cases hname : name = f.1
    · subst hname
      rw [if_pos h, List.lookup_cons, beq_self_eq_true]
    · have hne : (name == f.1) = false := by simp [hname]
      split
      · rw [List.lookup_cons, hne, ih, get?]
      · rw [hne, ih, get?]

end Fields

namespace Value

/-- The part of a value at the end of a path of keys and positions. -/
def part? : List Place → Value → Option Value
  | [], v => some v
  | .name key :: path, .dict es => do part? path (← findEntry? es key)
  | .position (.ofNat n) :: path, .list vs => do part? path (← vs[n]?)
  | _ :: _, _ => none

theorem part?_object (key : String) (path : List Place) (fs : Fields) :
    (object fs).part? (.name key :: path) = (fs.get? key).bind (part? path) := by
  rw [Fields.object_eq, part?, Fields.findEntry?_entries]
  rfl

theorem part?_list (n : Nat) (path : List Place) (vs : List Value) :
    (list vs).part? (.position n :: path) = vs[n]?.bind (part? path) := rfl

theorem findEntry?_wireEntries (es : Entries) (key : String) :
    findEntry? (wireEntries es) key = (Option.map wireForm <| findEntry? es key) := by
  rw [wireEntries_eq_map, findEntry?, findEntry?, List.find?_map, Option.map_map, Option.map_map]
  rfl

/-- Parts keep their places in the wire form. -/
theorem part?_wireForm {path : List Place} {v w : Value} (h : v.part? path = some w) :
    v.wireForm.part? path = some w.wireForm := by
  induction path generalizing v with
  | nil =>
    cases h
    rfl
  | cons step path ih =>
    unfold part? at h
    split at h
    · contradiction
    · next heq =>
      cases heq
      obtain ⟨u, hu, h⟩ := Option.bind_eq_some_iff.1 h
      rw [wireForm, part?, findEntry?_wireEntries, hu]
      exact ih h
    · next heq =>
      cases heq
      obtain ⟨u, hu, h⟩ := Option.bind_eq_some_iff.1 h
      rw [wireForm, part?, wireForms_eq_map, List.getElem?_map, hu]
      exact ih h
    · cases h

/-- A part is smaller than the whole. -/
theorem sizeOf_part? {path : List Place} {v w : Value} (h : v.part? path = some w) :
    sizeOf w + path.length ≤ sizeOf v := by
  induction path generalizing v with
  | nil =>
    cases h
    exact Nat.le_refl _
  | cons step path ih =>
    unfold part? at h
    split at h
    · contradiction
    · next heq =>
      cases heq
      obtain ⟨u, hu, h⟩ := Option.bind_eq_some_iff.1 h
      obtain ⟨e, he, rfl⟩ := Option.map_eq_some_iff.1 hu
      have hentry := List.sizeOf_lt_of_mem (List.mem_of_find?_eq_some he)
      have hpart := ih h
      have hpair : sizeOf e = 1 + sizeOf e.1 + sizeOf e.2 := rfl
      rw [List.length_cons, dict.sizeOf_spec]
      omega
    · next heq =>
      cases heq
      obtain ⟨u, hu, h⟩ := Option.bind_eq_some_iff.1 h
      have hitem := List.sizeOf_lt_of_mem (List.mem_of_getElem? hu)
      have hpart := ih h
      rw [List.length_cons, list.sizeOf_spec]
      omega
    · cases h

/-- No part but the whole is the value itself. -/
theorem part?_ne_self {step : Place} {path : List Place} {v w : Value}
    (h : v.part? (step :: path) = some w) : w ≠ v := by
  have hsize := sizeOf_part? h
  rintro rfl
  rw [List.length_cons] at hsize
  omega

end Value

/-- Requests whose body is one of their fields. -/
def RequestKind.hasOwnBody : RequestKind → Bool
  | .index | .putMapping | .bulk => true
  | _ => false

namespace Request

variable {kind : RequestKind} {fields : Fields} {r : Request} {p : Property}

theorem kind_make (h : make kind fields = .ok r) : r.kind = kind := by
  obtain ⟨-, rfl⟩ := make_eq_ok.1 h
  rfl

/-- The field that a request has for a property, unless the property took nothing. -/
theorem get?_fields (hp : p ∈ kind.properties) (h : make kind fields = .ok r)
    (hset : (taken kind fields p).isNull = false) :
    r.fields.get? p.wire = some (taken kind fields p).wireForm := by
  have hfields := fields_make h
  have hsub := (List.filter_sublist (p := fun p => !(taken kind fields p).isNull)
    (l := kind.properties)).map Property.wire
  apply Fields.get?_of_mem
  · rw [hfields, Fields.names, List.map_map]
    exact hsub.nodup (wires_nodup kind)
  · rw [hfields]
    exact List.mem_map.2 ⟨p, List.mem_filter.2 ⟨hp, by simp [hset]⟩, rfl⟩

theorem body_eq (h : r.kind.hasOwnBody = false) :
    r.body = .object (r.fields.filter fun f => !r.isParam f.1) := by
  rw [body]
  split
  all_goals simp_all [RequestKind.hasOwnBody]

/-- **The parts of a body** are those of what its properties took. -/
theorem part?_body (hkind : kind.hasOwnBody = false) (hp : p ∈ kind.properties)
    (hparam : kind.paramKeys.contains p.wire = false) (h : make kind fields = .ok r)
    (hset : (taken kind fields p).isNull = false) {path : List Place} {v : Value}
    (hv : (taken kind fields p).part? path = some v) :
    r.body.part? (.name p.wire :: path) = some v.wireForm := by
  have hget := get?_fields hp h hset
  have hk := kind_make h
  have hshown : (!r.isParam p.wire) = true := by rw [isParam, hk, hparam]; rfl
  rw [body_eq (by rw [hk]; exact hkind), Value.part?_object,
    Fields.get?_filter (fun name => !r.isParam name) hshown, hget]
  exact Value.part?_wireForm hv

/-- A property that has one name takes the field with this name, brought into its shape. -/
theorem taken_of_get? {name : String} {v : Value} {a : Accepted} (hkeys : p.keys = [name])
    (hget : fields.get? name = some v) (ha : check ⟨[kind.model], []⟩ v p.shape = .ok a) :
    taken kind fields p = a.value := by
  rw [taken, given, checkProperty_of_get? hkeys hget ha, valueOf]

/-- A part of a field that fits its property. -/
theorem part?_body_of_get? {name : String} {v w : Value} {a : Accepted}
    (hkind : kind.hasOwnBody = false) (hp : p ∈ kind.properties)
    (hparam : kind.paramKeys.contains p.wire = false) (hkeys : p.keys = [name])
    (hget : fields.get? name = some v) (ha : check ⟨[kind.model], []⟩ v p.shape = .ok a)
    (hset : a.value.isNull = false) (h : make kind fields = .ok r) {path : List Place}
    (hw : a.value.part? path = some w) : r.body.part? (.name p.wire :: path) = some w.wireForm := by
  apply part?_body hkind hp hparam h <;> rw [taken_of_get? hkeys hget ha]
  · exact hset
  · exact hw

end Request

end SearchWire
