import SearchWire.Proofs.Value.Fields
import SearchWire.Value.Dump

/-!
# Wire forms

A wire form holds no records, so it is its own wire form.

* `Value.wireForms_eq_map`, `Value.wireEntries_eq_map`, `Value.wireForm_object`: part by part.
* `Value.wireForm_list_of`, `Value.wireForm_object_of`: lists and objects whose parts are their own
  wire forms.
* `Value.wireForm_wireForm`: **a wire form is its own wire form.**
-/

namespace SearchWire

namespace Value

theorem wireForms_eq_map (vs : List Value) : wireForms vs = vs.map wireForm := by
  induction vs with
  | nil => rfl
  | cons v vs ih => rw [wireForms, ih, List.map_cons]

theorem wireEntries_eq_map (es : Entries) :
    wireEntries es = es.map fun e => (e.1, e.2.wireForm) := by
  induction es with
  | nil => rfl
  | cons e es ih => rw [wireEntries, ih, List.map_cons]

theorem wireForm_object (fs : Fields) :
    (object fs).wireForm = object (fs.map fun f => (f.1, f.2.wireForm)) := by
  rw [object, wireForm, wireEntries_eq_map, object, List.map_map, List.map_map]
  rfl

theorem wireForm_list_of {xs : List Value} (h : ∀ x ∈ xs, x.wireForm = x) :
    (list xs).wireForm = .list xs := by
  rw [wireForm, wireForms_eq_map]
  rw [List.map_congr_left h, List.map_id']

theorem wireForm_object_of {fs : Fields} (h : ∀ f ∈ fs, f.2.wireForm = f.2) :
    (object fs).wireForm = object fs := by
  have hsame : ∀ f ∈ fs, (f.1, f.2.wireForm) = f := fun f hf => by rw [h f hf]
  rw [wireForm_object, List.map_congr_left hsame, List.map_id']

mutual

/-- **A wire form is its own wire form.** -/
theorem wireForm_wireForm : ∀ v : Value, v.wireForm.wireForm = v.wireForm
  | .list xs => by rw [wireForm, wireForm, wireForms_wireForms]
  | .tuple xs => by rw [wireForm, wireForm, wireForms_wireForms]
  | .set xs => by rw [wireForm, wireForm, wireForms_wireForms]
  | .dict es => by rw [wireForm, wireForm, wireEntries_wireEntries]
  | .record c slots => by
    rw [wireForm]
    exact wireForm_object_of fun f hf =>
      wireForm_of_mem_wireSlots slots (Fields.mem_of_mem_ofList hf)
  | .null | .bool _ | .int _ | .float _ | .str _ | .bytes _ | .date _ | .datetime _
  | .duration _ | .member _ | .choice .. | .classRef _ | .chain _ => rfl

theorem wireForms_wireForms : ∀ xs : List Value, wireForms (wireForms xs) = wireForms xs
  | [] => rfl
  | x :: xs => by rw [wireForms, wireForms, wireForm_wireForm, wireForms_wireForms]

theorem wireEntries_wireEntries : ∀ es : List (Value × Value),
    wireEntries (wireEntries es) = wireEntries es
  | [] => rfl
  | (k, v) :: es => by rw [wireEntries, wireEntries, wireForm_wireForm, wireEntries_wireEntries]

theorem wireForm_of_mem_wireSlots {shows : String → Bool} {f : String × Value} :
    ∀ slots : List (Slot Value), f ∈ wireSlots shows slots → f.2.wireForm = f.2
  | [], h => by cases h
  | ⟨name, wire, v⟩ :: slots, h => by
    rw [wireSlots] at h
    split at h
    · exact wireForm_of_mem_wireSlots slots h
    · rcases List.mem_cons.mp h with rfl | h
      · exact wireForm_wireForm v
      · exact wireForm_of_mem_wireSlots slots h

end

end Value

end SearchWire
