import SearchWire.Proofs.Value.Wire

/-!
# Plain data

Plain data is what a JSON text can hold: `null`, truth values, numbers, texts, lists, and objects
whose fields have distinct names. There are no records in it, so it is its own wire form.

* `Value.IsPlain`: plain data.
* `Value.IsPlain.wireForm`: it is its own wire form.
* `Value.isPlain_of_documentForm`: **a document form is plain data.**
-/

namespace SearchWire.Value

/-- Plain data: what a JSON text can hold. -/
inductive IsPlain : Value → Prop
  | null : IsPlain .null
  | bool (b : Bool) : IsPlain (.bool b)
  | int (n : Int) : IsPlain (.int n)
  | float (x : Double) : IsPlain (.float x)
  | str (s : String) : IsPlain (.str s)
  | list {xs : List Value} (h : ∀ x ∈ xs, IsPlain x) : IsPlain (.list xs)
  | object {fs : Fields} (hnames : fs.names.Nodup) (h : ∀ f ∈ fs, IsPlain f.2) :
      IsPlain (.object fs)

namespace IsPlain

theorem wireForm {v : Value} (h : v.IsPlain) : v.wireForm = v := by
  induction h with
  | null | bool | int | float | str => rfl
  | list _ ih => exact wireForm_list_of ih
  | object _ _ ih => exact wireForm_object_of ih

/-- Dictionaries are objects there. -/
theorem isObject {es : Entries} (h : (Value.dict es).IsPlain) : (Value.dict es).IsObject := by
  generalize hv : Value.dict es = v at h
  cases h with
  | object hnames _ => exact ⟨_, hnames, rfl⟩
  | _ => cases hv

/-- Fields that are written one after the other. -/
theorem ofList {fs : Fields} (h : ∀ f ∈ fs, f.2.IsPlain) :
    (Value.object (Fields.ofList fs)).IsPlain :=
  .object (Fields.nodup_ofList fs) fun f hf => h f (Fields.mem_of_mem_ofList hf)

end IsPlain

mutual

/-- **A document form is plain data.** -/
theorem isPlain_of_documentForm : ∀ {v w : Value}, v.documentForm? = some w → w.IsPlain
  | .list xs, w, h => by
    rw [documentForm?] at h
    obtain ⟨ws, hws, rfl⟩ := Option.map_eq_some_iff.mp h
    exact .list (isPlain_of_mem_documentForms hws)
  | .tuple xs, w, h => by
    rw [documentForm?] at h
    obtain ⟨ws, hws, rfl⟩ := Option.map_eq_some_iff.mp h
    exact .list (isPlain_of_mem_documentForms hws)
  | .set xs, w, h => by
    rw [documentForm?] at h
    obtain ⟨ws, hws, rfl⟩ := Option.map_eq_some_iff.mp h
    exact .list (isPlain_of_mem_documentForms hws)
  | .dict es, w, h => by
    rw [documentForm?] at h
    obtain ⟨fs, hfs, rfl⟩ := Option.map_eq_some_iff.mp h
    exact .ofList (isPlain_of_mem_documentEntries hfs)
  | .record c slots, w, h => by
    rw [documentForm?] at h
    obtain ⟨fs, hfs, rfl⟩ := Option.map_eq_some_iff.mp h
    exact .ofList (isPlain_of_mem_documentSlots hfs)
  | .choice _ _ v, w, h => by
    rw [documentForm?] at h
    exact isPlain_of_documentForm h
  | .float x, w, h => by
    rw [documentForm?] at h
    cases h
    split
    · exact .float x
    · exact .null
  | .null, w, h | .bool _, w, h | .int _, w, h | .str _, w, h | .bytes _, w, h | .date _, w, h
  | .datetime _, w, h | .duration _, w, h | .member _, w, h => by
    cases h
    constructor
  | .classRef _, w, h | .chain _, w, h => by cases h

theorem isPlain_of_mem_documentForms : ∀ {xs ws : List Value}, documentForms? xs = some ws →
    ∀ w ∈ ws, w.IsPlain
  | [], ws, h => by
    cases h
    nofun
  | x :: xs, ws, h => by
    rw [documentForms?] at h
    obtain ⟨w, hw, h⟩ := Option.bind_eq_some_iff.mp h
    obtain ⟨rest, hrest, h⟩ := Option.bind_eq_some_iff.mp h
    cases h
    exact List.forall_mem_cons.mpr
      ⟨isPlain_of_documentForm hw, isPlain_of_mem_documentForms hrest⟩

theorem isPlain_of_mem_documentEntries : ∀ {es : List (Value × Value)} {fs : Fields},
    documentEntries? es = some fs → ∀ f ∈ fs, f.2.IsPlain
  | [], fs, h => by
    cases h
    nofun
  | (k, v) :: es, fs, h => by
    rw [documentEntries?] at h
    obtain ⟨key, hkey, h⟩ := Option.bind_eq_some_iff.mp h
    obtain ⟨w, hw, h⟩ := Option.bind_eq_some_iff.mp h
    obtain ⟨rest, hrest, h⟩ := Option.bind_eq_some_iff.mp h
    cases h
    exact List.forall_mem_cons.mpr
      ⟨isPlain_of_documentForm hw, isPlain_of_mem_documentEntries hrest⟩

theorem isPlain_of_mem_documentSlots {shows : String → Bool} :
    ∀ {slots : List (Slot Value)} {fs : Fields}, documentSlots? shows slots = some fs →
      ∀ f ∈ fs, f.2.IsPlain
  | [], fs, h => by
    cases h
    nofun
  | ⟨name, wire, v⟩ :: slots, fs, h => by
    rw [documentSlots?] at h
    split at h
    · exact isPlain_of_mem_documentSlots h
    · obtain ⟨w, hw, h⟩ := Option.bind_eq_some_iff.mp h
      obtain ⟨rest, hrest, h⟩ := Option.bind_eq_some_iff.mp h
      cases h
      exact List.forall_mem_cons.mpr
        ⟨isPlain_of_documentForm hw, isPlain_of_mem_documentSlots hrest⟩

end

end SearchWire.Value
