import SearchWire.Proofs.Value.Fields
import SearchWire.Value.Dump

/-!
# How deep values are

* `Value.heightAll_le_iff`, `Value.height_object_le_iff`: a collection is no deeper than its deepest
  part.
* `Value.height_documentForm`: plain data is no deeper than what it was made from.
* `Value.height_translation`: **what a value is translated to is less deep.**
-/

namespace SearchWire.Value

theorem heightAll_le_iff {xs : List Value} {n : Nat} :
    heightAll xs ≤ n ↔ ∀ x ∈ xs, x.height ≤ n := by
  induction xs with
  | nil => simp [heightAll]
  | cons x xs ih => rw [heightAll, Nat.max_le, ih, List.forall_mem_cons]

theorem heightEntries_le_iff {es : Entries} {n : Nat} :
    heightEntries es ≤ n ↔ ∀ e ∈ es, e.2.height ≤ n := by
  induction es with
  | nil => simp [heightEntries]
  | cons e es ih => rw [heightEntries, Nat.max_le, ih, List.forall_mem_cons]

theorem heightSlots_le_iff {slots : List (Slot Value)} {n : Nat} :
    heightSlots slots ≤ n ↔ ∀ s ∈ slots, s.value.height ≤ n := by
  induction slots with
  | nil => simp [heightSlots]
  | cons s slots ih => rw [heightSlots, Nat.max_le, ih, List.forall_mem_cons]

theorem height_object_le_iff {fs : Fields} {n : Nat} :
    (object fs).height ≤ n + 1 ↔ ∀ f ∈ fs, f.2.height ≤ n := by
  rw [Fields.object_eq, height, Nat.add_le_add_iff_right, heightEntries_le_iff, Fields.entries,
    List.forall_mem_map]

/-- Fields that are written one after the other are no deeper than all of them. -/
theorem height_ofList_le {fs : Fields} {n : Nat} (h : ∀ f ∈ fs, f.2.height ≤ n) :
    (object (Fields.ofList fs)).height ≤ n + 1 :=
  height_object_le_iff.2 fun f hf => h f (Fields.mem_of_mem_ofList hf)

mutual

/-- Plain data is no deeper than what it was made from. -/
theorem height_documentForm : ∀ {v w : Value}, v.documentForm? = some w → w.height ≤ v.height
  | .list xs, w, h => by
    rw [documentForm?] at h
    obtain ⟨ws, hws, rfl⟩ := Option.map_eq_some_iff.1 h
    exact Nat.succ_le_succ (heightAll_le_iff.2 (height_documentForms hws))
  | .tuple xs, w, h => by
    rw [documentForm?] at h
    obtain ⟨ws, hws, rfl⟩ := Option.map_eq_some_iff.1 h
    exact Nat.succ_le_succ (heightAll_le_iff.2 (height_documentForms hws))
  | .set xs, w, h => by
    rw [documentForm?] at h
    obtain ⟨ws, hws, rfl⟩ := Option.map_eq_some_iff.1 h
    exact Nat.succ_le_succ (heightAll_le_iff.2 (height_documentForms hws))
  | .dict es, w, h => by
    rw [documentForm?] at h
    obtain ⟨fs, hfs, rfl⟩ := Option.map_eq_some_iff.1 h
    exact height_ofList_le (height_documentEntries hfs)
  | .record c slots, w, h => by
    rw [documentForm?] at h
    obtain ⟨fs, hfs, rfl⟩ := Option.map_eq_some_iff.1 h
    exact Nat.le_succ_of_le (height_ofList_le (height_documentSlots hfs))
  | .choice _ _ v, w, h => by
    rw [documentForm?] at h
    exact Nat.le_succ_of_le (height_documentForm h)
  | .float x, w, h => by
    rw [documentForm?] at h
    cases h
    split <;> exact Nat.zero_le _
  | .null, w, h | .bool _, w, h | .int _, w, h | .str _, w, h | .bytes _, w, h | .date _, w, h
  | .datetime _, w, h | .duration _, w, h | .member _, w, h => by
    cases h
    exact Nat.zero_le _
  | .classRef _, w, h | .chain _, w, h => by cases h

theorem height_documentForms : ∀ {xs ws : List Value}, documentForms? xs = some ws →
    ∀ w ∈ ws, w.height ≤ heightAll xs
  | [], ws, h => by
    cases h
    nofun
  | x :: xs, ws, h => by
    rw [documentForms?] at h
    obtain ⟨w, hw, h⟩ := Option.bind_eq_some_iff.1 h
    obtain ⟨rest, hrest, h⟩ := Option.bind_eq_some_iff.1 h
    cases h
    have hhead := height_documentForm hw
    have htail := height_documentForms hrest
    rw [heightAll]
    exact List.forall_mem_cons.2 ⟨by omega, fun w hw => Nat.le_trans (htail w hw) (by omega)⟩

theorem height_documentEntries : ∀ {es : List (Value × Value)} {fs : Fields},
    documentEntries? es = some fs → ∀ f ∈ fs, f.2.height ≤ heightEntries es
  | [], fs, h => by
    cases h
    nofun
  | (k, v) :: es, fs, h => by
    rw [documentEntries?] at h
    obtain ⟨key, hkey, h⟩ := Option.bind_eq_some_iff.1 h
    obtain ⟨w, hw, h⟩ := Option.bind_eq_some_iff.1 h
    obtain ⟨rest, hrest, h⟩ := Option.bind_eq_some_iff.1 h
    cases h
    have hhead := height_documentForm hw
    have htail := height_documentEntries hrest
    rw [heightEntries]
    refine List.forall_mem_cons.2 ⟨?_, fun f hf => Nat.le_trans (htail f hf) (by omega)⟩
    exact Nat.le_trans hhead (Nat.le_max_left _ _)

theorem height_documentSlots {shows : String → Bool} :
    ∀ {slots : List (Slot Value)} {fs : Fields}, documentSlots? shows slots = some fs →
      ∀ f ∈ fs, f.2.height ≤ heightSlots slots
  | [], fs, h => by
    cases h
    nofun
  | ⟨name, wire, v⟩ :: slots, fs, h => by
    rw [documentSlots?] at h
    rw [heightSlots]
    split at h
    · exact fun f hf => Nat.le_trans (height_documentSlots h f hf) (by omega)
    · obtain ⟨w, hw, h⟩ := Option.bind_eq_some_iff.1 h
      obtain ⟨rest, hrest, h⟩ := Option.bind_eq_some_iff.1 h
      cases h
      have hhead := height_documentForm hw
      have htail := height_documentSlots hrest
      refine List.forall_mem_cons.2 ⟨?_, fun f hf => Nat.le_trans (htail f hf) (by omega)⟩
      exact Nat.le_trans hhead (Nat.le_max_left _ _)

end

/-- The properties of a record are less deep than the record. -/
theorem height_property {c : RecordClass} {slots : List (Slot Value)} (name : String) :
    (((Value.record c slots).property? name).getD .null).height ≤ heightSlots slots := by
  cases h : (Value.record c slots).property? name with
  | none => exact Nat.zero_le _
  | some v =>
    obtain ⟨s, hs, rfl⟩ := Option.map_eq_some_iff.1 h
    exact heightSlots_le_iff.1 (Nat.le_refl _) s (List.mem_of_find?_eq_some hs)

/-- **What a value is translated to is less deep**, but for members, which have texts. -/
theorem height_translation {v w : Value} (hmember : ∀ m, v ≠ .member m)
    (h : v.translation = .form w) : w.height < v.height := by
  cases v with
  | member m => exact absurd rfl (hmember m)
  | choice e l v =>
    cases h
    exact Nat.lt_succ_self _
  | date d =>
    cases h
    exact Nat.zero_lt_one
  | datetime t =>
    cases h
    exact Nat.zero_lt_one
  | record c slots =>
    rw [translation] at h
    split at h
    · cases h
      refine Nat.lt_succ_of_le (height_object_le_iff.2 ?_)
      simp only [List.forall_mem_cons]
      exact ⟨height_property "lat", height_property "lon", nofun⟩
    · split at h
      · next hform =>
        cases h
        rw [documentForm?] at hform
        obtain ⟨fs, hfs, rfl⟩ := Option.map_eq_some_iff.1 hform
        exact Nat.lt_succ_of_le (height_ofList_le (height_documentSlots hfs))
      · cases h
  | _ => cases h

end SearchWire.Value
