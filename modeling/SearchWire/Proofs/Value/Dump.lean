import Mathlib.Data.List.Nodup
import SearchWire.Proofs.Value.Fields
import SearchWire.Value.Dump

/-!
# Records in documents

In a document a record is an object with the properties that are set and shown, each under its
document name. If these names are distinct, every property is found under its own.

* `Value.names_documentSlots`, `Value.mem_documentSlots`: which fields there are, and the value of
  each.
* `Value.get?_documentSlots`: **a property is found under its document name**, or nothing is there
  if it is not set.
-/

namespace SearchWire.Value

/-- A property that is set and shown. -/
def isWritten (shows : String → Bool) (s : Slot Value) : Bool := !s.value.isNull && shows s.name

theorem documentSlots_cons (shows : String → Bool) (s : Slot Value) (slots : List (Slot Value)) :
    documentSlots? shows (s :: slots) =
      if isWritten shows s then do
        some ((s.wire, ← s.value.documentForm?) :: (← documentSlots? shows slots))
      else documentSlots? shows slots := by
  rw [documentSlots?, isWritten]
  cases s.value.isNull <;> cases shows s.name <;> rfl

variable {shows : String → Bool} {slots : List (Slot Value)} {fields : Fields}

theorem names_documentSlots (h : documentSlots? shows slots = some fields) :
    fields.names = (slots.filter (isWritten shows)).map Slot.wire := by
  induction slots generalizing fields with
  | nil =>
    cases h
    rfl
  | cons s slots ih =>
    rw [documentSlots_cons] at h
    rw [List.filter_cons]
    split at h
    · next hs =>
      obtain ⟨w, -, h⟩ := Option.bind_eq_some_iff.1 h
      obtain ⟨rest, hrest, h⟩ := Option.bind_eq_some_iff.1 h
      cases h
      rw [if_pos hs, List.map_cons, ← ih hrest, Fields.names, List.map_cons]
      rfl
    · next hs => rw [if_neg hs, ih h]

theorem mem_documentSlots (h : documentSlots? shows slots = some fields) {s : Slot Value}
    (hs : s ∈ slots) (hwritten : isWritten shows s) :
    ∃ w, s.value.documentForm? = some w ∧ (s.wire, w) ∈ fields := by
  induction slots generalizing fields with
  | nil => cases hs
  | cons t slots ih =>
    rw [documentSlots_cons] at h
    split at h
    · obtain ⟨w, hw, h⟩ := Option.bind_eq_some_iff.1 h
      obtain ⟨rest, hrest, h⟩ := Option.bind_eq_some_iff.1 h
      cases h
      rcases List.mem_cons.1 hs with rfl | hs
      · exact ⟨w, hw, List.mem_cons_self⟩
      · obtain ⟨w', hw', hmem⟩ := ih hrest hs
        exact ⟨w', hw', List.mem_cons_of_mem _ hmem⟩
    · next ht =>
      rcases List.mem_cons.1 hs with rfl | hs
      · contradiction
      · exact ih h hs

/-- **A property is found under its document name**, or nothing is there if it is not set, where
the document names of the properties that are shown are distinct. -/
theorem get?_documentSlots
    (hwires : ((slots.filter fun s => shows s.name).map Slot.wire).Nodup)
    (h : documentSlots? shows slots = some fields) {s : Slot Value} (hs : s ∈ slots)
    (hshown : shows s.name) :
    if s.value.isNull then (Fields.ofList fields).get? s.wire = none
    else ∃ w, s.value.documentForm? = some w ∧ (Fields.ofList fields).get? s.wire = some w := by
  have hnames := names_documentSlots h
  have hfilter : slots.filter (isWritten shows) =
      (slots.filter fun s => shows s.name).filter fun s => !s.value.isNull := by
    rw [List.filter_filter]
    rfl
  have hnodup : fields.names.Nodup := by
    rw [hnames, hfilter]
    exact (List.filter_sublist.map Slot.wire).nodup hwires
  rw [Fields.ofList_of_nodup hnodup]
  split
  · next hnull =>
    apply Fields.get?_of_not_mem
    rw [hnames]
    intro hmem
    obtain ⟨t, ht, hwire⟩ := List.mem_map.1 hmem
    rw [hfilter] at ht
    obtain ⟨ht, hset⟩ := List.mem_filter.1 ht
    -- only the property itself has its document name
    have heq : t = s := List.inj_on_of_nodup_map hwires ht (List.mem_filter.2 ⟨hs, hshown⟩) hwire
    rw [heq, hnull] at hset
    contradiction
  · next hset =>
    obtain ⟨w, hw, hmem⟩ := mem_documentSlots h hs (by simp [isWritten, hset, hshown])
    exact ⟨w, hw, Fields.get?_of_mem hnodup hmem⟩

end SearchWire.Value
