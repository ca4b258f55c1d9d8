import SearchWire.Json.Reader
import SearchWire.Proofs.Failure
import SearchWire.Proofs.Value.Plain

/-!
# What is read is plain data

Whatever a text holds, nothing but plain data is read from it.

* `Json.ReadsPlain`, `Json.readsPlain`: values, members and items.
* `Json.isPlain_of_readChars`, `Json.isPlain_of_readBytesWithin`: **a text or bytes.**
-/

namespace SearchWire.Json

theorem isPlain_of_readNumber {cs r : List Char} {v : Value} (h : readNumber cs = .ok (v, r)) :
    v.IsPlain := by
  unfold readNumber at h
  repeat' split at h
  all_goals cases h
  all_goals constructor

theorem isPlain_of_readAtom {cs r : List Char} {v : Value} (h : readAtom cs = .ok (v, r)) :
    v.IsPlain := by
  unfold readAtom at h
  split at h
  · next step hstep =>
    cases h
    obtain ⟨word, hword, hrest⟩ := List.exists_of_findSome?_eq_some hstep
    obtain ⟨rest, -, heq⟩ := Option.map_eq_some_iff.mp hrest
    cases heq
    simp only [wordValues, List.mem_cons, List.not_mem_nil, or_false] at hword
    rcases hword with rfl | rfl | rfl | rfl | rfl | rfl
    all_goals constructor
  · exact isPlain_of_readNumber h

/-- What the readers of the parts give with some fuel. -/
structure ReadsPlain (fuel : Nat) : Prop where
  value : ∀ {room cs r v}, readValue fuel room cs = .ok (v, r) → v.IsPlain
  members : ∀ {room cs r fs}, readMembers fuel room cs = .ok (fs, r) → ∀ f ∈ fs, f.2.IsPlain
  items : ∀ {room cs r vs}, readItems fuel room cs = .ok (vs, r) → ∀ v ∈ vs, v.IsPlain

variable {fuel room : Nat} {cs r : List Char}

theorem ReadsPlain.value_succ (h : ReadsPlain fuel) {v : Value}
    (hv : readValue (fuel + 1) room cs = .ok (v, r)) : v.IsPlain := by
  unfold readValue at hv
  split at hv
  · obtain ⟨s, -, hv⟩ := bind_eq_ok.mp hv
    cases hv
    exact .str _
  · obtain ⟨inner, -, hv⟩ := bind_eq_ok.mp hv
    split at hv
    · cases hv
      exact .ofList (List.forall_mem_nil _)
    · obtain ⟨⟨fs, rest⟩, hfs, hv⟩ := bind_eq_ok.mp hv
      cases hv
      exact .ofList (h.members hfs)
  · obtain ⟨inner, -, hv⟩ := bind_eq_ok.mp hv
    split at hv
    · cases hv
      exact .list (List.forall_mem_nil _)
    · obtain ⟨⟨vs, rest⟩, hvs, hv⟩ := bind_eq_ok.mp hv
      cases hv
      exact .list (h.items hvs)
  · exact isPlain_of_readAtom hv

theorem ReadsPlain.members_succ (h : ReadsPlain fuel) {fs : List (String × Value)}
    (hfs : readMembers (fuel + 1) room cs = .ok (fs, r)) : ∀ f ∈ fs, f.2.IsPlain := by
  unfold readMembers at hfs
  split at hfs
  · obtain ⟨⟨name, rest⟩, -, hfs⟩ := bind_eq_ok.mp hfs
    simp only at hfs
    split at hfs
    · obtain ⟨⟨v, rest'⟩, hv, hfs⟩ := bind_eq_ok.mp hfs
      have hvalue := h.value hv
      simp only at hfs
      split at hfs
      · cases hfs
        exact List.forall_mem_singleton.mpr hvalue
      · obtain ⟨⟨gs, last⟩, hgs, hfs⟩ := bind_eq_ok.mp hfs
        cases hfs
        exact List.forall_mem_cons.mpr ⟨hvalue, h.members hgs⟩
      · cases hfs
    · cases hfs
  · cases hfs

theorem ReadsPlain.items_succ (h : ReadsPlain fuel) {vs : List Value}
    (hvs : readItems (fuel + 1) room cs = .ok (vs, r)) : ∀ v ∈ vs, v.IsPlain := by
  unfold readItems at hvs
  obtain ⟨⟨v, rest⟩, hv, hvs⟩ := bind_eq_ok.mp hvs
  have hvalue := h.value hv
  simp only at hvs
  split at hvs
  · cases hvs
    exact List.forall_mem_singleton.mpr hvalue
  · obtain ⟨⟨ws, last⟩, hws, hvs⟩ := bind_eq_ok.mp hvs
    cases hvs
    exact List.forall_mem_cons.mpr ⟨hvalue, h.items hws⟩
  · cases hvs

theorem readsPlain (fuel : Nat) : ReadsPlain fuel := by
  -- values, members and items read each other, always with less fuel
  induction fuel with
  | zero => exact ⟨nofun, nofun, nofun⟩
  | succ fuel ih => exact ⟨ih.value_succ, ih.members_succ, ih.items_succ⟩

theorem isPlain_of_readAll {v : Value} (h : readAll room cs = .ok v) : v.IsPlain := by
  obtain ⟨⟨w, rest⟩, hw, h⟩ := bind_eq_ok.mp h
  simp only at h
  split at h
  · cases h
    exact (readsPlain _).value hw
  · cases h

/-- **What is read from a text is plain data.** -/
theorem isPlain_of_readChars {v : Value} (h : readChars room cs = .ok v) : v.IsPlain := by
  unfold readChars at h
  split at h
  · cases h
  · exact isPlain_of_readAll (mapError_eq_ok.mp h)

theorem isPlain_of_readBytesWithin {s : String} {v : Value} (h : readBytesWithin room s = .ok v) :
    v.IsPlain :=
  isPlain_of_readAll (mapError_eq_ok.mp h)

end SearchWire.Json
