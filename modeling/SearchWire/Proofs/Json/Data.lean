import SearchWire.Proofs.Json.Document

/-!
# Documents are plain data

What is read from a text is plain data. So a document that is part of a request is sent as it was
read.

* `Document.isPlain_of_parseWithin`, `Document.parseObject_ok`: **a document is plain data, and its
  own wire form.**
* `Document.yields_parse`, `Document.yields_parseObject`: only `null` is no document, and what
  cannot be read is refused as a document.
-/

namespace SearchWire

namespace Document

/-- **A document is plain data.** -/
theorem isPlain_of_parseWithin {room : Option Nat} {what : String} {v : Value} {fs : Fields}
    (h : parseWithin room what v = .ok (some fs)) : (Value.object fs).IsPlain := by
  have hreading : ∀ {x : Except Json.Fault Value}, (∀ w, x = .ok w → w.IsPlain) →
      (ofReading what x).map some = .ok (some fs) → (Value.object fs).IsPlain := by
    intro x hx h
    obtain ⟨gs, hgs, heq⟩ := map_eq_ok.mp h
    cases heq
    exact isPlain_of_ofReading hx hgs
  unfold parseWithin at h
  split at h
  · cases h
  · obtain ⟨s, -, h⟩ := bind_eq_ok.mp h
    exact hreading (fun _ => Json.isPlain_of_readChars) h
  · exact hreading (fun _ => Json.isPlain_of_readChars) h
  · exact hreading (fun _ => Json.isPlain_of_readChars) h
  · exact hreading (fun _ => Json.isPlain_of_readBytesWithin) h
  · cases h

/-- A document is `null` or an object that is its own wire form. -/
theorem parseObject_ok {what : String} {v w : Value} (h : parseObject what v = .ok w) :
    w = .null ∨ w.IsObject ∧ w.wireForm = w := by
  obtain ⟨fs, hfs, h⟩ := bind_eq_ok.mp h
  cases fs with
  | none =>
    cases h
    exact .inl rfl
  | some fs =>
    cases h
    have hplain := isPlain_of_parseWithin hfs
    exact .inr ⟨hplain.isObject, hplain.wireForm⟩

/-! ## What is no document -/

section Failures

variable (what : String)

theorem neverRejects_asObject (v : Value) : NeverRejects (asObject what v) := by
  unfold asObject
  split
  · trivial
  · nofun

theorem category_refusal (fault : DocumentFault) : (refusal what fault).category ≠ .validation := by
  unfold refusal
  split <;> nofun

theorem neverRejects_ofReading (x : Except Json.Fault Value) : NeverRejects (ofReading what x) := by
  cases x with
  | ok v => exact neverRejects_asObject what v
  | error fault => exact category_refusal what _

theorem neverRejects_written (room : Nat) (es : Entries) : NeverRejects (written room what es) := by
  unfold written
  cases Json.writeWith Value.translation .document room (.dict es) with
  | ok text => trivial
  | error fault => exact category_refusal what _

/-- Only `null` is no document. -/
theorem yields_parse (v : Value) : Yields (fun d => d = none → v = .null) (parse what v) := by
  have hreading : ∀ {P : Prop} (x : Except Json.Fault Value),
      Yields (fun d => d = none → P) ((ofReading what x).map some) :=
    fun x => .map ((neverRejects_ofReading what x).imp fun _ _ => nofun)
  unfold parse parseWithin
  split
  · exact fun _ => rfl
  · exact (neverRejects_written what _ _).bind fun s _ => hreading _
  · exact hreading _
  · exact hreading _
  · exact hreading _
  · nofun

theorem yields_parseObject (v : Value) :
    Yields (fun w => w.IsObject ∨ w = .null ∧ v = .null) (parseObject what v) := by
  have hmade : NeverRejects (parseObject what v) := by
    refine (yields_parse what v).bind fun d _ => ?_
    cases d with
    | none => trivial
    | some fs => trivial
  refine hmade.of_ok fun w h => ?_
  obtain ⟨d, hd, hw⟩ := bind_eq_ok.mp h
  rcases parseObject_ok h with rfl | ⟨hobject, -⟩
  · refine .inr ⟨rfl, ?_⟩
    have hnone := yields_parse what v
    rw [hd] at hnone
    cases d with
    | none => exact hnone rfl
    | some fs => cases hw
  · exact .inl hobject

end Failures

end Document

end SearchWire
