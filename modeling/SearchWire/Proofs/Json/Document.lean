import SearchWire.Json.Document
import SearchWire.Proofs.Json.Read
import SearchWire.Proofs.Json.Translated

/-!
# Documents that are read

* `Document.fields?_object`: the fields of an object.
* `Document.isPlain_of_ofText`, `Document.nodup_ofText`: **a document that is given as a text is
  plain data, and its fields have distinct names.**
* `Document.parse_outcome`, `Document.parseWithin_sameUnless`: **with as much room as it takes a
  value is a document or it is refused as one, and room matters to nothing else.**
* `Document.gives_object`, `Document.gives_asText`: **a document is the same as an object, as its
  text and as the bytes of its text.**
-/

namespace SearchWire

namespace Document

/-- The fields of an object are what the object was made from. -/
theorem fields?_object (fs : Fields) : fields? (.object fs) = some fs := by
  rw [Fields.object_eq, fields?]
  induction fs with
  | nil => rfl
  | cons f fs ih =>
    have hcons : Fields.entries (f :: fs) = (.str f.1, f.2) :: Fields.entries fs := rfl
    rw [hcons, List.mapM_cons, ih]
    rfl

theorem object_injective {fs gs : Fields} (h : Value.object fs = .object gs) : fs = gs := by
  have hfields := congrArg fields? h
  rw [fields?_object, fields?_object] at hfields
  exact Option.some.inj hfields

theorem asObject_object (what : String) (fs : Fields) : asObject what (.object fs) = .ok fs := by
  rw [asObject, fields?_object]

theorem nodup_of_isObject {fs : Fields} (h : (Value.object fs).IsObject) : fs.names.Nodup := by
  obtain ⟨gs, hnames, heq⟩ := h
  exact object_injective heq ▸ hnames

theorem isPlain_of_asObject {what : String} {v : Value} {fs : Fields} (hv : v.IsPlain)
    (h : asObject what v = .ok fs) : (Value.object fs).IsPlain := by
  cases hv with
  | object hnames hvalues =>
    rw [asObject_object] at h
    cases h
    exact .object hnames hvalues
  | _ => cases h

theorem isPlain_of_ofReading {what : String} {x : Except Json.Fault Value} {fs : Fields}
    (hx : ∀ v, x = .ok v → v.IsPlain) (h : ofReading what x = .ok fs) :
    (Value.object fs).IsPlain := by
  obtain ⟨v, hv, h⟩ := bind_eq_ok.1 h
  exact isPlain_of_asObject (hx v (mapError_eq_ok.1 hv)) h

/-- A document that is given as a text is plain data. -/
theorem isPlain_of_ofText {what s : String} {fs : Fields} (h : ofText what s = .ok fs) :
    (Value.object fs).IsPlain :=
  isPlain_of_ofReading (fun _ => Json.isPlain_of_readChars) h

/-- **The fields of a document that is given as a text have distinct names.** -/
theorem nodup_ofText {what s : String} {fs : Fields} (h : ofText what s = .ok fs) :
    fs.names.Nodup :=
  nodup_of_isObject (isPlain_of_ofText h).isObject

/-! ## Room -/

/-- What was read is a document, or it is refused as one. -/
theorem ofReading_outcome (what : String) {x : Except Json.Fault Value}
    (hx : x ≠ .error .tooDeep) : (∃ fs, ofReading what x = .ok fs) ∨
      ∃ e, ofReading what x = .error e ∧ e.category = .document := by
  cases x with
  | error fault =>
    refine .inr ⟨_, rfl, ?_⟩
    cases fault with
    | tooDeep => exact absurd rfl hx
    | _ => rfl
  | ok v =>
    have hobject : ofReading what (.ok v) = asObject what v := rfl
    rw [hobject, asObject]
    cases fields? v with
    | none => exact .inr ⟨_, rfl, rfl⟩
    | some fs => exact .inl ⟨fs, rfl⟩

theorem written_outcome (what : String) {room : Nat} {es : Entries}
    (h : Json.writeWith Value.translation .document room (.dict es) ≠ .error .tooDeep) :
    (∃ text, written room what es = .ok text) ∨
      ∃ e, written room what es = .error e ∧ e.category = .document := by
  unfold written
  cases hwrite : Json.writeWith Value.translation .document room (.dict es) with
  | ok text => exact .inl ⟨text, rfl⟩
  | error fault =>
    refine .inr ⟨_, rfl, ?_⟩
    cases fault with
    | tooDeep => exact absurd hwrite h
    | _ => rfl

/-- **With as much room as it takes a value is a document, or it is refused as one.** -/
theorem parse_outcome (what : String) (v : Value) : (∃ d, parse what v = .ok d) ∨
    ∃ e, parse what v = .error e ∧ e.category = .document := by
  have hreading : ∀ {x : Except Json.Fault Value}, x ≠ .error .tooDeep →
      (∃ d, (ofReading what x).map some = .ok d) ∨
        ∃ e, (ofReading what x).map some = .error e ∧ e.category = .document := by
    intro x hx
    rcases ofReading_outcome what hx with ⟨fs, h⟩ | ⟨e, h, he⟩
    · exact .inl ⟨some fs, by rw [h]; rfl⟩
    · exact .inr ⟨e, by rw [h]; rfl, he⟩
  have htext : ∀ cs : List Char, Json.readChars cs.length cs ≠ .error .tooDeep :=
    fun cs => Json.readChars_ne_tooDeep (Json.nesting_le cs)
  unfold parse parseWithin
  split
  · exact .inl ⟨none, rfl⟩
  · next es =>
    have hunsorted : Json.Style.document.sorted = false := rfl
    have hwrite := Json.writeWith_ne_tooDeep hunsorted (Nat.le_refl (Value.dict es).height)
    rcases written_outcome what hwrite with ⟨text, h⟩ | ⟨e, h, he⟩
    · rw [Option.getD_none, h]
      exact hreading (htext text)
    · rw [Option.getD_none, h]
      exact .inr ⟨e, rfl, he⟩
  · next s => exact hreading (String.length_toList ▸ htext s.toList)
  · next m => exact hreading (String.length_toList ▸ htext m.value.toList)
  · exact hreading (Json.readBytesWithin_ne_tooDeep (Nat.le_refl _))
  · exact .inr ⟨_, rfl, rfl⟩

/-- **With less room the outcome is the same, unless there was too little.** -/
theorem parseWithin_sameUnless (room : Nat) (what : String) (v : Value) :
    SameUnless .tooDeep (parseWithin (some room) what v) (parse what v) := by
  have hreading : ∀ {x y : Except Json.Fault Value}, SameUnless .tooDeep x y →
      SameUnless .tooDeep ((ofReading what x).map some) ((ofReading what y).map some) :=
    fun h => ((h.mapError _).bind fun _ => .refl _ _).map some
  unfold parse parseWithin
  split
  · exact .refl _ _
  · next es =>
    have hunsorted : Json.Style.document.sorted = false := rfl
    have hwrite := (Json.writeWith_sameUnless hunsorted room (.dict es)).mapError
      fun fault => refusal what (.unwritten fault)
    exact hwrite.bind fun text => hreading (Json.readChars_sameUnless room text)
  · exact hreading (Json.readWithin_sameUnless room _)
  · exact hreading (Json.readWithin_sameUnless room _)
  · exact hreading (Json.readBytesWithin_sameUnless room _)
  · exact .refl _ _

/-! ## Objects and their texts -/

/-- A value gives a document, whatever that is called. -/
def Gives (w : Value) (fs : Fields) : Prop := ∀ what, parse what w = .ok (some fs)

/-- A text as a document is given by it: as the text itself, or as its bytes. -/
inductive AsText (s : String) : Value → Prop
  | text : AsText s (.str s)
  | bytes : AsText s (.bytes s)

variable {fs : Fields} {style : Json.Style} {text : List Char} {w : Value}

theorem names_of_isJson (h : Json.IsJson (.object fs)) : fs.names.Nodup := by
  generalize hv : Value.object fs = v at h
  cases h with
  | object hnames _ => exact object_injective hv ▸ hnames
  | _ => cases hv

theorem ofReading_object {what : String} {x : Except Json.Fault Value}
    (h : x = .ok (.object fs)) : ofReading what x = .ok fs := by
  rw [h]
  exact asObject_object what fs

theorem keeps_document : Json.Style.document.Keeps := by
  have hblank : ∀ c ∈ [' '], Json.isSpace c := List.forall_mem_singleton.2 rfl
  exact ⟨⟨[' '], rfl, hblank⟩, ⟨[' '], rfl, hblank⟩, rfl⟩

/-- An object gives itself. -/
theorem gives_object (h : Json.IsJson (.object fs)) : Gives (.object fs) fs := by
  intro what
  obtain ⟨text, htext, hreads⟩ := Json.exists_write keeps_document h
  have hwritten : written (Value.object fs).height what fs.entries = .ok text := by
    rw [written, ← Fields.object_eq, Json.writeWith_isJson rfl h (Nat.le_refl _), htext]
    rfl
  rw [parse, Fields.object_eq, parseWithin]
  simp only [Option.getD_none]
  rw [← Fields.object_eq, hwritten]
  exact congrArg (Except.map some) (ofReading_object hreads.readChars_length)

theorem ofText_write (hstyle : style.Keeps) (h : Json.IsJson (.object fs))
    (htext : Json.write style (.object fs) = .ok text) (what : String) :
    ofText what (String.ofList text) = .ok fs :=
  ofReading_object (Json.read_write hstyle h htext).1

/-- The text of an object gives the object, and so do its bytes. -/
theorem gives_asText (hstyle : style.Keeps) (h : Json.IsJson (.object fs))
    (htext : Json.write style (.object fs) = .ok text) (hw : AsText (String.ofList text) w) :
    Gives w fs := by
  intro what
  obtain ⟨hread, hbytes⟩ := Json.read_write hstyle h htext
  cases hw with
  | text => exact congrArg (Except.map some) (ofReading_object hread)
  | bytes => exact congrArg (Except.map some) (ofReading_object hbytes)

end Document

end SearchWire
