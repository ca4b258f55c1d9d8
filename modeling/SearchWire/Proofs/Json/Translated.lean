import SearchWire.Proofs.Json.RoundTrip

/-!
# Writing with translation

What has no text of its own is translated on the way. Every list, every object and every translation
takes one unit of room, so the height of a value is room enough, and room matters to nothing else.

* `Json.writeWith_atom`, `Json.writeWith_list`, `Json.writeWith_dict`: one equation for each kind of
  values.
* `Json.sameUnless_writeWith`: **with more room the outcome is the same, unless there was too
  little.**
* `Json.writeWith_ne_tooDeep`: **the height of a value is room enough.**
* `Json.writeWith_isJson`: what a text can hold is written as it is without translation.
-/

namespace SearchWire.Json

open Value (Translation heightAll heightAll_le_iff heightEntries_le_iff height_object_le_iff)

variable {translate : Value → Translation} {style : Style} {room room' : Nat}

/-! ## One kind of values after the other -/

/-- An entry with the text of its value. -/
def entryWith (translate : Value → Translation) (style : Style) (room : Nat) (e : Value × Value) :
    Except WriteFault (List Char) :=
  unlessTooLong e.1 (entryText style e.1 (writeWith translate style room e.2))

theorem writeWith_atom {v : Value} (h : isAtom v) :
    writeWith translate style room v = unlessTooLong v (writeAtom style v) := by
  cases room with
  | zero => rw [writeWith, if_pos h]
  | succ room =>
    cases v with
    | null | bool | int | float | str | member => rfl
    | _ => cases h

theorem writeWith_zero {v : Value} (h : ¬ isAtom v) :
    writeWith translate style 0 v = .error .tooDeep := by
  rw [writeWith, if_neg h]

theorem writeWith_list (xs : List Value) :
    writeWith translate style (room + 1) (.list xs) =
      (xs.mapM (writeWith translate style room)).map
        fun texts => '[' :: joinWith style.comma texts ++ [']'] := by
  rw [writeWith]
  cases xs.mapM (writeWith translate style room) <;> rfl

theorem writeWith_tuple (xs : List Value) :
    writeWith translate style (room + 1) (.tuple xs) =
      writeWith translate style (room + 1) (.list xs) := by
  rw [writeWith, writeWith]

theorem writeWith_dict (hstyle : style.sorted = false) (es : Entries) :
    writeWith translate style (room + 1) (.dict es) =
      (es.mapM (entryWith translate style room)).map
        fun texts => '\x7b' :: joinWith style.comma texts ++ ['\x7d'] := by
  have hentries : ∀ es : Entries,
      (es.map fun e => (e.1, entryWith translate style room e)).mapM Prod.snd =
        es.mapM (entryWith translate style room) := by
    intro es
    induction es with
    | nil => rfl
    | cons e es ih => rw [List.map_cons, List.mapM_cons, List.mapM_cons, ih]
  have hwrite : writeWith translate style (room + 1) (.dict es) =
      inOrder style (es.map fun e => (e.1, entryWith translate style room e)) >>= fun entries =>
        entries.mapM Prod.snd >>= fun texts =>
          .ok ('\x7b' :: joinWith style.comma texts ++ ['\x7d']) := by
    rw [writeWith]
    rfl
  rw [hwrite, inOrder, hstyle, ← hentries]
  change (es.map fun e => (e.1, entryWith translate style room e)).mapM Prod.snd >>= _ = _
  cases (es.map fun e => (e.1, entryWith translate style room e)).mapM Prod.snd <;> rfl

/-- A value without parts and without a text. -/
inductive IsOther : Value → Prop
  | bytes (s : String) : IsOther (.bytes s)
  | date (d : Date) : IsOther (.date d)
  | datetime (t : DateTime) : IsOther (.datetime t)
  | duration (d : Duration) : IsOther (.duration d)
  | choice (enumeration label : String) (v : Value) : IsOther (.choice enumeration label v)
  | classRef (name : String) : IsOther (.classRef name)
  | set (xs : List Value) : IsOther (.set xs)
  | record (c : RecordClass) (slots : List (Slot Value)) : IsOther (.record c slots)
  | chain (root : Value) : IsOther (.chain root)

/-- What is written where a value was translated. -/
def writeTranslation (translate : Value → Translation) (style : Style) (room : Nat) :
    Translation → Except WriteFault (List Char)
  | .kept => .error .circular
  | .form w => writeWith translate style room w
  | .failed => .error .untranslated

theorem writeWith_other {v : Value} (h : IsOther v) :
    writeWith translate style (room + 1) v =
      writeTranslation translate style room (translate v) := by
  cases h <;> rfl

/-- The kinds of values. -/
inductive Kind : Value → Prop
  | atom {v : Value} (h : isAtom v) : Kind v
  | list (xs : List Value) : Kind (.list xs)
  | tuple (xs : List Value) : Kind (.tuple xs)
  | dict (es : Entries) : Kind (.dict es)
  | other {v : Value} (h : IsOther v) : Kind v

theorem kind (v : Value) : Kind v := by
  cases v with
  | null | bool | int | float | str | member => exact .atom rfl
  | list xs => exact .list xs
  | tuple xs => exact .tuple xs
  | dict es => exact .dict es
  | _ => exact .other (by constructor)

/-! ## Room -/

theorem SameUnless.unlessTooLong {x y : Except WriteFault (List Char)} (v : Value)
    (h : SameUnless .tooDeep x y) :
    SameUnless .tooDeep (unlessTooLong v x) (unlessTooLong v y) := by
  unfold Json.unlessTooLong
  split
  · exact .refl _ _
  · exact h

theorem SameUnless.entryText {x y : Except WriteFault (List Char)} (k : Value)
    (h : SameUnless .tooDeep x y) :
    SameUnless .tooDeep (entryText style k x) (entryText style k y) := by
  unfold Json.entryText
  split
  · exact .refl _ _
  · exact h.bind fun _ => .refl _ _

/-- **With more room the outcome is the same, unless there was too little.** -/
theorem sameUnless_writeWith (hstyle : style.sorted = false) (hroom : room ≤ room') (v : Value) :
    SameUnless .tooDeep (writeWith translate style room v) (writeWith translate style room' v) := by
  induction room generalizing room' v with
  | zero =>
    by_cases hatom : isAtom v
    · rw [writeWith_atom hatom, writeWith_atom hatom]
      exact .refl _ _
    · exact .inl (writeWith_zero hatom)
  | succ r ih =>
    obtain ⟨r', rfl⟩ : ∃ r', room' = r' + 1 := ⟨room' - 1, by omega⟩
    have hr : r ≤ r' := Nat.le_of_succ_le_succ hroom
    cases kind v with
    | atom h =>
      rw [writeWith_atom h, writeWith_atom h]
      exact .refl _ _
    | list xs =>
      rw [writeWith_list, writeWith_list]
      exact (SameUnless.mapM fun x _ => ih hr x).map _
    | tuple xs =>
      rw [writeWith_tuple, writeWith_tuple, writeWith_list, writeWith_list]
      exact (SameUnless.mapM fun x _ => ih hr x).map _
    | dict es =>
      rw [writeWith_dict hstyle, writeWith_dict hstyle]
      exact (SameUnless.mapM fun e _ =>
        SameUnless.unlessTooLong e.1 (SameUnless.entryText e.1 (ih hr e.2))).map _
    | other h =>
      rw [writeWith_other h, writeWith_other h]
      cases translate v with
      | kept => exact .refl _ _
      | form w => exact ih hr w
      | failed => exact .refl _ _

theorem writeAtom_ne_tooDeep (v : Value) :
    unlessTooLong v (writeAtom style v) ≠ .error .tooDeep := by
  unfold unlessTooLong
  split
  · nofun
  · unfold writeAtom
    repeat' split
    all_goals nofun

theorem entryText_ne_tooDeep {k : Value} {x : Except WriteFault (List Char)}
    (h : x ≠ .error .tooDeep) : unlessTooLong k (entryText style k x) ≠ .error .tooDeep := by
  unfold unlessTooLong entryText
  split
  · nofun
  · split
    · nofun
    · cases x with
      | error e => exact fun he => h (by cases he; rfl)
      | ok text => nofun

/-- **The height of a value is room enough.** -/
theorem writeWith_ne_tooDeep (hstyle : style.sorted = false) {v : Value} (h : v.height ≤ room) :
    writeWith Value.translation style room v ≠ .error .tooDeep := by
  induction room generalizing v with
  | zero =>
    cases kind v with
    | atom hatom =>
      rw [writeWith_atom hatom]
      exact writeAtom_ne_tooDeep v
    | other hother => cases hother <;> cases h
    | _ => cases h
  | succ r ih =>
    cases kind v with
    | atom hatom =>
      rw [writeWith_atom hatom]
      exact writeAtom_ne_tooDeep v
    | list xs =>
      rw [writeWith_list]
      intro he
      obtain ⟨x, hx, he⟩ := exists_error_of_mapM (map_eq_error.1 he)
      exact ih (heightAll_le_iff.1 (Nat.le_of_succ_le_succ h) x hx) he
    | tuple xs =>
      rw [writeWith_tuple, writeWith_list]
      intro he
      obtain ⟨x, hx, he⟩ := exists_error_of_mapM (map_eq_error.1 he)
      exact ih (heightAll_le_iff.1 (Nat.le_of_succ_le_succ h) x hx) he
    | dict es =>
      rw [writeWith_dict hstyle]
      intro he
      obtain ⟨e, hmem, he⟩ := exists_error_of_mapM (map_eq_error.1 he)
      exact entryText_ne_tooDeep
        (ih (heightEntries_le_iff.1 (Nat.le_of_succ_le_succ h) e hmem)) he
    | other hother =>
      rw [writeWith_other hother]
      cases htranslate : v.translation with
      | kept => nofun
      | form w =>
        have hmember : ∀ m, v ≠ .member m := by
          rintro m rfl
          cases hother
        have hlt := Value.height_translation hmember htranslate
        exact ih (by omega)
      | failed => nofun

/-- **With as much room as it takes the outcome is the same, unless there was too little.** -/
theorem writeWith_sameUnless (hstyle : style.sorted = false) (room : Nat) (v : Value) :
    SameUnless .tooDeep (writeWith Value.translation style room v)
      (writeWith Value.translation style v.height v) :=
  SameUnless.of_le (writeWith Value.translation style · v)
    (fun hroom => sameUnless_writeWith hstyle hroom v)
    (writeWith_ne_tooDeep hstyle (Nat.le_refl _)) room

/-! ## Data that needs no translation -/

theorem unlessTooLong_of_length {n : Int} (h : (Decimal.natDigits n.natAbs).length ≤ maxDigits)
    (text : Except WriteFault (List Char)) : unlessTooLong (.int n) text = text := by
  have hlong : isTooLong (.int n) = false := decide_eq_false (Nat.not_lt.2 h)
  rw [unlessTooLong, hlong]
  rfl

theorem writeAll_eq_mapM (vs : List Value) : writeAll style vs = vs.mapM (write style) := by
  induction vs with
  | nil => rfl
  | cons v vs ih =>
    rw [writeAll, ih, List.mapM_cons]
    rfl

theorem mapM_writeEntries (es : Entries) :
    (writeEntries style es).mapM Prod.snd =
      es.mapM fun e => entryText style e.1 (write style e.2) := by
  induction es with
  | nil => rfl
  | cons e es ih =>
    have hcons : writeEntries style (e :: es) =
        (e.1, entryText style e.1 (write style e.2)) :: writeEntries style es := rfl
    rw [hcons, List.mapM_cons, List.mapM_cons, ih]

/-- What a text can hold is written as it is without translation. -/
theorem writeWith_isJson (hstyle : style.sorted = false) {v : Value} (hv : IsJson v)
    (h : v.height ≤ room) : writeWith translate style room v = write style v := by
  induction hv generalizing room with
  | null => exact writeWith_atom rfl
  | bool b => exact writeWith_atom rfl
  | str s => exact writeWith_atom rfl
  | int hn => exact (writeWith_atom rfl).trans (unlessTooLong_of_length hn _)
  | @list vs _ ih =>
    obtain ⟨r, rfl⟩ : ∃ r, room = r + 1 := ⟨room - 1, by rw [Value.height] at h; omega⟩
    have hparts := heightAll_le_iff.1 (Nat.le_of_succ_le_succ h)
    have hitems : vs.mapM (writeWith translate style r) = vs.mapM (write style) :=
      mapM_congr fun v hv => ih v hv (hparts v hv)
    rw [writeWith_list, write, writeAll_eq_mapM, hitems]
    cases vs.mapM (write style) <;> rfl
  | @object fs _ _ ih =>
    obtain ⟨r, rfl⟩ : ∃ r, room = r + 1 :=
      ⟨room - 1, by rw [Fields.object_eq, Value.height] at h; omega⟩
    have hparts := height_object_le_iff.1 h
    have hentries : fs.entries.mapM (entryWith translate style r) =
        fs.entries.mapM fun e => entryText style e.1 (write style e.2) := by
      refine mapM_congr (List.forall_mem_map.2 fun f hf => ?_)
      exact congrArg (entryText style (.str f.1)) (ih f hf (hparts f hf))
    rw [Fields.object_eq, writeWith_dict hstyle, write, inOrder, hstyle, hentries,
      ← mapM_writeEntries]
    simp only [Bool.false_eq_true, if_false, bind, Except.bind]
    cases (writeEntries style fs.entries).mapM Prod.snd <;> rfl

end SearchWire.Json
