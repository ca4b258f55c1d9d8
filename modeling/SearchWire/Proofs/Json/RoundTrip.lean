import SearchWire.Proofs.Json.Depth
import SearchWire.Proofs.Json.Number
import SearchWire.Proofs.Json.Text
import SearchWire.Proofs.Value.Height

/-!
# Reading written values

A value without numbers in floating point, without long integers and with distinct names in its
objects is read back as it was written, in every style that keeps the order of the entries.

* `Json.IsJson`: such values.
* `Json.Style.Keeps`: such styles; the compact one is among them.
* `Json.Reads`: a text that is read as a value, whatever stands behind it, with some room.
* `Json.reads_int`, `Json.reads_str`, `Json.reads_list`, `Json.reads_object`: one lemma for each
  kind of values.
* `Json.exists_write`: **every such value is written, as a text that is read as the value.**
* `Json.read_write`: the same for whole texts, and for their bytes.
-/

namespace SearchWire.Json

open Value (heightAll_le_iff height_object_le_iff heightAll)

/-- Values that a text can hold as they are. Objects have distinct names, and integers no more
digits than the reader takes. -/
inductive IsJson : Value → Prop
  | null : IsJson .null
  | bool (b : Bool) : IsJson (.bool b)
  | int {n : Int} (h : (Decimal.natDigits n.natAbs).length ≤ maxDigits) : IsJson (.int n)
  | str (s : String) : IsJson (.str s)
  | list {vs : List Value} (h : ∀ v ∈ vs, IsJson v) : IsJson (.list vs)
  | object {fs : Fields} (hnames : fs.names.Nodup) (h : ∀ f ∈ fs, IsJson f.2) :
      IsJson (.object fs)

/-- A style that keeps the order of entries, with nothing but blanks after commas and colons. -/
structure Style.Keeps (style : Style) : Prop where
  comma : ∃ blanks, style.comma = ',' :: blanks ∧ ∀ c ∈ blanks, isSpace c
  colon : ∃ blanks, style.colon = ':' :: blanks ∧ ∀ c ∈ blanks, isSpace c
  unsorted : style.sorted = false

theorem Style.keeps_compact : Style.compact.Keeps :=
  ⟨⟨[], rfl, nofun⟩, ⟨[], rfl, nofun⟩, rfl⟩

/-! ## The start of a text -/

/-- A character with which a value or an entry may start. -/
def Opens (c : Char) : Prop := isSpace c = false ∧ c ≠ ']' ∧ c ≠ '\x7d' ∧ c ≠ byteOrderMark

instance (c : Char) : Decidable (Opens c) := inferInstanceAs (Decidable (_ ∧ _))

theorem Opens.of_isDigit {c : Char} (h : c.isDigit) : Opens c := by
  have hspace : isSpace c = false := by
    rw [← Bool.not_eq_true]
    intro hspace
    simp only [isSpace, Bool.or_eq_true, beq_iff_eq] at hspace
    rcases hspace with ((rfl | rfl) | rfl) | rfl <;> contradiction
  refine ⟨hspace, ?_, ?_, ?_⟩
  all_goals
    rintro rfl
    contradiction

theorem skipSpace_cons {c : Char} (h : isSpace c = false) (cs : List Char) :
    skipSpace (c :: cs) = c :: cs := by
  simp [skipSpace, h]

theorem skipSpace_blanks {blanks : List Char} (hblanks : ∀ c ∈ blanks, isSpace c) {c : Char}
    (h : isSpace c = false) (cs : List Char) : skipSpace (blanks ++ c :: cs) = c :: cs := by
  rw [skipSpace, List.dropWhile_append_of_pos hblanks]
  exact skipSpace_cons h cs

variable {style : Style} {text rest : List Char} {texts : List (List Char)} {v : Value}
  {vs : List Value} {fs : Fields} {depth fuel room : Nat}

/-- A text that is read as a value with some room, whatever stands behind it, unless that goes on as
a number. -/
structure Reads (depth : Nat) (text : List Char) (v : Value) : Prop where
  opens : ∃ c cs, text = c :: cs ∧ Opens c
  reads : ∀ {fuel room rest}, text.length < fuel → depth ≤ room → Ends rest →
    readValue fuel room (text ++ rest) = .ok (v, rest)

theorem Reads.mono {depth' : Nat} (h : Reads depth text v) (hle : depth ≤ depth') :
    Reads depth' text v where
  opens := h.opens
  reads := fun hfuel hroom => h.reads hfuel (Nat.le_trans hle hroom)

/-! ## Atoms -/

theorem readValue_atom {c : Char} (hquote : c ≠ '"') (hbrace : c ≠ '\x7b') (hbracket : c ≠ '[')
    (cs : List Char) : readValue (fuel + 1) room (c :: cs) = readAtom (c :: cs) := by
  rw [readValue]
  all_goals
    intro rest heq
    cases heq
    contradiction

theorem reads_atom {c : Char} {cs : List Char} (hc : Opens c)
    (hstart : c ≠ '"' ∧ c ≠ '\x7b' ∧ c ≠ '[')
    (h : ∀ rest, Ends rest → readAtom (c :: cs ++ rest) = .ok (v, rest)) :
    Reads 0 (c :: cs) v where
  opens := ⟨c, cs, rfl, hc⟩
  reads := by
    intro fuel room rest hfuel _ hrest
    obtain ⟨k, rfl⟩ : ∃ k, fuel = k + 1 := ⟨fuel - 1, by omega⟩
    exact (readValue_atom hstart.1 hstart.2.1 hstart.2.2 _).trans (h rest hrest)

theorem reads_null : Reads 0 "null".toList .null :=
  reads_atom (by decide) (by decide) fun _ _ => rfl

theorem reads_bool (b : Bool) : Reads 0 (if b then "true" else "false").toList (.bool b) := by
  cases b with
  | true => exact reads_atom (by decide) (by decide) fun _ _ => rfl
  | false => exact reads_atom (by decide) (by decide) fun _ _ => rfl

/-- What is no word is a number. -/
theorem readAtom_eq_readNumber {cs : List Char} (h : ∀ w ∈ wordValues, afterWord? w.1 cs = none) :
    readAtom cs = readNumber cs := by
  unfold readAtom
  split
  · next step hstep =>
    obtain ⟨w, hw, hrest⟩ := List.exists_of_findSome?_eq_some hstep
    obtain ⟨rest, hafter, -⟩ := Option.map_eq_some_iff.1 hrest
    rw [h w hw] at hafter
    cases hafter
  · rfl

/-- No word starts with a digit, and none has a digit after a minus. -/
theorem readAtom_digit {d : Char} (hd : d.isDigit) (cs : List Char) :
    readAtom (d :: cs) = readNumber (d :: cs) ∧
      readAtom ('-' :: d :: cs) = readNumber ('-' :: d :: cs) := by
  have hne : ∀ c : Char, c.isDigit = false → c ≠ d := by
    rintro c hc rfl
    rw [hd] at hc
    cases hc
  have hwords : ∀ w ∈ wordValues, afterWord? w.1 (d :: cs) = none ∧
      afterWord? w.1 ('-' :: d :: cs) = none := by
    simp [wordValues, afterWord?, hne]
  exact ⟨readAtom_eq_readNumber fun w hw => (hwords w hw).1,
    readAtom_eq_readNumber fun w hw => (hwords w hw).2⟩

/-- A minus sign, if there is one. -/
def minus (negative : Bool) : List Char := if negative then ['-'] else []

/-- A text that starts with a digit, maybe after a minus, is read as a number. -/
theorem reads_number {d : Char} {ds : List Char} {negative : Bool} (hd : d.isDigit)
    (h : ∀ rest, Ends rest →
      readNumber (minus negative ++ (d :: ds ++ rest)) = .ok (v, rest)) :
    Reads 0 (minus negative ++ d :: ds) v := by
  cases negative with
  | true =>
    refine reads_atom (by decide) (by decide) ?_
    intro rest hrest
    exact (readAtom_digit hd _).2.trans (h rest hrest)
  | false =>
    have hstart : d ≠ '"' ∧ d ≠ '\x7b' ∧ d ≠ '[' := by
      refine ⟨?_, ?_, ?_⟩
      all_goals
        rintro rfl
        contradiction
    refine reads_atom (.of_isDigit hd) hstart ?_
    intro rest hrest
    exact (readAtom_digit hd _).1.trans (h rest hrest)

/-- Integers that are short enough are read as they are written. -/
theorem reads_int {n : Int} (h : (Decimal.natDigits n.natAbs).length ≤ maxDigits) :
    Reads 0 (Decimal.intDigits n) (.int n) := by
  obtain ⟨d, ds, hds⟩ : ∃ d ds, Decimal.natDigits n.natAbs = d :: ds :=
    List.exists_cons_of_ne_nil Nat.toDigits_ne_nil
  have hd : d.isDigit := Decimal.isDigit_of_mem_natDigits (n := n.natAbs) (by simp [hds])
  have htext : Decimal.intDigits n = minus (decide (n < 0)) ++ d :: ds := by
    rw [Decimal.intDigits, hds, minus]
    by_cases hneg : n < 0 <;> simp [hneg]
  have hnumber : ∀ rest, Ends rest →
      readNumber (Decimal.intDigits n ++ rest) = .ok (.int n, rest) :=
    fun rest hrest => readNumber_intDigits h hrest
  rw [htext] at hnumber ⊢
  refine reads_number hd fun rest hrest => ?_
  rw [← List.append_assoc]
  exact hnumber rest hrest

theorem reads_str (ascii : Bool) (s : String) : Reads 0 (writeString ascii s) (.str s) where
  opens := ⟨_, _, rfl, by decide⟩
  reads := by
    intro fuel room rest hfuel _ _
    obtain ⟨k, rfl⟩ : ∃ k, fuel = k + 1 := ⟨fuel - 1, by omega⟩
    rw [writeString, List.cons_append, List.cons_append, List.append_assoc, readValue]
    simp only [List.singleton_append, readString_writeString]
    exact congrArg (fun s => Except.ok (Value.str s, rest)) String.ofList_toList

/-! ## Items -/

theorem Ends.cons {c : Char} (h : c.isDigit = false ∧ c ≠ '.' ∧ c ≠ 'e' ∧ c ≠ 'E')
    (cs : List Char) : Ends (c :: cs) := by
  intro d hd
  cases hd
  exact h

theorem joinWith_cons_cons (separator t u : List Char) (ts : List (List Char)) :
    joinWith separator (t :: u :: ts) = t ++ (separator ++ joinWith separator (u :: ts)) :=
  List.append_assoc t separator _

/-- Joined texts start as the first of them. -/
theorem exists_joinWith (separator : List Char) {t : List Char} (ts : List (List Char))
    (h : ∃ c cs, t = c :: cs ∧ Opens c) :
    ∃ c cs, joinWith separator (t :: ts) = c :: cs ∧ Opens c := by
  obtain ⟨c, cs, rfl, hc⟩ := h
  cases ts with
  | nil => exact ⟨c, cs, rfl, hc⟩
  | cons u ts => exact ⟨c, _, rfl, hc⟩

theorem readItems_last (hitem : Reads depth text v) (hfuel : text.length < fuel)
    (hroom : depth ≤ room) (rest : List Char) :
    readItems (fuel + 1) room (text ++ ']' :: rest) = .ok ([v], rest) := by
  have hread : readValue fuel room (text ++ ']' :: rest) = .ok (v, ']' :: rest) :=
    hitem.reads hfuel hroom (.cons (by decide) rest)
  rw [readItems, hread]
  rfl

theorem readItems_comma (hitem : Reads depth text v) (hfuel : text.length < fuel)
    (hroom : depth ≤ room) (rest : List Char) :
    readItems (fuel + 1) room (text ++ ',' :: rest) =
      readItems fuel room (skipSpace rest) >>= fun step => .ok (v :: step.1, step.2) := by
  have hread : readValue fuel room (text ++ ',' :: rest) = .ok (v, ',' :: rest) :=
    hitem.reads hfuel hroom (.cons (by decide) rest)
  rw [readItems, hread]
  rfl

/-- Texts that are read as values are read as the items of a list. -/
theorem readItems_joinWith (rest : List Char) {blanks : List Char}
    (hblanks : ∀ c ∈ blanks, isSpace c) {parts : List (List Char × Value)}
    (hparts : ∀ p ∈ parts, Reads depth p.1 p.2) (hne : parts ≠ []) (hroom : depth ≤ room)
    (hfuel : (joinWith (',' :: blanks) (parts.map Prod.fst)).length + 1 < fuel) :
    readItems fuel room (joinWith (',' :: blanks) (parts.map Prod.fst) ++ ']' :: rest) =
      .ok (parts.map Prod.snd, rest) := by
  induction parts generalizing fuel with
  | nil => contradiction
  | cons p parts ih =>
    obtain ⟨hp, hparts⟩ := List.forall_mem_cons.1 hparts
    obtain ⟨k, rfl⟩ : ∃ k, fuel = k + 1 := ⟨fuel - 1, by omega⟩
    cases parts with
    | nil =>
      simp only [List.map_cons, List.map_nil, joinWith] at hfuel ⊢
      exact readItems_last hp (by omega) hroom rest
    | cons q parts =>
      obtain ⟨c, cs, hjoin, hc⟩ := exists_joinWith (',' :: blanks) (parts.map Prod.fst)
        (hparts q List.mem_cons_self).opens
      simp only [List.map_cons, joinWith_cons_cons, List.length_append, List.length_cons]
        at hfuel ih ⊢
      -- an item and its comma take a character for each unit of fuel
      have hlength : (joinWith (',' :: blanks) (q.1 :: parts.map Prod.fst)).length + 1 < k := by
        omega
      have hitems := ih hparts (by simp) hlength
      rw [hjoin] at hitems ⊢
      simp only [List.append_assoc, List.cons_append] at hitems ⊢
      rw [readItems_comma hp (by omega) hroom, skipSpace_blanks hblanks hc.1, hitems]
      rfl

/-! ## Members -/

/-- The text of a member from the text of its value. -/
def memberText (style : Style) (name : String) (text : List Char) : List Char :=
  writeString style.ascii name ++ style.colon ++ text

/-- A member starts with its name and a colon; what comes then is read as its value. -/
theorem memberText_append (hstyle : style.Keeps) (name : String) (hvalue : Reads depth text v)
    (hfuel : text.length < fuel) (hroom : depth ≤ room) (hrest : Ends rest) :
    ∃ tail, readValue fuel room (skipSpace tail) = .ok (v, rest) ∧
      memberText style name text ++ rest =
        '"' :: (name.toList.flatMap (writeChar style.ascii) ++ '"' :: ':' :: tail) := by
  obtain ⟨blanks, hcolon, hblanks⟩ := hstyle.colon
  have hread := hvalue.reads hfuel hroom hrest
  obtain ⟨c, cs, rfl, hc⟩ := hvalue.opens
  refine ⟨blanks ++ c :: (cs ++ rest), ?_, by simp [memberText, writeString, hcolon]⟩
  rw [skipSpace_blanks hblanks hc.1]
  exact hread

theorem readMembers_last (hstyle : style.Keeps) (name : String) (hvalue : Reads depth text v)
    (hfuel : text.length < fuel) (hroom : depth ≤ room) (rest : List Char) :
    readMembers (fuel + 1) room (memberText style name text ++ '\x7d' :: rest) =
      .ok ([(name, v)], rest) := by
  have hends : Ends ('\x7d' :: rest) := .cons (by decide) rest
  obtain ⟨tail, hread, htext⟩ := memberText_append hstyle name hvalue hfuel hroom hends
  rw [htext, readMembers, readString_writeString]
  simp only [bind, Except.bind]
  rw [skipSpace_cons rfl]
  simp only [hread, String.ofList_toList]
  rfl

theorem readMembers_comma (hstyle : style.Keeps) (name : String) (hvalue : Reads depth text v)
    (hfuel : text.length < fuel) (hroom : depth ≤ room) (rest : List Char) :
    readMembers (fuel + 1) room (memberText style name text ++ ',' :: rest) =
      readMembers fuel room (skipSpace rest) >>= fun step => .ok ((name, v) :: step.1, step.2) := by
  have hends : Ends (',' :: rest) := .cons (by decide) rest
  obtain ⟨tail, hread, htext⟩ := memberText_append hstyle name hvalue hfuel hroom hends
  rw [htext, readMembers, readString_writeString]
  simp only [bind, Except.bind]
  rw [skipSpace_cons rfl]
  simp only [hread, String.ofList_toList]
  rfl

theorem exists_memberText (style : Style) (name : String) (text : List Char) :
    ∃ c cs, memberText style name text = c :: cs ∧ Opens c :=
  ⟨'"', _, rfl, by decide⟩

/-- Texts of members are read as the members of an object. -/
theorem readMembers_joinWith (hstyle : style.Keeps) (rest : List Char) {blanks : List Char}
    (hblanks : ∀ c ∈ blanks, isSpace c) {parts : List (List Char × String × Value)}
    (hparts : ∀ p ∈ parts, Reads depth p.1 p.2.2) (hne : parts ≠ []) (hroom : depth ≤ room)
    (hfuel : (joinWith (',' :: blanks) (parts.map fun p => memberText style p.2.1 p.1)).length + 1 <
      fuel) :
    readMembers fuel room (joinWith (',' :: blanks)
        (parts.map fun p => memberText style p.2.1 p.1) ++ '\x7d' :: rest) =
      .ok (parts.map Prod.snd, rest) := by
  induction parts generalizing fuel with
  | nil => contradiction
  | cons p parts ih =>
    obtain ⟨hp, hparts⟩ := List.forall_mem_cons.1 hparts
    obtain ⟨k, rfl⟩ : ∃ k, fuel = k + 1 := ⟨fuel - 1, by omega⟩
    -- fuel for the member is enough for its value
    have hlonger : p.1.length < (memberText style p.2.1 p.1).length := by
      simp [memberText, writeString]
      omega
    cases parts with
    | nil =>
      simp only [List.map_cons, List.map_nil, joinWith] at hfuel ⊢
      exact readMembers_last hstyle _ hp (by omega) hroom rest
    | cons q parts =>
      obtain ⟨c, cs, hjoin, hc⟩ := exists_joinWith (',' :: blanks)
        (parts.map fun p => memberText style p.2.1 p.1) (exists_memberText style q.2.1 q.1)
      simp only [List.map_cons, joinWith_cons_cons, List.length_append, List.length_cons]
        at hfuel ih ⊢
      have hlength : (joinWith (',' :: blanks) (memberText style q.2.1 q.1 ::
          parts.map fun p => memberText style p.2.1 p.1)).length + 1 < k := by
        omega
      have hmembers := ih hparts (by simp) hlength
      rw [hjoin] at hmembers ⊢
      simp only [List.append_assoc, List.cons_append] at hmembers ⊢
      rw [readMembers_comma hstyle _ hp (by omega) hroom, skipSpace_blanks hblanks hc.1, hmembers]
      rfl

/-! ## Values -/

/-- A list whose first item follows the bracket. -/
theorem readValue_bracket {c : Char} (hc : Opens c) (cs : List Char) :
    readValue (fuel + 1) (room + 1) ('[' :: c :: cs) =
      (readItems fuel room (c :: cs)).map fun step => (.list step.1, step.2) := by
  rw [readValue, skipSpace_cons hc.1]
  simp only [enter, bind, Except.bind]
  split
  · next heq =>
    cases heq
    exact absurd rfl hc.2.1
  · cases readItems fuel room (c :: cs) <;> rfl

/-- An object whose first member follows the brace. -/
theorem readValue_brace {c : Char} (hc : Opens c) (cs : List Char) :
    readValue (fuel + 1) (room + 1) ('\x7b' :: c :: cs) =
      (readMembers fuel room (c :: cs)).map
        fun step => (.object (Fields.ofList step.1), step.2) := by
  rw [readValue, skipSpace_cons hc.1]
  simp only [enter, bind, Except.bind]
  split
  · next heq =>
    cases heq
    exact absurd rfl hc.2.2.1
  · cases readMembers fuel room (c :: cs) <;> rfl

/-- A list is read from the texts of its items. -/
theorem reads_list (hstyle : style.Keeps) {parts : List (List Char × Value)}
    (hparts : ∀ p ∈ parts, Reads depth p.1 p.2) :
    Reads (depth + 1) ('[' :: joinWith style.comma (parts.map Prod.fst) ++ [']'])
      (.list (parts.map Prod.snd)) where
  opens := ⟨'[', _, rfl, by decide⟩
  reads := by
    intro fuel room rest hfuel hroom _
    obtain ⟨blanks, hcomma, hblanks⟩ := hstyle.comma
    obtain ⟨k, rfl⟩ : ∃ k, fuel = k + 1 := ⟨fuel - 1, by omega⟩
    obtain ⟨r, rfl⟩ : ∃ r, room = r + 1 := ⟨room - 1, by omega⟩
    rw [hcomma] at hfuel ⊢
    rw [List.cons_append, List.cons_append, List.append_assoc, List.singleton_append]
    cases parts with
    | nil => rfl
    | cons p parts =>
      obtain ⟨c, cs, hjoin, hc⟩ := exists_joinWith (',' :: blanks) (parts.map Prod.fst)
        (hparts p List.mem_cons_self).opens
      have hlength : (joinWith (',' :: blanks) ((p :: parts).map Prod.fst)).length + 1 < k := by
        simp only [List.length_append, List.length_cons, List.length_nil] at hfuel
        omega
      have hitems := readItems_joinWith rest hblanks hparts (by simp)
        (Nat.le_of_succ_le_succ hroom) hlength
      rw [List.map_cons, hjoin, List.cons_append] at hitems ⊢
      rw [readValue_bracket hc, hitems]
      rfl

/-- An object is read from the texts of its members. -/
theorem reads_object (hstyle : style.Keeps) {parts : List (List Char × String × Value)}
    (hparts : ∀ p ∈ parts, Reads depth p.1 p.2.2) :
    Reads (depth + 1)
      ('\x7b' :: joinWith style.comma (parts.map fun p => memberText style p.2.1 p.1) ++ ['\x7d'])
      (.object (Fields.ofList (parts.map Prod.snd))) where
  opens := ⟨'\x7b', _, rfl, by decide⟩
  reads := by
    intro fuel room rest hfuel hroom _
    obtain ⟨blanks, hcomma, hblanks⟩ := hstyle.comma
    obtain ⟨k, rfl⟩ : ∃ k, fuel = k + 1 := ⟨fuel - 1, by omega⟩
    obtain ⟨r, rfl⟩ : ∃ r, room = r + 1 := ⟨room - 1, by omega⟩
    rw [hcomma] at hfuel ⊢
    rw [List.cons_append, List.cons_append, List.append_assoc, List.singleton_append]
    cases parts with
    | nil => rfl
    | cons p parts =>
      obtain ⟨c, cs, hjoin, hc⟩ := exists_joinWith (',' :: blanks)
        (parts.map fun p => memberText style p.2.1 p.1) (exists_memberText style p.2.1 p.1)
      have hlength : (joinWith (',' :: blanks)
          ((p :: parts).map fun p => memberText style p.2.1 p.1)).length + 1 < k := by
        simp only [List.length_append, List.length_cons, List.length_nil] at hfuel
        omega
      have hmembers := readMembers_joinWith hstyle rest hblanks hparts (by simp)
        (Nat.le_of_succ_le_succ hroom) hlength
      rw [List.map_cons, hjoin, List.cons_append] at hmembers ⊢
      rw [readValue_brace hc, hmembers]
      rfl

/-! ## Writing and reading -/

/-- Texts, or texts with more, for the items of a list, one for each. -/
theorem exists_texts {α β : Type} {P : β → α → Prop} {as : List α}
    (h : ∀ a ∈ as, ∃ text, P text a) :
    ∃ parts : List (β × α), parts.map Prod.snd = as ∧ ∀ p ∈ parts, P p.1 p.2 := by
  induction as with
  | nil => exact ⟨[], rfl, nofun⟩
  | cons a as ih =>
    obtain ⟨⟨text, htext⟩, has⟩ := List.forall_mem_cons.1 h
    obtain ⟨parts, rfl, hparts⟩ := ih has
    exact ⟨(text, a) :: parts, rfl, List.forall_mem_cons.2 ⟨htext, hparts⟩⟩

theorem writeAll_parts {parts : List (List Char × Value)}
    (h : ∀ p ∈ parts, write style p.2 = .ok p.1) :
    writeAll style (parts.map Prod.snd) = .ok (parts.map Prod.fst) := by
  induction parts with
  | nil => rfl
  | cons p parts ih =>
    obtain ⟨hp, hparts⟩ := List.forall_mem_cons.1 h
    rw [List.map_cons, writeAll, hp, ih hparts]
    rfl

theorem writeEntries_parts {parts : List (List Char × String × Value)}
    (h : ∀ p ∈ parts, write style p.2.2 = .ok p.1) :
    (writeEntries style (Fields.entries (parts.map Prod.snd))).mapM Prod.snd =
      .ok (parts.map fun p => memberText style p.2.1 p.1) := by
  induction parts with
  | nil => rfl
  | cons p parts ih =>
    obtain ⟨hp, hparts⟩ := List.forall_mem_cons.1 h
    have hentry : entryText style (.str p.2.1) (write style p.2.2) =
        .ok (memberText style p.2.1 p.1) := by
      rw [hp]
      rfl
    have hcons : writeEntries style (Fields.entries ((p :: parts).map Prod.snd)) =
        (.str p.2.1, entryText style (.str p.2.1) (write style p.2.2)) ::
          writeEntries style (Fields.entries (parts.map Prod.snd)) := rfl
    rw [hcons, hentry, List.mapM_cons, ih hparts]
    rfl

/-- **Every value is written as a text that is read as the value.** -/
theorem exists_write (hstyle : style.Keeps) (h : IsJson v) :
    ∃ text, write style v = .ok text ∧ Reads v.height text v := by
  -- the texts of items and members may stand anywhere, so the cases need no more than `Reads`
  induction h with
  | null => exact ⟨_, rfl, reads_null⟩
  | bool b => exact ⟨_, rfl, reads_bool b⟩
  | int h => exact ⟨_, rfl, reads_int h⟩
  | str s => exact ⟨_, rfl, reads_str style.ascii s⟩
  | list _ ih =>
    obtain ⟨parts, rfl, hparts⟩ := exists_texts ih
    have htexts := writeAll_parts fun p hp => (hparts p hp).1
    have hdepth := heightAll_le_iff.1 (Nat.le_refl (heightAll (parts.map Prod.snd)))
    refine ⟨_, ?_, reads_list hstyle fun p hp =>
      (hparts p hp).2.mono (hdepth _ (List.mem_map_of_mem hp))⟩
    rw [write, htexts]
    rfl
  | object hnames _ ih =>
    obtain ⟨parts, rfl, hparts⟩ := exists_texts ih
    have htexts := writeEntries_parts fun p hp => (hparts p hp).1
    have hdepth := height_object_le_iff.1 (Nat.le_refl (Value.object (parts.map Prod.snd)).height)
    -- as the names are distinct, no member takes the place of another one
    have hreads := reads_object hstyle fun p hp =>
      (hparts p hp).2.mono (hdepth _ (List.mem_map_of_mem hp))
    rw [Fields.ofList_of_nodup hnames] at hreads
    refine ⟨_, ?_, hreads⟩
    rw [Fields.object_eq, write, inOrder, hstyle.unsorted]
    simp only [Bool.false_eq_true, if_false, bind, Except.bind, htexts]

/-- A text that is read as a value is the text of the value. -/
theorem Reads.readAll_eq (h : Reads depth text v) (hroom : depth ≤ room) :
    readAll room text = .ok v := by
  obtain ⟨c, cs, rfl, hc⟩ := h.opens
  have hread : readValue (2 * (c :: cs).length + 1) room (c :: cs ++ []) = .ok (v, []) :=
    h.reads (by omega) hroom .nil
  rw [List.append_nil] at hread
  rw [readAll, skipSpace_cons hc.1, hread]
  rfl

theorem Reads.head?_ne (h : Reads depth text v) : text.head? ≠ some byteOrderMark := by
  obtain ⟨c, cs, rfl, hc⟩ := h.opens
  intro heq
  exact hc.2.2.2 (Option.some.inj heq)

theorem Reads.readChars_eq (h : Reads depth text v) (hroom : depth ≤ room) :
    readChars room text = .ok v := by
  rw [readChars, if_neg h.head?_ne, h.readAll_eq hroom]
  rfl

/-- As much room as it takes is enough. -/
theorem Reads.readChars_length (h : Reads depth text v) :
    readChars text.length text = .ok v := by
  have hread := h.readChars_eq (Nat.le_refl depth)
  rcases readChars_sameUnless depth text with hdeep | heq
  · cases hread.symm.trans hdeep
  · exact heq.trans hread

theorem Reads.read_eq (h : Reads depth text v) :
    read (String.ofList text) = .ok v ∧ readBytes (String.ofList text) = .ok v := by
  have hread := h.readChars_length
  have hlength : (String.ofList text).length = text.length := by
    rw [← String.length_toList, String.toList_ofList]
  constructor
  · rw [read, readWithin, hlength, String.toList_ofList, hread]
  · rw [readBytes, hlength, readBytesWithin]
    simp only [String.toList_ofList, if_neg h.head?_ne]
    rwa [readChars, if_neg h.head?_ne] at hread

/-- What is written as a text is read from it, and from its bytes. -/
theorem read_write (hstyle : style.Keeps) (h : IsJson v) (htext : write style v = .ok text) :
    read (String.ofList text) = .ok v ∧ readBytes (String.ofList text) = .ok v := by
  obtain ⟨text', htext', hreads⟩ := exists_write hstyle h
  cases htext.symm.trans htext'
  exact hreads.read_eq

end SearchWire.Json
