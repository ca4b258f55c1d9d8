import SearchWire.Json.Reader
import SearchWire.Json.Writer

/-!
# Reading written texts

Every character of a text is read back as it was written: for itself, as a letter after a backslash,
or by one or two UTF-16 units in digits.

* `Json.fourHex?_digits`: four hexadecimal digits.
* `Json.readString_unitEscape`: a UTF-16 unit in digits.
* `Json.readString_writeChar`: a character.
* `Json.readString_writeString`: **texts are read as they are written.**
-/

namespace SearchWire.Json

/-! ## Digits -/

/-- A hexadecimal digit counts for its value. -/
theorem hexStep_digitChar (n : Nat) {d : Nat} (h : d < 16) :
    (if (Nat.digitChar d).isDigit then some (16 * n + ((Nat.digitChar d).toNat - '0'.toNat))
      else if 'a' ≤ Nat.digitChar d ∧ Nat.digitChar d ≤ 'f' then
        some (16 * n + ((Nat.digitChar d).toNat - 'a'.toNat + 10))
      else if 'A' ≤ Nat.digitChar d ∧ Nat.digitChar d ≤ 'F' then
        some (16 * n + ((Nat.digitChar d).toNat - 'A'.toNat + 10))
      else none) = some (16 * n + d) := by
  rcases d with _ | _ | _ | _ | _ | _ | _ | _ | _ | _ | _ | _ | _ | _ | _ | _ | d
  all_goals first | rfl | omega

theorem fourHex?_digits {n : Nat} (h : n < 0x10000) :
    fourHex? (Nat.digitChar (n / 4096 % 16)) (Nat.digitChar (n / 256 % 16))
      (Nat.digitChar (n / 16 % 16)) (Nat.digitChar (n % 16)) = some n := by
  have hlt : ∀ m, m % 16 < 16 := fun m => Nat.mod_lt m (by decide)
  have hsum : 16 * (16 * (16 * (16 * 0 + n / 4096 % 16) + n / 256 % 16) + n / 16 % 16) + n % 16 =
      n := by omega
  simp only [fourHex?, List.foldl_cons, List.foldl_nil, Option.bind_eq_bind, Option.bind_some,
    hexStep_digitChar _ (hlt _)]
  rw [hsum]

theorem unitEscape_eq (n : Nat) :
    unitEscape n = ['\\', 'u', Nat.digitChar (n / 4096 % 16), Nat.digitChar (n / 256 % 16),
      Nat.digitChar (n / 16 % 16), Nat.digitChar (n % 16)] := by
  simp [unitEscape, Text.hexDigits, List.range_succ]

/-! ## Characters -/

variable {opening : Nat} {rest : List Char}

theorem after_nil (step : Except Stop (List Char × List Char)) : after [] step = step := by
  cases step <;> rfl

theorem readString_unitEscape (high : Option Nat) {n : Nat} (hn : n < 0x10000) (hrest : rest ≠ []) :
    readString opening high (unitEscape n ++ rest) =
      after (unitChars high n).1 (readString opening (unitChars high n).2 rest) := by
  have hrest : rest.isEmpty = false := by simpa using hrest
  rw [unitEscape_eq]
  simp only [List.cons_append, List.nil_append]
  rw [readString, hrest]
  simp only [Bool.false_eq_true, if_false, fourHex?_digits hn]

/-- Half of a surrogate pair is no character. -/
theorem unitChars_toNat (c : Char) : unitChars none c.toNat = ([c], none) := by
  have hvalid : c.toNat < 0xd800 ∨ 0xdfff < c.toNat ∧ c.toNat < 0x110000 := c.valid
  have hlow : isLowSurrogate c.toNat = false := by
    simp only [isLowSurrogate, Bool.and_eq_false_iff, decide_eq_false_iff_not]
    omega
  have hhigh : isHighSurrogate c.toNat = false := by
    simp only [isHighSurrogate, Bool.and_eq_false_iff, decide_eq_false_iff_not]
    omega
  simp only [unitChars, hlow, hhigh, Bool.false_eq_true, if_false, Char.ofNat_toNat]

/-- The first unit of a pair gives no character yet. -/
theorem unitChars_high {n : Nat} (h : n < 0x400) :
    unitChars none (0xd800 + n) = ([], some (0xd800 + n)) := by
  have hlow : isLowSurrogate (0xd800 + n) = false := by
    simp only [isLowSurrogate, Bool.and_eq_false_iff, decide_eq_false_iff_not]
    omega
  have hhigh : isHighSurrogate (0xd800 + n) = true := by
    simp only [isHighSurrogate, Bool.and_eq_true, decide_eq_true_eq]
    omega
  simp only [unitChars, hlow, hhigh, Bool.false_eq_true, if_false, if_true]

/-- The second unit of a pair gives the character of both. -/
theorem unitChars_low {m n : Nat} (h : n < 0x400) :
    unitChars (some (0xd800 + m)) (0xdc00 + n) =
      ([Char.ofNat (0x10000 + m * 0x400 + n)], none) := by
  have hlow : isLowSurrogate (0xdc00 + n) = true := by
    simp only [isLowSurrogate, Bool.and_eq_true, decide_eq_true_eq]
    omega
  simp only [unitChars, hlow, if_true, Nat.add_sub_cancel_left]

/-- A character is read from its units. -/
theorem readString_charEscape (c : Char) (hrest : rest ≠ []) :
    readString opening none (charEscape c ++ rest) = after [c] (readString opening none rest) := by
  simp only [charEscape]
  split
  · next hc => rw [readString_unitEscape none hc hrest, unitChars_toNat]
  · next hc =>
    have hvalid : c.toNat < 0xd800 ∨ 0xdfff < c.toNat ∧ c.toNat < 0x110000 := c.valid
    -- the ten upper and the ten lower bits of `n` make up the two units
    obtain ⟨n, hn⟩ : ∃ n, c.toNat = 0x10000 + n := ⟨c.toNat - 0x10000, by omega⟩
    rw [hn, Nat.add_sub_cancel_left]
    have hhigh : n / 0x400 < 0x400 := by omega
    have hlow : n % 0x400 < 0x400 := Nat.mod_lt n (by decide)
    have hsum : 0x10000 + n / 0x400 * 0x400 + n % 0x400 = c.toNat := by omega
    rw [List.append_assoc, readString_unitEscape none (by omega) (by simp [unitEscape]),
      unitChars_high hhigh, after_nil, readString_unitEscape _ (by omega) hrest,
      unitChars_low hlow, hsum, Char.ofNat_toNat]

/-- A character that needs no escape is read as itself. -/
theorem readString_cons {c : Char} (hquote : c ≠ '"') (hbackslash : c ≠ '\\')
    (hcontrol : ¬c.toNat < 0x20) :
    readString opening none (c :: rest) = after [c] (readString opening none rest) := by
  rw [readString, if_neg hcontrol]
  · rfl
  · exact hquote
  all_goals
    intros
    contradiction

/-- A character is read as it is written. -/
theorem readString_writeChar (ascii : Bool) (c : Char) (hrest : rest ≠ []) :
    readString opening none (writeChar ascii c ++ rest) =
      after [c] (readString opening none rest) := by
  unfold writeChar
  split
  · next hc => subst hc; rfl
  next hquote =>
  split
  · next hc => subst hc; rfl
  next hbackslash =>
  split
  · next hc => subst hc; rfl
  split
  · next hc => subst hc; rfl
  split
  · next hc => subst hc; rfl
  split
  · next hc => subst hc; rfl
  split
  · next hc => subst hc; rfl
  split
  · next hc => rw [readString_unitEscape none (by omega) hrest, unitChars_toNat]
  next hcontrol =>
  split
  · exact readString_charEscape c hrest
  · exact readString_cons hquote hbackslash hcontrol

/-- **Texts are read as they are written.** -/
theorem readString_writeString (ascii : Bool) (s : String) :
    readString opening none (s.toList.flatMap (writeChar ascii) ++ '"' :: rest) =
      .ok (s.toList, rest) := by
  induction s.toList with
  | nil => rfl
  | cons c cs ih =>
    rw [List.flatMap_cons, List.append_assoc, readString_writeChar ascii c (by simp), ih]
    rfl

end SearchWire.Json
