import SearchWire.Json.Reader
import SearchWire.Number.Decimal

/-!
# Reading written integers

The digits of an integer are read back as the integer, if no number goes on after them.

* `Decimal.ofDigits_natDigits`: the digits of a number write the number.
* `Decimal.head?_natDigits`: digits do not start with zero, but for zero itself.
* `Json.Ends`, `Json.NoDigit`: a text with which no number goes on, or no digit.
* `Json.readNumber_intDigits`: **integers are read as they are written.**
-/

namespace SearchWire

namespace Decimal

theorem isDigit_of_mem_natDigits {n : Nat} {c : Char} (h : c ∈ natDigits n) : c.isDigit :=
  Nat.isDigit_of_mem_toDigits (by decide) (by decide) h

/-- The digits of a number write the number. -/
theorem ofDigits_natDigits (n : Nat) :
    Numeral.ofDigits ((natDigits n).map fun c => c.toNat - '0'.toNat) = n := by
  rw [Numeral.ofDigits, List.foldl_map, ← Nat.ofDigitChars_eq_foldl]
  exact Nat.ofDigitChars_ten_toDigits

/-- The digits of a number start with zero only if the number is zero. -/
theorem head?_natDigits {n : Nat} (h : n ≠ 0) : (natDigits n).head? ≠ some '0' := by
  induction n using Nat.strongRecOn with
  | ind n ih =>
    rw [natDigits, Nat.toDigits_eq_if (by decide)]
    split
    · simpa using h
    · have hdiv : n / 10 ≠ 0 := by omega
      have hhead := ih (n / 10) (by omega) hdiv
      obtain ⟨c, cs, hcs⟩ :=
        List.exists_cons_of_ne_nil (Nat.toDigits_ne_nil (n := n / 10) (b := 10))
      rw [natDigits, hcs] at hhead
      rw [hcs]
      exact hhead

theorem length_natDigits_le_iff {n k : Nat} (hk : 0 < k) :
    (natDigits n).length ≤ k ↔ n < Nat.pow 10 k :=
  Nat.length_toDigits_le_iff (by decide) hk

end Decimal

namespace Json

/-- A text with which no number goes on. -/
def Ends (rest : List Char) : Prop :=
  ∀ c, rest.head? = some c → c.isDigit = false ∧ c ≠ '.' ∧ c ≠ 'e' ∧ c ≠ 'E'

theorem Ends.nil : Ends [] := nofun

/-- A text that does not go on with a digit. -/
def NoDigit (rest : List Char) : Prop := ∀ c, rest.head? = some c → c.isDigit = false

variable {rest : List Char}

theorem Ends.noDigit (h : Ends rest) : NoDigit rest := fun c hc => (h c hc).1

/-- The digits at the start of a text end where no digit follows. -/
theorem splitDigits_append {cs : List Char} (hcs : ∀ c ∈ cs, c.isDigit) (hrest : NoDigit rest) :
    splitDigits (cs ++ rest) = (cs.map fun c => c.toNat - '0'.toNat, rest) := by
  have hnone : rest.takeWhile Char.isDigit = [] ∧ rest.dropWhile Char.isDigit = rest := by
    cases rest with
    | nil => exact ⟨rfl, rfl⟩
    | cons c rest =>
      have hc := hrest c rfl
      simp [hc]
  rw [splitDigits, List.takeWhile_append_of_pos hcs, List.dropWhile_append_of_pos hcs, hnone.1,
    hnone.2, List.append_nil]

theorem splitFraction_of_ends (hrest : Ends rest) : splitFraction rest = ([], rest) := by
  unfold splitFraction
  split
  · exact absurd rfl (hrest '.' rfl).2.1
  · rfl

theorem splitExponent_of_ends (hrest : Ends rest) : splitExponent rest = (none, rest) := by
  unfold splitExponent
  split
  · next c rest =>
    obtain ⟨-, -, he, hE⟩ := hrest c rfl
    simp [he, hE]
  · rfl

/-- The digits of a number are its whole part: a zero in front stands alone. -/
theorem splitWhole_natDigits (n : Nat) (hrest : Ends rest) :
    splitWhole (Decimal.natDigits n ++ rest) =
      ((Decimal.natDigits n).map fun c => c.toNat - '0'.toNat, rest) := by
  have hdigits : splitDigits (Decimal.natDigits n ++ rest) =
      ((Decimal.natDigits n).map fun c => c.toNat - '0'.toNat, rest) :=
    splitDigits_append (fun c hc => Decimal.isDigit_of_mem_natDigits hc) hrest.noDigit
  by_cases hn : n = 0
  · -- what follows a zero is not looked at
    subst hn
    rfl
  · have hhead := Decimal.head?_natDigits hn
    unfold splitWhole
    split
    · next tail heq =>
      obtain ⟨c, cs, hcs⟩ : ∃ c cs, Decimal.natDigits n = c :: cs :=
        List.exists_cons_of_ne_nil Nat.toDigits_ne_nil
      rw [hcs, List.cons_append, List.cons.injEq] at heq
      rw [hcs, heq.1] at hhead
      contradiction
    · exact hdigits

section Whole

variable {cs : List Char} {w : Nat} {ws : List Nat} (hcs : splitWhole cs = (w :: ws, rest))
  (hrest : Ends rest) (hlength : (w :: ws).length ≤ maxDigits)
include hcs hrest hlength

theorem readNumber_minus :
    readNumber ('-' :: cs) = .ok (.int (-(Numeral.ofDigits (w :: ws) : Int)), rest) := by
  simp only [readNumber, hcs, splitFraction_of_ends hrest, splitExponent_of_ends hrest, hlength]
  rfl

theorem readNumber_plain (hsign : ∀ tail, cs ≠ '-' :: tail) :
    readNumber cs = .ok (.int (Numeral.ofDigits (w :: ws)), rest) := by
  unfold readNumber
  split
  next negative digits hsplit =>
  split at hsplit
  · next tail => exact absurd rfl (hsign tail)
  · cases hsplit
    simp only [hcs, splitFraction_of_ends hrest, splitExponent_of_ends hrest, hlength]
    rfl

end Whole

/-- **Integers are read as they are written.** -/
theorem readNumber_intDigits {n : Int} (h : (Decimal.natDigits n.natAbs).length ≤ maxDigits)
    (hrest : Ends rest) : readNumber (Decimal.intDigits n ++ rest) = .ok (.int n, rest) := by
  obtain ⟨c, cs, hcs⟩ : ∃ c cs, Decimal.natDigits n.natAbs = c :: cs :=
    List.exists_cons_of_ne_nil Nat.toDigits_ne_nil
  have hvalue := Decimal.ofDigits_natDigits n.natAbs
  have hwhole := splitWhole_natDigits n.natAbs hrest
  have hdigit : c.isDigit := Decimal.isDigit_of_mem_natDigits (n := n.natAbs) (by simp [hcs])
  rw [hcs, List.map_cons] at hvalue hwhole
  have hshort :
      ((c.toNat - '0'.toNat) :: cs.map fun c => c.toNat - '0'.toNat).length ≤ maxDigits := by
    rw [hcs] at h
    rw [List.length_cons, List.length_map]
    exact h
  rw [Decimal.intDigits, hcs]
  split
  · next hneg =>
    rw [List.cons_append, readNumber_minus hwhole hrest hshort, hvalue]
    have hn : -(n.natAbs : Int) = n := by omega
    rw [hn]
  · next hpos =>
    have hsign : ∀ tail, c :: cs ++ rest ≠ '-' :: tail := by
      rintro tail heq
      rw [(List.cons.inj heq).1] at hdigit
      exact absurd hdigit (by decide)
    rw [readNumber_plain hwhole hrest hshort hsign, hvalue]
    have hn : (n.natAbs : Int) = n := by omega
    rw [hn]

end Json

end SearchWire
