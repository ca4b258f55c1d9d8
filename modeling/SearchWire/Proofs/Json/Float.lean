import SearchWire.Proofs.Json.RoundTrip
import SearchWire.Proofs.Number.Shortest

/-!
# Reading written floating-point numbers

Floating-point numbers are read as they are written. The digits may be laid out in several ways, but
they always are a whole part, a fraction and a power of ten, of which the whole part and one of the
other two are there; and what these write is near to the number.

* `Json.layout`: digits as a text.
* `Json.readNumber_layout`: what is read from such a text.
* `Json.LaidOut`: the layouts of the digits of a number, by where the point is.
* `Json.exists_layout`: the digits of a number are laid out so that they write it.
* `Json.reads_float`: **floating-point numbers are read as they are written.**
-/

namespace SearchWire.Json

open Decimal (Digits digitValue natDigits)
open Double (Valid exponentText digitsText)

variable {whole fraction rest : List Char} {power : Option Int} {e : Int}

/-! ## Layouts -/

/-- A whole part, a fraction if it has digits, and a power of ten if there is one. -/
def layout (whole fraction : List Char) (power : Option Int) : List Char :=
  whole ++ ((if fraction = [] then [] else '.' :: fraction) ++
    power.elim [] fun e => 'e' :: exponentText e)

/-- The whole part of a number has digits and does not start with zero, or it is zero. -/
structure IsWhole (whole : List Char) : Prop where
  digits : ∀ c ∈ whole, c.isDigit
  head : whole = ['0'] ∨ ∃ c cs, whole = c :: cs ∧ c ≠ '0'

theorem IsWhole.exists_cons (h : IsWhole whole) : ∃ c cs, whole = c :: cs ∧ c.isDigit := by
  rcases h.head with rfl | ⟨c, cs, rfl, -⟩
  · exact ⟨'0', [], rfl, rfl⟩
  · exact ⟨c, cs, rfl, h.digits c List.mem_cons_self⟩

theorem splitWhole_append (h : IsWhole whole) (hrest : NoDigit rest) :
    splitWhole (whole ++ rest) = (whole.map digitValue, rest) := by
  have hdigits : splitDigits (whole ++ rest) = (whole.map digitValue, rest) :=
    splitDigits_append h.digits hrest
  rcases h.head with rfl | ⟨c, cs, rfl, hc⟩
  · rfl
  · unfold splitWhole
    split
    · next heq => exact absurd (List.cons.inj heq).1 hc
    · exact hdigits

theorem splitFraction_append (hfraction : ∀ c ∈ fraction, c.isDigit) (hrest : NoDigit rest)
    (hpoint : rest.head? ≠ some '.') :
    splitFraction ((if fraction = [] then [] else '.' :: fraction) ++ rest) =
      (fraction.map digitValue, rest) := by
  cases fraction with
  | nil =>
    unfold splitFraction
    split
    · next heq =>
      rw [if_pos rfl, List.nil_append] at heq
      rw [heq] at hpoint
      exact absurd rfl hpoint
    · rfl
  | cons c cs =>
    have hdigits : splitDigits (c :: cs ++ rest) = ((c :: cs).map digitValue, rest) :=
      splitDigits_append hfraction hrest
    rw [if_neg (List.cons_ne_nil c cs), List.cons_append, splitFraction]
    simp only [hdigits, List.map_cons]

/-- An exponent has a sign and digits that write it. -/
theorem exists_exponentText (e : Int) : ∃ sign digits, exponentText e = sign :: digits ∧
    (∀ rest, Numeral.splitSign (sign :: digits ++ rest) = (decide (e < 0), digits ++ rest)) ∧
    (∀ c ∈ digits, c.isDigit) ∧ digits ≠ [] ∧
    Numeral.ofDigits (digits.map digitValue) = e.natAbs := by
  have hne : natDigits e.natAbs ≠ [] := Nat.toDigits_ne_nil
  have hdigits : ∀ c ∈ natDigits e.natAbs, c.isDigit :=
    fun c hc => Decimal.isDigit_of_mem_natDigits hc
  have hvalue : Numeral.ofDigits ((natDigits e.natAbs).map digitValue) = e.natAbs :=
    Decimal.ofDigits_natDigits e.natAbs
  refine ⟨_, _, rfl, ?_, ?_, ?_, ?_⟩
  · intro rest
    by_cases h : e < 0
    · rw [if_pos h, decide_eq_true h]
      rfl
    · rw [if_neg h, decide_eq_false h]
      rfl
  · split
    · exact List.forall_mem_cons.2 ⟨rfl, hdigits⟩
    · exact hdigits
  · split
    · exact List.cons_ne_nil _ _
    · exact hne
  · split
    · exact hvalue
    · exact hvalue

theorem splitExponent_append (hrest : Ends rest) :
    splitExponent ((power.elim [] fun e => 'e' :: exponentText e) ++ rest) = (power, rest) := by
  cases power with
  | none => exact splitExponent_of_ends hrest
  | some e =>
    obtain ⟨sign, digits, htext, hsign, hdigits, hne, hvalue⟩ := exists_exponentText e
    have hsplit : splitDigits (digits ++ rest) = (digits.map digitValue, rest) :=
      splitDigits_append hdigits hrest.noDigit
    obtain ⟨d, ds, rfl⟩ := List.exists_cons_of_ne_nil hne
    rw [List.map_cons] at hvalue hsplit
    have hsigned : Numeral.signed (decide (e < 0)) e.natAbs = e := by
      unfold Numeral.signed
      by_cases h : e < 0
      · rw [decide_eq_true h, if_pos rfl]
        omega
      · rw [decide_eq_false h, if_neg Bool.false_ne_true]
        omega
    rw [Option.elim_some, List.cons_append, splitExponent, htext, hsign]
    simp only [beq_self_eq_true, Bool.true_or, if_true, hsplit, hvalue, hsigned]

/-- A number with a fraction or a power of ten. -/
theorem readNumber_float {cs r r' : List Char} {w : Nat} {ws fraction : List Nat}
    (hwhole : splitWhole cs = (w :: ws, r)) (hfraction : splitFraction r = (fraction, r'))
    (hpower : splitExponent r' = (power, rest)) (hfloat : fraction ≠ [] ∨ power ≠ none)
    (hsign : ∀ tail, cs ≠ '-' :: tail) (negative : Bool) :
    readNumber (minus negative ++ cs) =
      .ok (.float (Double.ofDecimal negative (Numeral.ofDigits (w :: ws ++ fraction))
        (power.getD 0 - fraction.length)), rest) := by
  have hnot : (fraction.isEmpty && power.isNone) = false := by
    rw [Bool.and_eq_false_iff, List.isEmpty_eq_false_iff, Option.isNone_eq_false_iff,
      Option.isSome_iff_ne_none]
    exact hfloat
  cases negative with
  | true =>
    rw [minus, if_pos rfl, List.singleton_append, readNumber]
    simp only [hwhole, hfraction, hpower, hnot]
    rfl
  | false =>
    rw [minus, if_neg Bool.false_ne_true, List.nil_append]
    unfold readNumber
    split
    next negative digits hsplit =>
    split at hsplit
    · next tail => exact absurd rfl (hsign tail)
    · cases hsplit
      simp only [hwhole, hfraction, hpower, hnot]
      rfl

theorem ne_minus_of_isDigit {c : Char} (hc : c.isDigit) (cs tail : List Char) :
    c :: cs ≠ '-' :: tail := by
  rintro heq
  rw [(List.cons.inj heq).1] at hc
  exact absurd hc (by decide)

/-- **What is read from a text that is laid out.** -/
theorem readNumber_layout (hwhole : IsWhole whole) (hfraction : ∀ c ∈ fraction, c.isDigit)
    (hfloat : fraction ≠ [] ∨ power ≠ none) (hrest : Ends rest) (negative : Bool) :
    readNumber (minus negative ++ (layout whole fraction power ++ rest)) =
      .ok (.float (Double.ofDecimal negative
        (Numeral.ofDigits ((whole ++ fraction).map digitValue))
          (power.getD 0 - fraction.length)), rest) := by
  obtain ⟨c, cs, hcons, hc⟩ := hwhole.exists_cons
  -- neither a digit nor a point follows the fraction, and no digit the whole part
  have hafter : ∀ d, ((power.elim [] fun e => 'e' :: exponentText e) ++ rest).head? = some d →
      d.isDigit = false ∧ d ≠ '.' := by
    intro d hd
    cases power with
    | none => exact ⟨(hrest d hd).1, (hrest d hd).2.1⟩
    | some e =>
      cases hd
      exact ⟨rfl, by decide⟩
  have hpoint : NoDigit ((if fraction = [] then [] else '.' :: fraction) ++
      ((power.elim [] fun e => 'e' :: exponentText e) ++ rest)) := by
    intro d hd
    split at hd
    · exact (hafter d hd).1
    · cases hd
      rfl
  have hsplit := splitWhole_append hwhole hpoint
  rw [hcons, List.map_cons] at hsplit
  have hread := readNumber_float hsplit
    (splitFraction_append hfraction (fun d hd => (hafter d hd).1)
      fun h => (hafter '.' h).2 rfl)
    (splitExponent_append hrest) (hfloat.imp_left (mt List.map_eq_nil_iff.1))
    (ne_minus_of_isDigit hc _) negative
  rw [layout, List.append_assoc, List.append_assoc, hcons, hread, List.map_append, List.map_cons,
    List.length_map]

/-! ## The digits of a number -/

/-- Digits between zeros. -/
theorem ofDigits_padded (front back : Nat) (ds : List Char) :
    Numeral.ofDigits
        ((List.replicate front '0' ++ (ds ++ List.replicate back '0')).map digitValue) =
      Numeral.ofDigits (ds.map digitValue) * 10 ^ back := by
  have hzero : digitValue '0' = 0 := rfl
  rw [List.map_append, List.map_append, List.map_replicate, List.map_replicate, hzero,
    Decimal.ofDigits_append, Decimal.ofDigits_append, Decimal.ofDigits_replicate_zero,
    Decimal.ofDigits_replicate_zero, List.length_replicate, Nat.zero_mul, Nat.zero_add,
    Nat.add_zero]

/-- Digits write the same number wherever the point is, as long as the power makes up for it. -/
theorem value_eq {x : Digits} {cs : List Char} {k : Int} (front back : Nat)
    (hcs : cs = List.replicate front '0' ++ (x.digits ++ List.replicate back '0'))
    (hk : k + back = x.point - x.digits.length) :
    (Numeral.ofDigits (cs.map digitValue) : ℚ) * 10 ^ k = x.value := by
  rw [hcs, ofDigits_padded, Digits.value, ← hk, zpow_add₀ (by norm_num), zpow_natCast]
  push_cast
  ring

/-- A whole part, a fraction and a power of ten that write the number of some digits. -/
structure LaidOut (x : Digits) (whole fraction : List Char) (power : Option Int) : Prop where
  isWhole : IsWhole whole
  fraction_digits : ∀ c ∈ fraction, c.isDigit
  isFloat : fraction ≠ [] ∨ power ≠ none
  value_eq : (Numeral.ofDigits ((whole ++ fraction).map digitValue) : ℚ) *
    10 ^ (power.getD 0 - fraction.length) = x.value

theorem isDigit_of_mem_zeros {n : Nat} {c : Char} (h : c ∈ List.replicate n '0') : c.isDigit := by
  rw [List.eq_of_mem_replicate h]
  rfl

variable {d : Char} {ds : List Char} {p : Int}

/-- The point before all digits. -/
theorem laidOut_before (hdigits : ∀ c ∈ d :: ds, c.isDigit) (hp : p ≤ 0) :
    LaidOut ⟨d :: ds, p⟩ ['0'] (List.replicate (-p).toNat '0' ++ d :: ds) none where
  isWhole := ⟨by simp, .inl rfl⟩
  fraction_digits := List.forall_mem_append.2 ⟨fun _ => isDigit_of_mem_zeros, hdigits⟩
  isFloat := .inl (by simp)
  value_eq := by
    refine value_eq ((-p).toNat + 1) 0 ?_ ?_
    · simp [List.replicate_succ]
    · simp only [Option.getD_none, List.length_append, List.length_replicate, List.length_cons]
      omega

/-- The point behind all digits. -/
theorem laidOut_behind (hdigits : ∀ c ∈ d :: ds, c.isDigit) (hd : d ≠ '0')
    (hlength : (d :: ds).length ≤ p.toNat) :
    LaidOut ⟨d :: ds, p⟩ (d :: ds ++ List.replicate (p.toNat - (d :: ds).length) '0') ['0'] none
    where
  isWhole :=
    ⟨List.forall_mem_append.2 ⟨hdigits, fun _ => isDigit_of_mem_zeros⟩, .inr ⟨d, _, rfl, hd⟩⟩
  fraction_digits := by simp
  isFloat := .inl (by simp)
  value_eq := by
    refine value_eq 0 (p.toNat - (d :: ds).length + 1) ?_ ?_
    · rw [List.replicate_succ']
      simp
    · rw [List.length_cons] at hlength
      simp only [Option.getD_none, List.length_cons, List.length_nil]
      omega

/-- The point between the digits. -/
theorem laidOut_between (hdigits : ∀ c ∈ d :: ds, c.isDigit) (hd : d ≠ '0') (hp : 0 < p)
    (hlength : p.toNat < (d :: ds).length) :
    LaidOut ⟨d :: ds, p⟩ ((d :: ds).take p.toNat) ((d :: ds).drop p.toNat) none where
  isWhole := by
    obtain ⟨k, hk⟩ : ∃ k, p.toNat = k + 1 := ⟨p.toNat - 1, by omega⟩
    refine ⟨fun c hc => hdigits c (List.mem_of_mem_take hc), .inr ⟨d, ds.take k, ?_, hd⟩⟩
    rw [hk, List.take_succ_cons]
  fraction_digits := fun c hc => hdigits c (List.mem_of_mem_drop hc)
  isFloat := .inl (mt List.drop_eq_nil_iff.1 (by omega))
  value_eq := by
    refine value_eq 0 0 ?_ ?_
    · rw [List.take_append_drop]
      simp
    · simp only [Option.getD_none, List.length_drop]
      omega

/-- The point behind the first digit, with a power of ten. -/
theorem laidOut_power (hdigits : ∀ c ∈ d :: ds, c.isDigit) (hd : d ≠ '0') :
    LaidOut ⟨d :: ds, p⟩ [d] ds (some (p - 1)) where
  isWhole := ⟨fun c hc => hdigits c (List.mem_of_mem_take (i := 1) hc), .inr ⟨d, [], rfl, hd⟩⟩
  fraction_digits := fun c hc => hdigits c (List.mem_cons_of_mem d hc)
  isFloat := .inr (by simp)
  value_eq := by
    refine value_eq 0 0 ?_ ?_
    · simp
    · simp only [Option.getD_some, List.length_cons]
      omega

/-- **The digits of a number are laid out so that they write it.** -/
theorem exists_layout {x : Digits} (hdigits : ∀ c ∈ x.digits, c.isDigit)
    (hhead : ∃ c cs, x.digits = c :: cs ∧ c ≠ '0') :
    ∃ whole fraction power, digitsText x = layout whole fraction power ∧
      LaidOut x whole fraction power := by
  obtain ⟨ds, p⟩ := x
  obtain ⟨d, ds, rfl, hd⟩ := hhead
  unfold digitsText
  dsimp only
  split
  · split
    · next hp =>
      refine ⟨_, _, _, ?_, laidOut_before hdigits hp⟩
      simp [layout]
    · next hp =>
      by_cases hlength : (d :: ds).length ≤ p.toNat
      · refine ⟨_, _, _, ?_, laidOut_behind hdigits hd hlength⟩
        rw [List.take_of_length_le hlength, List.drop_of_length_le hlength]
        simp [layout]
      · have hdrop : (d :: ds).drop p.toNat ≠ [] := mt List.drop_eq_nil_iff.1 hlength
        have htake : p.toNat - ((d :: ds).take p.toNat).length = 0 := by
          rw [List.length_take]
          omega
        refine ⟨_, _, _, ?_, laidOut_between hdigits hd (by omega) (by omega)⟩
        rw [htake, List.isEmpty_eq_false_iff.2 hdrop, layout, if_neg hdrop]
        simp
  · refine ⟨_, _, _, ?_, laidOut_power hdigits hd⟩
    cases ds <;> simp [layout]

/-! ## Numbers -/

/-- A text that is laid out is read as a number, whatever stands behind it. -/
theorem reads_layout {x : Double} {negative : Bool} (hwhole : IsWhole whole)
    (hfraction : ∀ c ∈ fraction, c.isDigit) (hfloat : fraction ≠ [] ∨ power ≠ none)
    (hx : Double.ofDecimal negative (Numeral.ofDigits ((whole ++ fraction).map digitValue))
      (power.getD 0 - fraction.length) = x) :
    Reads 0 (minus negative ++ layout whole fraction power) (.float x) := by
  obtain ⟨c, cs, hcons, hc⟩ := hwhole.exists_cons
  have hnumber : ∀ rest, Ends rest →
      readNumber (minus negative ++ (layout whole fraction power ++ rest)) =
        .ok (.float x, rest) := by
    intro rest hrest
    rw [readNumber_layout hwhole hfraction hfloat hrest, hx]
  rw [layout, hcons, List.cons_append] at hnumber ⊢
  exact reads_number hc hnumber

/-- **Floating-point numbers are read as they are written.** -/
theorem reads_float {x : Double} (h : x.Valid) : Reads 0 (writeFloat x) (.float x) := by
  cases h with
  | nan => exact reads_atom (by decide) (by decide) fun _ _ => rfl
  | infinite negative =>
    cases negative with
    | true => exact reads_atom (by decide) (by decide) fun _ _ => rfl
    | false => exact reads_atom (by decide) (by decide) fun _ _ => rfl
  | @finite negative m e hcanonical =>
    rcases Nat.eq_zero_or_pos m with rfl | hm
    · have hleast : e = -1074 := hcanonical.filled.resolve_right (by norm_num)
      subst hleast
      have hzero : writeFloat (.finite negative 0 (-1074)) =
          minus negative ++ layout ['0'] ['0'] none := by
        cases negative <;> rfl
      rw [hzero]
      exact reads_layout ⟨by simp, .inl rfl⟩ (by simp) (.inl (by simp)) rfl
    · obtain ⟨hdigits, hhead, hnear⟩ := Decimal.near_shortest hm hcanonical
      obtain ⟨whole, fraction, power, htext, hlaid⟩ := exists_layout hdigits hhead
      have hwrite : writeFloat (.finite negative m e) =
          minus negative ++ layout whole fraction power := by
        obtain ⟨k, rfl⟩ := Nat.exists_eq_add_of_lt hm
        rw [← htext]
        cases negative <;> rfl
      rw [hwrite]
      refine reads_layout hlaid.isWhole hlaid.fraction_digits hlaid.isFloat ?_
      rw [← hlaid.value_eq] at hnear
      exact Double.ofDecimal_of_near hm hcanonical hnear

end SearchWire.Json
