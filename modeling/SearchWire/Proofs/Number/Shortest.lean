import SearchWire.Proofs.Json.Number
import SearchWire.Proofs.Number.Rounding

/-!
# The shortest decimal of a number

The digits that a number is written with are those of a multiple of a power of ten that is near to
it, and seventeen of them always suffice: with so many, two neighbours are closer together than the
reals that round to the number.

* `Decimal.hits_iff`: a hit is near to the number.
* `Decimal.exists_hitAt`: **some neighbour hits where steps are small enough.**
* `Decimal.Digits.value`: the rational that digits write.
* `Decimal.near_shortest`: **the digits of a number are near to it.**
-/

namespace SearchWire

variable {m n d c : Nat} {e k : Int}

namespace Double

/-- A number is a whole count of steps. -/
theorem exists_unit (m : Nat) (e : Int) : ∃ unit, 0 < unit ∧ (ratio m e).1 = m * unit ∧
    0 < (ratio m e).2 ∧ (unit : ℚ) / (ratio m e).2 = 2 ^ e := by
  unfold ratio
  split
  · next he =>
    obtain ⟨j, rfl⟩ := Int.eq_ofNat_of_zero_le he
    exact ⟨2 ^ j, Nat.two_pow_pos j, rfl, one_pos, by simp⟩
  · next he =>
    obtain ⟨j, hj⟩ := Int.eq_ofNat_of_zero_le (show 0 ≤ -e by omega)
    obtain rfl : e = -(j : Int) := by omega
    exact ⟨1, one_pos, (Nat.mul_one m).symm, Nat.two_pow_pos _, by simp⟩

theorem ratio_eq (m : Nat) (e : Int) : 0 < (ratio m e).2 ∧
    ((ratio m e).1 : ℚ) / (ratio m e).2 = m * 2 ^ e := by
  obtain ⟨unit, -, hnumerator, hpos, hunit⟩ := exists_unit m e
  refine ⟨hpos, ?_⟩
  rw [hnumerator, Nat.cast_mul, mul_div_assoc, hunit]

theorem margin_pos (m : Nat) (e : Int) : 0 < margin m e := by
  unfold margin
  split <;> norm_num

theorem near_of_lt {q : ℚ} (hlow : (m - margin m e) * 2 ^ e < q)
    (hhigh : q < (m + 1 / 2) * 2 ^ e) : Near m e q :=
  ⟨hlow.le, hhigh.le, fun _ => ⟨hlow, hhigh⟩⟩

/-- A number is near to itself. -/
theorem near_self (m : Nat) (e : Int) : Near m e (m * 2 ^ e) := by
  have htwo := two_zpow_pos e
  have hmargin := margin_pos m e
  exact near_of_lt (mul_lt_mul_of_pos_right (by linarith) htwo)
    (mul_lt_mul_of_pos_right (by linarith) htwo)

/-- The interval of a number is wider than a part in `10 ^ 16` of it. -/
theorem lt_of_mul_le (hcanonical : IsCanonical m e) {step : ℚ}
    (h : step * 10 ^ 16 ≤ m * 2 ^ e) : step < (margin m e + 1 / 2) * 2 ^ e := by
  have htwo := two_zpow_pos e
  unfold margin
  split
  · next hpower =>
    rw [hpower.1] at h
    push_cast at h
    linarith
  · have hcoefficient : (m : ℚ) + 1 ≤ 2 ^ 53 := by exact_mod_cast hcanonical.coefficient
    have hle : (m : ℚ) * 2 ^ e ≤ 2 ^ 53 * 2 ^ e :=
      mul_le_mul_of_nonneg_right (by linarith) htwo.le
    linarith

end Double

namespace Decimal

open Double (Near IsCanonical ratio exists_unit ratio_eq margin margin_pos near_of_lt near_self
  lt_of_mul_le two_zpow_pos)

/-! ## Hits -/

/-- The ends of the interval of a number. -/
theorem interval_eq (hm : 0 < m) (e : Int) : 0 < (interval m e).2.2.2 ∧
    ((interval m e).1 : ℚ) / (interval m e).2.2.2 = (m - margin m e) * 2 ^ e ∧
    ((interval m e).2.2.1 : ℚ) / (interval m e).2.2.2 = (m + 1 / 2) * 2 ^ e := by
  obtain ⟨unit, hunit, hnumerator, hpos, heq⟩ := exists_unit m e
  have hcount : m * unit / m = unit := Nat.mul_div_cancel_left unit hm
  have hpos' : ((ratio m e).2 : ℚ) ≠ 0 := Nat.cast_ne_zero.2 hpos.ne'
  have hbelow : (((if m = Nat.pow 2 52 && e != -1074 then unit else 2 * unit : Nat)) : ℚ) =
      4 * margin m e * unit := by
    have hiff : (m = Nat.pow 2 52 && e != -1074) = true ↔ m = 2 ^ 52 ∧ e ≠ -1074 := by simp
    unfold margin
    by_cases hpower : m = 2 ^ 52 ∧ e ≠ -1074
    · rw [if_pos (hiff.2 hpower), if_pos hpower]
      ring
    · rw [if_neg (mt hiff.1 hpower), if_neg hpower]
      push_cast
      ring
  have hle : (if m = Nat.pow 2 52 && e != -1074 then unit else 2 * unit) ≤ 4 * (m * unit) := by
    have hone : unit ≤ m * unit := Nat.le_mul_of_pos_left unit hm
    split <;> omega
  unfold interval
  simp only [hnumerator, hcount]
  refine ⟨by omega, ?_, ?_⟩
  · rw [Nat.cast_sub hle, hbelow, ← heq]
    push_cast
    field_simp
  · rw [← heq]
    push_cast
    field_simp
    ring

/-- Both sides of a comparison are over one denominator. -/
theorem exists_sides (c : Nat) (k : Int) (n : Nat) (hd : 0 < d) : ∃ t : ℚ, 0 < t ∧
    ((sides c k n d).1 : ℚ) = c * 10 ^ k * t ∧ ((sides c k n d).2 : ℚ) = n / d * t := by
  have hd' : (0 : ℚ) < d := Nat.cast_pos.2 hd
  unfold sides
  split
  · next hk =>
    obtain ⟨j, rfl⟩ := Int.eq_ofNat_of_zero_le hk
    refine ⟨d, hd', ?_, ?_⟩
    · simp
    · field_simp
  · next hk =>
    obtain ⟨j, hj⟩ := Int.eq_ofNat_of_zero_le (show 0 ≤ -k by omega)
    obtain rfl : k = -(j : Int) := by omega
    refine ⟨d * 10 ^ j, by positivity, ?_, ?_⟩
    · simp only [Nat.cast_mul, zpow_neg, zpow_natCast]
      field_simp
    · simp only [neg_neg, Int.toNat_natCast, Nat.pow_eq, Nat.cast_mul, Nat.cast_pow,
        Nat.cast_ofNat]
      field_simp

section Sides

variable (c : Nat) (k : Int) (n : Nat) (hd : 0 < d)
include hd

theorem sides_le : (sides c k n d).1 ≤ (sides c k n d).2 ↔ (c : ℚ) * 10 ^ k ≤ n / d := by
  obtain ⟨t, ht, hleft, hright⟩ := exists_sides c k n hd
  rw [← @Nat.cast_le ℚ, hleft, hright]
  exact mul_le_mul_iff_of_pos_right ht

theorem le_sides : (sides c k n d).2 ≤ (sides c k n d).1 ↔ (n : ℚ) / d ≤ c * 10 ^ k := by
  obtain ⟨t, ht, hleft, hright⟩ := exists_sides c k n hd
  rw [← @Nat.cast_le ℚ, hleft, hright]
  exact mul_le_mul_iff_of_pos_right ht

theorem sides_lt : (sides c k n d).1 < (sides c k n d).2 ↔ (c : ℚ) * 10 ^ k < n / d := by
  rw [← not_le, ← not_le, le_sides c k n hd]

theorem lt_sides : (sides c k n d).2 < (sides c k n d).1 ↔ (n : ℚ) / d < c * 10 ^ k := by
  rw [← not_le, ← not_le, sides_le c k n hd]

end Sides

/-- A hit is near to the number. -/
theorem hits_iff (hm : 0 < m) : hits m e c k = true ↔ Near m e (c * 10 ^ k) := by
  obtain ⟨hpos, hlow, hhigh⟩ := interval_eq hm e
  unfold hits
  generalize interval m e = ends at hpos hlow hhigh
  obtain ⟨low, middle, high, d⟩ := ends
  simp only at hpos hlow hhigh ⊢
  split
  · next heven =>
    rw [Bool.and_eq_true, decide_eq_true_eq, decide_eq_true_eq, le_sides c k low hpos,
      sides_le c k high hpos, hlow, hhigh]
    exact ⟨fun h => ⟨h.1, h.2, fun hodd => by omega⟩, fun h => ⟨h.low, h.high⟩⟩
  · next hodd =>
    rw [Bool.and_eq_true, decide_eq_true_eq, decide_eq_true_eq, lt_sides c k low hpos,
      sides_lt c k high hpos, hlow, hhigh]
    exact ⟨fun h => ⟨h.1.le, h.2.le, fun _ => h⟩, fun h => h.odd (by omega)⟩

/-- What is taken is a hit, and one is taken if a neighbour is one. -/
theorem hitAt_of_neighbours {a b : Nat}
    (h : neighbours (ratio m e).1 (ratio m e).2 k = (a, b)) :
    (∀ c, hitAt m e k = some c → hits m e c k = true) ∧
      (hits m e a k = true ∨ hits m e b k = true → ∃ c, hitAt m e k = some c) := by
  unfold hitAt
  rw [show ratio m e = ((ratio m e).1, (ratio m e).2) from rfl]
  simp only [h]
  cases ha : hits m e a k with
  | true =>
    cases hb : hits m e b k with
    | true =>
      refine ⟨fun c hc => ?_, fun _ => ⟨_, rfl⟩⟩
      cases hc
      split
      · exact ha
      · exact hb
    | false =>
      refine ⟨fun c hc => ?_, fun _ => ⟨a, rfl⟩⟩
      cases hc
      exact ha
  | false =>
    cases hb : hits m e b k with
    | true =>
      refine ⟨fun c hc => ?_, fun _ => ⟨b, rfl⟩⟩
      cases hc
      exact hb
    | false => exact ⟨nofun, by simp⟩

theorem near_of_hitAt (hm : 0 < m) (h : hitAt m e k = some c) : Near m e (c * 10 ^ k) :=
  (hits_iff hm).1 ((hitAt_of_neighbours rfl).1 c h)

/-- The neighbours of a quotient are on both sides of it. -/
theorem neighbours_eq (n : Nat) (hd : 0 < d) (k : Int) :
    ∃ a : Nat, neighbours n d k = (a, a + 1) ∧ (a : ℚ) * 10 ^ k ≤ n / d ∧
      (n : ℚ) / d < (a + 1) * 10 ^ k := by
  have hd' : (0 : ℚ) < d := Nat.cast_pos.2 hd
  have hten : (0 : ℚ) < 10 ^ k := zpow_pos (by norm_num) k
  obtain ⟨x, y, hy, hquotient, hneighbours⟩ : ∃ x y : Nat, 0 < y ∧
      (x : ℚ) / y = n / d / 10 ^ k ∧ neighbours n d k = (x / y, x / y + 1) := by
    unfold neighbours
    split
    · next hk =>
      obtain ⟨j, rfl⟩ := Int.eq_ofNat_of_zero_le hk
      refine ⟨n, d * Nat.pow 10 j, Nat.mul_pos hd (Nat.pow_pos (by decide)), ?_, rfl⟩
      simp [div_div]
    · next hk =>
      obtain ⟨j, hj⟩ := Int.eq_ofNat_of_zero_le (show 0 ≤ -k by omega)
      obtain rfl : k = -(j : Int) := by omega
      refine ⟨n * Nat.pow 10 j, d, hd, ?_, by simp⟩
      simp only [Nat.pow_eq, Nat.cast_mul, Nat.cast_pow, Nat.cast_ofNat, zpow_neg, zpow_natCast,
        div_inv_eq_mul]
      ring
  have hy' : (0 : ℚ) < y := Nat.cast_pos.2 hy
  refine ⟨x / y, hneighbours, ?_, ?_⟩
  · rw [← le_div_iff₀ hten, ← hquotient, le_div_iff₀ hy']
    exact_mod_cast Nat.div_mul_le_self x y
  · rw [← div_lt_iff₀ hten, ← hquotient, div_lt_iff₀ hy']
    exact_mod_cast Nat.lt_mul_of_div_lt (Nat.lt_succ_self _) hy

/-- **Some neighbour hits where steps are small enough**: a coefficient has less than seventeen
digits. -/
theorem exists_hitAt (hm : 0 < m) (hcanonical : IsCanonical m e)
    (hstep : (10 : ℚ) ^ k * 10 ^ 16 ≤ m * 2 ^ e) : ∃ c, hitAt m e k = some c := by
  obtain ⟨hpos, hratio⟩ := ratio_eq m e
  obtain ⟨a, hneighbours, hlow, hhigh⟩ := neighbours_eq (ratio m e).1 hpos k
  rw [hratio] at hlow hhigh
  have hstep := lt_of_mul_le hcanonical hstep
  have htwo := two_zpow_pos e
  have hhit : hits m e a k = true ∨ hits m e (a + 1) k = true := by
    rw [hits_iff hm, hits_iff hm, Nat.cast_add, Nat.cast_one]
    by_cases hbegin : (m - margin m e) * 2 ^ e < a * 10 ^ k
    · refine .inl (near_of_lt hbegin (hlow.trans_lt ?_))
      exact mul_lt_mul_of_pos_right (by linarith) htwo
    · -- where the lower neighbour is too low, the upper one is not too high
      have hmargin : (m - margin m e) * 2 ^ e ≤ m * 2 ^ e :=
        mul_le_mul_of_nonneg_right (by have := margin_pos m e; linarith) htwo.le
      exact .inr (near_of_lt (hmargin.trans_lt hhigh) (by linarith))
  exact (hitAt_of_neighbours hneighbours).2 hhit

/-! ## The search -/

/-- A power of ten that a quotient is not below. -/
theorem pointOf_le (hd : 0 < d) (h : (10 : ℚ) ^ (-400 : Int) < n / d) :
    (10 : ℚ) ^ (pointOf n d - 1) ≤ n / d := by
  have hd' : (0 : ℚ) < d := Nat.cast_pos.2 hd
  obtain ⟨scale, hscale⟩ : ∃ s : Nat, s = Nat.pow 10 400 := ⟨_, rfl⟩
  have hcast : (scale : ℚ) = 10 ^ 400 := by
    rw [hscale]
    generalize 400 = k
    rw [Nat.pow_eq, Nat.cast_pow, Nat.cast_ofNat]
  obtain ⟨w, hw⟩ : ∃ w, w = scale * n / d := ⟨_, rfl⟩
  have hscaled : (w : ℚ) ≤ n / d * 10 ^ 400 := by
    have hle : ((w * d : Nat) : ℚ) ≤ (scale * n : Nat) :=
      Nat.cast_le.2 (hw ▸ Nat.div_mul_le_self (scale * n) d)
    rw [Nat.cast_mul, Nat.cast_mul, hcast] at hle
    rwa [div_mul_eq_mul_div, le_div_iff₀ hd', mul_comm (n : ℚ)]
  have hpos : 0 < w := by
    rw [hw]
    refine Nat.div_pos ?_ hd
    rw [lt_div_iff₀ hd', zpow_neg, inv_mul_lt_iff₀ (by positivity), zpow_ofNat, ← hcast] at h
    exact_mod_cast h.le
  have hdigits : 10 ^ ((natDigits w).length - 1) ≤ w := by
    by_contra hlt
    have hlength : 0 < (natDigits w).length := List.length_pos_of_ne_nil Nat.toDigits_ne_nil
    rcases Nat.eq_zero_or_pos ((natDigits w).length - 1) with hzero | hmore
    · rw [hzero] at hlt
      omega
    · have := (length_natDigits_le_iff hmore).2 (not_le.1 hlt)
      omega
  have hlength : 0 < (natDigits w).length := List.length_pos_of_ne_nil Nat.toDigits_ne_nil
  have hpoint : pointOf n d - 1 = (((natDigits w).length - 1 : Nat) : Int) - 400 := by
    rw [pointOf, ← hscale, ← hw]
    omega
  rw [hpoint, zpow_sub₀ (by norm_num), div_le_iff₀ (by positivity), zpow_natCast]
  refine le_trans ?_ hscaled
  exact_mod_cast hdigits

/-- The digits are those that the search finds. -/
theorem shortest_of_found {p : Int} (hp : pointOf (ratio m e).1 (ratio m e).2 = p)
    (hfound : ((List.range 17).findSome? fun (i : Nat) =>
      (hitAt m e (p - 1 - i)).map fun c => (c, p - 1 - (i : Int))) = some (c, k)) :
    shortest m e = ⟨dropTrailingZeros (natDigits c), (natDigits c).length + k⟩ := by
  subst hp
  cases hratio : ratio m e with
  | mk n d =>
    rw [hratio] at hfound
    rw [shortest, hratio]
    simp only [hfound, Option.getD_some]

/-- The search finds what is near to the number: its last step is a part in `10 ^ 16` of its first
one. -/
theorem exists_found (hm : 0 < m) (hcanonical : IsCanonical m e) {p : Int}
    (hp : (10 : ℚ) ^ (p - 1) ≤ m * 2 ^ e) : ∃ (c : Nat) (k : Int), Near m e (c * 10 ^ k) ∧
      ((List.range 17).findSome? fun (i : Nat) =>
        (hitAt m e (p - 1 - i)).map fun c => (c, p - 1 - (i : Int))) = some (c, k) := by
  cases hfound : (List.range 17).findSome? fun (i : Nat) =>
      (hitAt m e (p - 1 - i)).map fun c => (c, p - 1 - (i : Int)) with
  | none =>
    have hstep : (10 : ℚ) ^ (p - 1 - (16 : Nat)) * 10 ^ 16 ≤ m * 2 ^ e := by
      rw [zpow_sub₀ (by norm_num), zpow_natCast, div_mul_cancel₀ _ (by positivity)]
      exact hp
    obtain ⟨c, hc⟩ := exists_hitAt hm hcanonical hstep
    have hnone := List.findSome?_eq_none_iff.1 hfound 16 (by decide)
    rw [hc] at hnone
    cases hnone
  | some found =>
    obtain ⟨i, -, hi⟩ := List.exists_of_findSome?_eq_some hfound
    obtain ⟨c, hc, rfl⟩ := Option.map_eq_some_iff.1 hi
    exact ⟨c, _, near_of_hitAt hm hc, rfl⟩

/-- What the search for digits finds. -/
theorem exists_shortest (hm : 0 < m) (hcanonical : IsCanonical m e) :
    ∃ (c : Nat) (k : Int), Near m e (c * 10 ^ k) ∧
      shortest m e = ⟨dropTrailingZeros (natDigits c), (natDigits c).length + k⟩ := by
  obtain ⟨hpos, hratio⟩ := ratio_eq m e
  have hbetween := ((near_self m e).between hm hcanonical).1
  rw [← hratio] at hbetween
  have hpoint := pointOf_le hpos hbetween
  rw [hratio] at hpoint
  obtain ⟨c, k, hnear, hfound⟩ := exists_found hm hcanonical hpoint
  exact ⟨c, k, hnear, shortest_of_found rfl hfound⟩

/-! ## Digits -/

/-- The value of a digit. -/
def digitValue (c : Char) : Nat := c.toNat - '0'.toNat

/-- The rational that digits write. -/
def Digits.value (x : Digits) : ℚ :=
  (Numeral.ofDigits (x.digits.map digitValue) : ℚ) * 10 ^ (x.point - x.digits.length)

theorem ofDigits_append (xs ys : List Nat) : Numeral.ofDigits (xs ++ ys) =
    Numeral.ofDigits xs * 10 ^ ys.length + Numeral.ofDigits ys := by
  have hfold : ∀ (ys : List Nat) (n : Nat), ys.foldl (fun n d => 10 * n + d) n =
      n * 10 ^ ys.length + Numeral.ofDigits ys := by
    intro ys
    induction ys with
    | nil => intro n; simp [Numeral.ofDigits]
    | cons y ys ih =>
      intro n
      rw [Numeral.ofDigits, List.foldl_cons, List.foldl_cons, ih, ih (10 * 0 + y),
        List.length_cons, Nat.pow_succ]
      ring
  rw [Numeral.ofDigits, List.foldl_append, hfold]
  rfl

theorem ofDigits_replicate_zero (j : Nat) : Numeral.ofDigits (List.replicate j 0) = 0 := by
  induction j with
  | zero => rfl
  | succ j ih =>
    rw [List.replicate_succ', ofDigits_append, ih]
    rfl

/-- Digits are those that are kept and zeros. -/
theorem exists_dropTrailingZeros (cs : List Char) :
    ∃ j, cs = dropTrailingZeros cs ++ List.replicate j '0' := by
  refine ⟨(cs.reverse.takeWhile (· == '0')).length, ?_⟩
  have hzeros : cs.reverse.takeWhile (· == '0') =
      List.replicate (cs.reverse.takeWhile (· == '0')).length '0' :=
    List.eq_replicate_of_mem fun c hc => by
      simpa using List.all_eq_true.1 (List.all_takeWhile (p := (· == '0'))) c hc
  rw [dropTrailingZeros, ← List.reverse_replicate, ← List.reverse_append, ← hzeros,
    List.takeWhile_append_dropWhile, List.reverse_reverse]

/-- **The digits of a number are near to it**, and they do not start with zero. -/
theorem near_shortest (hm : 0 < m) (hcanonical : IsCanonical m e) :
    (∀ c ∈ (shortest m e).digits, c.isDigit) ∧
      (∃ c cs, (shortest m e).digits = c :: cs ∧ c ≠ '0') ∧ Near m e (shortest m e).value := by
  obtain ⟨c, k, hnear, hshortest⟩ := exists_shortest hm hcanonical
  have hc : c ≠ 0 := by
    rintro rfl
    exact absurd (hnear.pos hm) (by simp)
  obtain ⟨j, hj⟩ := exists_dropTrailingZeros (natDigits c)
  rw [hshortest]
  refine ⟨fun d hd => isDigit_of_mem_natDigits (n := c) ?_, ?_, ?_⟩
  · rw [hj]
    exact List.mem_append_left _ hd
  · have hhead := head?_natDigits hc
    cases hkept : dropTrailingZeros (natDigits c) with
    | nil =>
      rw [hkept, List.nil_append] at hj
      cases j with
      | zero => exact absurd hj Nat.toDigits_ne_nil
      | succ j =>
        rw [hj] at hhead
        exact absurd rfl hhead
    | cons d ds =>
      refine ⟨d, ds, rfl, ?_⟩
      rintro rfl
      rw [hj, hkept] at hhead
      exact hhead rfl
  · have hvalue : (c : ℚ) = Numeral.ofDigits ((dropTrailingZeros (natDigits c)).map digitValue) *
        10 ^ j := by
      have hdigits : Numeral.ofDigits ((natDigits c).map digitValue) = c := ofDigits_natDigits c
      have hzero : digitValue '0' = 0 := rfl
      rw [hj, List.map_append, List.map_replicate, hzero, ofDigits_append,
        ofDigits_replicate_zero, List.length_replicate, Nat.add_zero] at hdigits
      exact_mod_cast hdigits.symm
    have hlength : ((natDigits c).length : Int) + k - (dropTrailingZeros (natDigits c)).length =
        j + k := by
      have hsum := congrArg List.length hj
      rw [List.length_append, List.length_replicate] at hsum
      omega
    rw [Digits.value]
    dsimp only
    rw [hlength, zpow_add₀ (by norm_num), zpow_natCast, ← mul_assoc, ← hvalue]
    exact hnear

end Decimal

end SearchWire
