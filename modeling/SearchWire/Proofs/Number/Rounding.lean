import Mathlib.Algebra.Order.Field.Power
import Mathlib.Data.Rat.Cast.Order
import Mathlib.Tactic.FieldSimp
import Mathlib.Tactic.Linarith
import Mathlib.Tactic.NormNum
import Mathlib.Tactic.Ring
import SearchWire.Number.Double

/-!
# Rounding to the nearest number

A quotient is scaled until it has a coefficient of 53 bits, and rounded to an integer. So each
number is what the quotients around it round to, up to half a step on both sides; at a power of two
the steps below are half as wide.

* `Double.IsCanonical`: the coefficients and exponents that a word can hold.
* `Double.Near`: the rationals around a number.
* `Double.fits_exponentFor`, `Double.Fits.unique`: the exponent of a quotient.
* `Double.ofRatio_of_near`, `Double.ofDecimal_of_near`: **what is near to a number rounds to it.**
* `Double.valid_ofRatio`: what is rounded can be held.
-/

namespace SearchWire.Double

/-- The coefficients and exponents that a word can hold. All 53 bits are in use, but for the numbers
with the least exponent. -/
structure IsCanonical (m : Nat) (e : Int) : Prop where
  coefficient : m < 2 ^ 53
  least : -1074 ≤ e
  greatest : e ≤ 971
  filled : e = -1074 ∨ 2 ^ 52 ≤ m

/-- The numbers that a word can hold. -/
inductive Valid : Double → Prop
  | finite (negative : Bool) {m : Nat} {e : Int} (h : IsCanonical m e) :
      Valid (.finite negative m e)
  | infinite (negative : Bool) : Valid (.infinite negative)
  | nan : Valid .nan

/-- How much below its coefficient a number begins. -/
def margin (m : Nat) (e : Int) : ℚ := if m = 2 ^ 52 ∧ e ≠ -1074 then 1 / 4 else 1 / 2

/-- The rationals that are nearer to `m * 2 ^ e` than to the numbers beside it. The ends count if
the coefficient is even. -/
structure Near (m : Nat) (e : Int) (q : ℚ) : Prop where
  low : (m - margin m e) * 2 ^ e ≤ q
  high : q ≤ (m + 1 / 2) * 2 ^ e
  odd : m % 2 = 1 → (m - margin m e) * 2 ^ e < q ∧ q < (m + 1 / 2) * 2 ^ e

variable {m n d digits : Nat} {e e' exponent : Int} {q : ℚ} {negative : Bool}

theorem two_zpow_pos (e : Int) : (0 : ℚ) < 2 ^ e := zpow_pos (by norm_num) e

theorem margin_le (m : Nat) (e : Int) : margin m e ≤ 1 / 2 := by
  unfold margin
  split <;> norm_num

theorem margin_of_ne (h : m ≠ 2 ^ 52) : margin m e = 1 / 2 := if_neg fun hm => h hm.1

/-! ## Scaling -/

/-- The scaled quotient. -/
theorem scaled_eq (hd : 0 < d) (e : Int) :
    0 < (scaled n d e).2 ∧ ((scaled n d e).1 : ℚ) / (scaled n d e).2 = n / d / 2 ^ e := by
  have hd' : (d : ℚ) ≠ 0 := Nat.cast_ne_zero.2 hd.ne'
  unfold scaled
  split
  · next he =>
    obtain ⟨k, rfl⟩ := Int.eq_ofNat_of_zero_le he
    refine ⟨Nat.mul_pos hd (Nat.pow_pos (by decide)), ?_⟩
    simp only [Int.toNat_natCast, Nat.pow_eq, Nat.cast_mul, Nat.cast_pow, Nat.cast_ofNat,
      zpow_natCast]
    rw [div_div]
  · next he =>
    obtain ⟨k, hk⟩ := Int.eq_ofNat_of_zero_le (show 0 ≤ -e by omega)
    obtain rfl : e = -(k : Int) := by omega
    refine ⟨hd, ?_⟩
    simp only [neg_neg, Int.toNat_natCast, Nat.pow_eq, Nat.cast_mul, Nat.cast_pow,
      Nat.cast_ofNat, zpow_neg, zpow_natCast, div_inv_eq_mul]
    ring

/-- A multiple that is not more than half of the divisor away gives the rounded quotient, an even one
also at half of it. -/
theorem roundHalfEven_eq_of_mul {a b : Nat} (hb : 0 < b) (hlow : 2 * m * b ≤ 2 * a + b)
    (hhigh : 2 * a ≤ 2 * m * b + b)
    (hodd : m % 2 = 1 → 2 * m * b < 2 * a + b ∧ 2 * a < 2 * m * b + b) :
    roundHalfEven a b = m := by
  have hdivision := Nat.div_add_mod a b
  have hrest := Nat.mod_lt a hb
  unfold roundHalfEven
  generalize a / b = w at *
  generalize a % b = r at *
  subst hdivision
  -- the whole part is the integer or one below it
  have hle : w ≤ m := by
    by_contra hlt
    have : (m + 1) * b ≤ w * b := Nat.mul_le_mul_right b (by omega)
    nlinarith
  have hge : m ≤ w + 1 := by
    by_contra hlt
    have : (w + 2) * b ≤ m * b := Nat.mul_le_mul_right b (by omega)
    nlinarith
  rcases Nat.lt_or_ge w m with hlt | hge
  · obtain rfl : m = w + 1 := by omega
    have hhalf : b ≤ 2 * r := by nlinarith
    rw [if_pos]
    by_cases htie : 2 * r = b
    · have heven : (w + 1) % 2 ≠ 1 := by
        intro hm
        have := (hodd hm).1
        nlinarith
      have : w % 2 = 1 := by omega
      simp [htie, this]
    · have : b < 2 * r := by omega
      simp [this]
  · obtain rfl : m = w := by omega
    have hhalf : 2 * r ≤ b := by nlinarith
    rw [if_neg]
    by_cases htie : 2 * r = b
    · have heven : m % 2 ≠ 1 := by
        intro hm
        have := (hodd hm).2
        nlinarith
      simp [htie, heven]
    · have : ¬ b < 2 * r := by omega
      simp [this, htie]

/-- An integer that is not more than half a unit away is the rounded one, an even one also at half a
unit. -/
theorem roundHalfEven_eq {a b : Nat} (hb : 0 < b) (hlow : (m : ℚ) - 1 / 2 ≤ a / b)
    (hhigh : (a : ℚ) / b ≤ m + 1 / 2)
    (hodd : m % 2 = 1 → (m : ℚ) - 1 / 2 < a / b ∧ (a : ℚ) / b < m + 1 / 2) :
    roundHalfEven a b = m := by
  have hb' : (0 : ℚ) < b := Nat.cast_pos.2 hb
  rw [le_div_iff₀ hb'] at hlow
  rw [div_le_iff₀ hb'] at hhigh
  rw [lt_div_iff₀ hb', div_lt_iff₀ hb'] at hodd
  have hlow' : (2 * m * b : ℚ) ≤ 2 * a + b := by linarith
  have hhigh' : (2 * a : ℚ) ≤ 2 * m * b + b := by linarith
  refine roundHalfEven_eq_of_mul hb (by exact_mod_cast hlow') (by exact_mod_cast hhigh') ?_
  intro hm
  obtain ⟨h₁, h₂⟩ := hodd hm
  have h₁' : (2 * m * b : ℚ) < 2 * a + b := by linarith
  have h₂' : (2 * a : ℚ) < 2 * m * b + b := by linarith
  exact ⟨by exact_mod_cast h₁', by exact_mod_cast h₂'⟩

/-! ## The exponent of a quotient -/

/-- The exponent with which a rational has 53 bits, or the least one. -/
structure Fits (q : ℚ) (e : Int) : Prop where
  least : -1074 ≤ e
  high : q < 2 ^ 53 * 2 ^ e
  low : e = -1074 ∨ 2 ^ 52 * 2 ^ e ≤ q

theorem Fits.unique (h : Fits q e) (h' : Fits q e') : e = e' := by
  have hle : ∀ {e e' : Int}, Fits q e → Fits q e' → e' ≤ e := by
    intro e e' h h'
    by_contra hlt
    rcases h'.low with heq | hlow
    · exact absurd h.least (by omega)
    · have hpow : (2 : ℚ) ^ (e + 1) ≤ 2 ^ e' := zpow_le_zpow_right₀ (by norm_num) (by omega)
      rw [zpow_add_one₀ (by norm_num)] at hpow
      have := h.high
      linarith
  exact le_antisymm (hle h' h) (hle h h')

/-- A quotient lies between the powers of two that the bits of its parts give. -/
theorem div_log2 (hn : 0 < n) (hd : 0 < d) :
    (2 : ℚ) ^ ((Nat.log2 n : Int) - Nat.log2 d - 1) < n / d ∧
      (n : ℚ) / d < 2 ^ ((Nat.log2 n : Int) - Nat.log2 d + 1) := by
  have hd' : (0 : ℚ) < d := Nat.cast_pos.2 hd
  have hbounds : ∀ {k : Nat}, 0 < k → (2 : ℚ) ^ (Nat.log2 k : Int) ≤ k ∧
      (k : ℚ) < 2 ^ ((Nat.log2 k : Int) + 1) := by
    intro k hk
    refine ⟨?_, ?_⟩
    · rw [zpow_natCast]
      exact_mod_cast Nat.log2_self_le hk.ne'
    · exact_mod_cast Nat.lt_log2_self (n := k)
  obtain ⟨hnlow, hnhigh⟩ := hbounds hn
  obtain ⟨hdlow, hdhigh⟩ := hbounds hd
  constructor
  · rw [lt_div_iff₀ hd']
    calc (2 : ℚ) ^ ((Nat.log2 n : Int) - Nat.log2 d - 1) * d
        < 2 ^ ((Nat.log2 n : Int) - Nat.log2 d - 1) * 2 ^ ((Nat.log2 d : Int) + 1) :=
          mul_lt_mul_of_pos_left hdhigh (two_zpow_pos _)
      _ = 2 ^ (Nat.log2 n : Int) := by
          rw [← zpow_add₀ (by norm_num)]
          congr 1
          omega
      _ ≤ n := hnlow
  · rw [div_lt_iff₀ hd']
    calc (n : ℚ) < 2 ^ ((Nat.log2 n : Int) + 1) := hnhigh
      _ = 2 ^ ((Nat.log2 n : Int) - Nat.log2 d + 1) * 2 ^ (Nat.log2 d : Int) := by
          rw [← zpow_add₀ (by norm_num)]
          congr 1
          omega
      _ ≤ 2 ^ ((Nat.log2 n : Int) - Nat.log2 d + 1) * d :=
          mul_le_mul_of_nonneg_left hdlow (two_zpow_pos _).le

/-- How many bits the scaled quotient has. -/
theorem scaled_lt_iff (hd : 0 < d) (bits : Nat) (e : Int) :
    (scaled n d e).1 / (scaled n d e).2 < 2 ^ bits ↔ (n : ℚ) / d < 2 ^ bits * 2 ^ e := by
  obtain ⟨hpos, heq⟩ := scaled_eq (n := n) hd e
  have hpos' : (0 : ℚ) < (scaled n d e).2 := Nat.cast_pos.2 hpos
  rw [Nat.div_lt_iff_lt_mul hpos, ← div_lt_iff₀ (two_zpow_pos e), ← heq, div_lt_iff₀ hpos']
  exact_mod_cast Iff.rfl

/-- **The exponent of a quotient.** -/
theorem fits_exponentFor (hn : 0 < n) (hd : 0 < d) : Fits (n / d) (exponentFor n d) := by
  obtain ⟨hlow, hhigh⟩ := div_log2 hn hd
  set guess : Int := max (-1074) ((Nat.log2 n : Int) - Nat.log2 d - 52) with hguess
  have hshift : ∀ (k : Int) (j : Nat), (2 : ℚ) ^ j * 2 ^ k = 2 ^ (k + j) := by
    intro k j
    rw [zpow_add₀ (by norm_num), zpow_natCast, mul_comm]
  have hmono : ∀ {k k' : Int}, k ≤ k' → (2 : ℚ) ^ k ≤ 2 ^ k' :=
    fun h => zpow_le_zpow_right₀ (by norm_num) h
  have hexponent : exponentFor n d = if (n : ℚ) / d < 2 ^ 52 * 2 ^ guess
      then max (-1074) (guess - 1) else guess :=
    if_congr (scaled_lt_iff hd 52 guess) rfl rfl
  rw [hexponent]
  split
  · next hlt =>
    -- one bit is missing, unless the exponent is the least one
    refine ⟨le_max_left _ _, ?_, ?_⟩
    · refine hlt.trans_le ?_
      rw [hshift, hshift]
      exact hmono (by omega)
    · by_cases hleast : guess = -1074
      · exact .inl (by omega)
      · refine .inr (le_of_lt ?_)
        refine lt_of_le_of_lt ?_ hlow
        rw [hshift]
        exact hmono (by omega)
  · next hge =>
    refine ⟨le_max_left _ _, ?_, .inr (not_lt.1 hge)⟩
    refine hhigh.trans_le ?_
    rw [hshift]
    exact hmono (by omega)

/-! ## Rounding -/

theorem Near.pos (hm : 0 < m) (h : Near m e q) : 0 < q := by
  refine lt_of_lt_of_le (mul_pos ?_ (two_zpow_pos e)) h.low
  have hmargin := margin_le m e
  have hm' : (1 : ℚ) ≤ m := by exact_mod_cast hm
  linarith

/-- The number of a rounded coefficient, which may have become too long by one bit. -/
def carried (negative : Bool) (m : Nat) (e : Int) : Double :=
  if m = 2 ^ 53 then (if e + 1 > 971 then .infinite negative else .finite negative (2 ^ 52) (e + 1))
  else if e > 971 then .infinite negative else .finite negative m e

/-- A quotient is rounded in units of the last bit that its exponent gives. -/
theorem ofRatio_eq_carried (hn : 0 < n) (hd : 0 < d) (hfits : Fits (n / d) e) :
    ofRatio negative n d =
      carried negative (roundHalfEven (scaled n d e).1 (scaled n d e).2) e := by
  have hexponent : exponentFor n d = e := (fits_exponentFor hn hd).unique hfits
  rw [ofRatio, if_neg hn.ne', hexponent, carried]
  by_cases hcarry : roundHalfEven (scaled n d e).1 (scaled n d e).2 = 2 ^ 53
  · have hcarry' : roundHalfEven (scaled n d e).1 (scaled n d e).2 = Nat.pow 2 53 := hcarry
    rw [if_pos hcarry]
    simp only [if_pos hcarry']
    rfl
  · have hcarry' : ¬ roundHalfEven (scaled n d e).1 (scaled n d e).2 = Nat.pow 2 53 := hcarry
    rw [if_neg hcarry]
    simp only [if_neg hcarry']

/-- What is rounded to `m` in these units. -/
theorem roundHalfEven_scaled (hd : 0 < d) (hlow : ((m : ℚ) - 1 / 2) * 2 ^ e ≤ n / d)
    (hhigh : (n : ℚ) / d ≤ (m + 1 / 2) * 2 ^ e)
    (hodd : m % 2 = 1 → ((m : ℚ) - 1 / 2) * 2 ^ e < n / d ∧ (n : ℚ) / d < (m + 1 / 2) * 2 ^ e) :
    roundHalfEven (scaled n d e).1 (scaled n d e).2 = m := by
  obtain ⟨hpos, heq⟩ := scaled_eq (n := n) hd e
  have htwo := two_zpow_pos e
  refine roundHalfEven_eq hpos ?_ ?_ ?_
  · rw [heq, le_div_iff₀ htwo]
    exact hlow
  · rw [heq, div_le_iff₀ htwo]
    exact hhigh
  · intro hm
    rw [heq, lt_div_iff₀ htwo, div_lt_iff₀ htwo]
    exact hodd hm

/-- Below a power of two the exponent is one less; the coefficient is rounded up to the power. -/
theorem ofRatio_carry (hn : 0 < n) (hd : 0 < d) (hleast : -1074 < e) (hgreatest : e ≤ 971)
    (hlow : ((2 : ℚ) ^ 52 - 1 / 4) * 2 ^ e ≤ n / d) (hhigh : (n : ℚ) / d < 2 ^ 52 * 2 ^ e) :
    ofRatio negative n d = .finite negative (2 ^ 52) e := by
  have hhalf : (2 : ℚ) ^ e = 2 * 2 ^ (e - 1) := by
    rw [← zpow_one_add₀ (by norm_num)]
    congr 1
    omega
  have hstep := two_zpow_pos (e - 1)
  rw [hhalf] at hlow hhigh
  have hfits : Fits (n / d) (e - 1) := ⟨by omega, by linarith, .inr (by linarith)⟩
  have hround : roundHalfEven (scaled n d (e - 1)).1 (scaled n d (e - 1)).2 = 2 ^ 53 := by
    refine roundHalfEven_scaled hd ?_ ?_ (by norm_num)
    · push_cast
      linarith
    · push_cast
      linarith
  rw [ofRatio_eq_carried hn hd hfits, hround, carried, if_pos rfl, sub_add_cancel,
    if_neg (not_lt.2 hgreatest)]

/-- **What is near to a number rounds to it.** -/
theorem ofRatio_of_near (hd : 0 < d) (hm : 0 < m) (hcanonical : IsCanonical m e)
    (h : Near m e (n / d)) : ofRatio negative n d = .finite negative m e := by
  have hn : 0 < n := by
    rcases Nat.eq_zero_or_pos n with rfl | hn
    · exact absurd (h.pos hm) (by simp)
    · exact hn
  have htwo := two_zpow_pos e
  by_cases hfull : e = -1074 ∨ 2 ^ 52 * 2 ^ e ≤ (n : ℚ) / d
  · have hbound : (n : ℚ) / d < 2 ^ 53 * 2 ^ e := by
      have hm53 : (m : ℚ) + 1 ≤ 2 ^ 53 := by exact_mod_cast hcanonical.coefficient
      exact h.high.trans_lt (mul_lt_mul_of_pos_right (by linarith) htwo)
    have hround : roundHalfEven (scaled n d e).1 (scaled n d e).2 = m := by
      refine roundHalfEven_scaled hd ?_ h.high fun hodd => ?_
      · by_cases hmargin : m = 2 ^ 52 ∧ e ≠ -1074
        · obtain ⟨rfl, hleast⟩ := hmargin
          have hlow := hfull.resolve_left hleast
          push_cast
          linarith
        · have hlow := h.low
          rw [margin, if_neg hmargin] at hlow
          exact hlow
      · have hne : m ≠ 2 ^ 52 := by
          rintro rfl
          exact absurd hodd (by norm_num)
        have hstrict := h.odd hodd
        rw [margin_of_ne hne] at hstrict
        exact hstrict
    rw [ofRatio_eq_carried hn hd ⟨hcanonical.least, hbound, hfull⟩, hround, carried,
      if_neg hcanonical.coefficient.ne, if_neg (not_lt.2 hcanonical.greatest)]
  · rw [not_or, not_le] at hfull
    obtain ⟨hleast, hbelow⟩ := hfull
    have hfilled : 2 ^ 52 ≤ m := hcanonical.filled.resolve_left hleast
    -- only a power of two begins below itself with one bit less
    have hpower : m = 2 ^ 52 := by
      by_contra hne
      have hlarge : (2 ^ 52 + 1 : ℚ) ≤ m := by exact_mod_cast (show 2 ^ 52 + 1 ≤ m by omega)
      have hlow := h.low
      rw [margin_of_ne hne] at hlow
      have : (2 ^ 52 : ℚ) * 2 ^ e ≤ (m - 1 / 2) * 2 ^ e :=
        mul_le_mul_of_nonneg_right (by linarith) htwo.le
      linarith
    have hlow := h.low
    rw [hpower, margin, if_pos ⟨rfl, hleast⟩] at hlow
    push_cast at hlow
    rw [hpower]
    have := hcanonical.least
    exact ofRatio_carry hn hd (by omega) hcanonical.greatest hlow hbelow

theorem roundHalfEven_between (a b : Nat) :
    a / b ≤ roundHalfEven a b ∧ roundHalfEven a b ≤ a / b + 1 := by
  unfold roundHalfEven
  dsimp only
  split <;> omega

theorem valid_carried (hm : m ≤ 2 ^ 53) (hleast : -1074 ≤ e) (hfilled : e = -1074 ∨ 2 ^ 52 ≤ m) :
    Valid (carried negative m e) := by
  unfold carried
  split
  · split
    · exact .infinite negative
    · exact .finite negative ⟨by norm_num, by omega, by omega, .inr le_rfl⟩
  · split
    · exact .infinite negative
    · exact .finite negative ⟨by omega, hleast, by omega, hfilled⟩

/-- What is rounded can be held. -/
theorem valid_ofRatio (negative : Bool) (n : Nat) (hd : 0 < d) : Valid (ofRatio negative n d) := by
  rcases Nat.eq_zero_or_pos n with rfl | hn
  · exact .finite negative ⟨by norm_num, le_rfl, by norm_num, .inl rfl⟩
  · have hfits := fits_exponentFor hn hd
    rw [ofRatio_eq_carried hn hd hfits]
    set e := exponentFor n d
    set w := (scaled n d e).1 / (scaled n d e).2 with hw
    obtain ⟨hlow, hhigh⟩ := roundHalfEven_between (scaled n d e).1 (scaled n d e).2
    have hless : w < 2 ^ 53 := (scaled_lt_iff hd 53 e).2 hfits.high
    refine valid_carried (by omega) hfits.least (hfits.low.imp_right fun hle => ?_)
    have hge : ¬ w < 2 ^ 52 := fun hlt => absurd ((scaled_lt_iff hd 52 e).1 hlt) (not_lt.2 hle)
    omega

/-! ## Decimal numbers -/

/-- Numbers are much less than `10 ^ 400` and, but for zero, much more than `10 ^ (-400)`. -/
theorem Near.between (hm : 0 < m) (hcanonical : IsCanonical m e) (h : Near m e q) :
    10 ^ (-400 : Int) < q ∧ q < 10 ^ (400 : Int) := by
  have hm53 : (m : ℚ) + 1 ≤ 2 ^ 53 := by exact_mod_cast hcanonical.coefficient
  have hm1 : (1 : ℚ) ≤ m := by exact_mod_cast hm
  have htwo := two_zpow_pos e
  constructor
  · have hpowers : (2 : ℚ) * 2 ^ 1074 < 10 ^ 400 := by
      exact_mod_cast (by decide +kernel : 2 * 2 ^ 1074 < 10 ^ 400)
    have hhalf : (1 : ℚ) / 2 ≤ m - margin m e := by
      have hmargin := margin_le m e
      linarith
    calc (10 : ℚ) ^ (-400 : Int) < 1 / 2 * 2 ^ (-1074 : Int) := by
          rw [one_div, zpow_neg, zpow_neg, ← mul_inv]
          exact inv_strictAnti₀ (by positivity) hpowers
      _ ≤ 1 / 2 * 2 ^ e := mul_le_mul_of_nonneg_left
          (zpow_le_zpow_right₀ (by norm_num) hcanonical.least) (by norm_num)
      _ ≤ (m - margin m e) * 2 ^ e := mul_le_mul_of_nonneg_right hhalf htwo.le
      _ ≤ q := h.low
  · have hpowers : (2 : ℚ) ^ 53 * 2 ^ 971 < 10 ^ 400 := by
      exact_mod_cast (by decide +kernel : 2 ^ 53 * 2 ^ 971 < 10 ^ 400)
    have hfull : (m : ℚ) + 1 / 2 ≤ 2 ^ 53 := by linarith
    calc q ≤ (m + 1 / 2) * 2 ^ e := h.high
      _ ≤ 2 ^ 53 * 2 ^ e := mul_le_mul_of_nonneg_right hfull htwo.le
      _ ≤ 2 ^ 53 * 2 ^ (971 : Int) := mul_le_mul_of_nonneg_left
          (zpow_le_zpow_right₀ (by norm_num) hcanonical.greatest) (by norm_num)
      _ < 10 ^ (400 : Int) := hpowers

/-- A third of the bits of a number are more than its decimal digits. -/
theorem lt_ten_pow (k : Nat) : (k : ℚ) < 10 ^ ((Nat.log2 k : Int) / 3 + 1) := by
  have hbits : k < 2 ^ (Nat.log2 k + 1) := Nat.lt_log2_self
  have hlength : Nat.log2 k + 1 ≤ 3 * (Nat.log2 k / 3 + 1) := by omega
  have hlt : k < 10 ^ (Nat.log2 k / 3 + 1) := calc
    k < 2 ^ (Nat.log2 k + 1) := hbits
    _ ≤ 2 ^ (3 * (Nat.log2 k / 3 + 1)) := Nat.pow_le_pow_right (by decide) hlength
    _ = 8 ^ (Nat.log2 k / 3 + 1) := Nat.pow_mul 2 3 _
    _ ≤ 10 ^ (Nat.log2 k / 3 + 1) := Nat.pow_le_pow_left (by decide) _
  exact_mod_cast hlt

/-- **A decimal number that is near to a number is read as it.** -/
theorem ofDecimal_of_near (hm : 0 < m) (hcanonical : IsCanonical m e)
    (h : Near m e (digits * 10 ^ exponent)) :
    ofDecimal negative digits exponent = .finite negative m e := by
  obtain ⟨hlow, hhigh⟩ := h.between hm hcanonical
  have hten : (0 : ℚ) < 10 ^ exponent := zpow_pos (by norm_num) exponent
  have hdigits : digits ≠ 0 := by
    rintro rfl
    exact absurd (h.pos hm) (by simp)
  have hlarge : ¬ exponent > 400 := by
    intro hgt
    have hpow : (10 : ℚ) ^ (400 : Int) ≤ 10 ^ exponent :=
      zpow_le_zpow_right₀ (by norm_num) (le_of_lt hgt)
    have hone : (1 : ℚ) ≤ digits := by exact_mod_cast Nat.pos_of_ne_zero hdigits
    exact absurd hhigh (not_lt.2 (hpow.trans (le_mul_of_one_le_left hten.le hone)))
  have hsmall : ¬ exponent + (Nat.log2 digits : Int) / 3 + 1 < -400 := by
    intro hlt
    have hpow : (10 : ℚ) ^ ((Nat.log2 digits : Int) / 3 + 1) * 10 ^ exponent ≤
        10 ^ (-400 : Int) := by
      rw [← zpow_add₀ (by norm_num)]
      exact zpow_le_zpow_right₀ (by norm_num) (by omega)
    exact absurd hlow (not_lt.2 ((mul_lt_mul_of_pos_right (lt_ten_pow digits) hten).le.trans hpow))
  rw [ofDecimal, if_neg hdigits, if_neg hlarge, if_neg hsmall]
  split
  · next hexponent =>
    obtain ⟨k, rfl⟩ := Int.eq_ofNat_of_zero_le hexponent
    refine ofRatio_of_near one_pos hm hcanonical ?_
    simpa using h
  · next hexponent =>
    obtain ⟨k, hk⟩ := Int.eq_ofNat_of_zero_le (show 0 ≤ -exponent by omega)
    obtain rfl : exponent = -(k : Int) := by omega
    refine ofRatio_of_near (Nat.pow_pos (by decide)) hm hcanonical ?_
    simpa [div_eq_mul_inv] using h

end SearchWire.Double
