/-
What a decimal context keeps of a number, on values.

- `keep`: half-even, to the digits the context keeps. `round_value_eq_keep`: `Context.round` does this to a Decimal, so
  `keep_eq_self`: a number that fits the context is kept as it is;
- `keep_cases`: next to the numbers whose last digit is at a place e, keeping is rounding to that place;
- `keep_lt_iff`, `keep_le_iff`: so comparing what is kept with such a number is comparing the number rounded at e.
-/
import Mathlib.Tactic
import Mathlib.Data.Int.Log
import Vault67.Lib.Decimal

namespace Vault67

open Rounding

namespace Rounding

variable {K : Type*} [Field K] [LinearOrder K] [IsStrictOrderedRing K] [FloorRing K]

theorem halfEven_neg (x : K) : halfEven (-x) = -halfEven x := by
  rcases eq_or_ne (Int.fract x) 0 with hzero | hne
  · obtain ⟨n, rfl⟩ := Int.fract_eq_zero_iff.1 hzero
    rw [← Int.cast_neg, halfEven_intCast, halfEven_intCast]
  · have hfract : Int.fract (-x) = 1 - Int.fract x := Int.fract_neg hne
    have hfloor : ⌊-x⌋ = -⌊x⌋ - 1 := by
      have hx := Int.floor_add_fract x
      have hy := Int.floor_add_fract (-x)
      have hsum : (⌊-x⌋ : K) = -⌊x⌋ - 1 := by linarith
      exact_mod_cast hsum
    unfold halfEven
    rw [hfract, hfloor]
    rcases lt_trichotomy (Int.fract x) (1 / 2) with hlow | hhalf | hhigh
    · rw [if_neg (by linarith), if_pos (by linarith), if_pos hlow]
      omega
    · have hparity : Even (-⌊x⌋ - 1) ↔ ¬Even ⌊x⌋ := by rw [Int.even_sub_one, even_neg]
      rw [hhalf, show (1 : K) - 1 / 2 = 1 / 2 by norm_num]
      simp only [lt_irrefl, if_false]
      by_cases heven : Even ⌊x⌋
      · rw [if_neg fun h => hparity.1 h heven, if_pos heven]
        omega
      · rw [if_pos (hparity.2 heven), if_neg heven]
        omega
    · rw [if_pos (by linarith), if_neg (by linarith), if_pos hhigh]
      omega

theorem abs_toPlaces_halfEven (k : ℕ) (x : K) : |toPlaces halfEven k x| = toPlaces halfEven k |x| := by
  have hnonneg : ∀ y : K, 0 ≤ y → 0 ≤ toPlaces halfEven k y := by
    intro y hy
    have hn : 0 ≤ halfEven (y * 10 ^ k) := halfEven_nonneg (by positivity)
    unfold toPlaces
    positivity
  rcases le_total 0 x with hx | hx
  · rw [abs_of_nonneg hx, abs_of_nonneg (hnonneg x hx)]
  · have hneg := hnonneg (-x) (by linarith)
    rw [abs_of_nonpos hx, toPlaces_neg halfEven_neg] at *
    rw [abs_of_nonpos (by linarith)]

theorem toPlaces_lt_iff {k : ℕ} {x : K} {n : ℤ} (hn : Even n) :
    toPlaces halfEven k x < n / 10 ^ k ↔ x * 10 ^ k < n - 1 / 2 := by
  unfold toPlaces
  rw [div_lt_div_iff_of_pos_right (by positivity), Int.cast_lt, halfEven_lt_iff hn]

end Rounding

namespace Context

variable {c : Context} {q : ℚ}

/-- the place of the last digit the context keeps of a number -/
def lastPlace (c : Context) (q : ℚ) : ℤ := max (Int.log 10 |q| - (c.prec - 1)) c.etiny

/-- a number as the context keeps it -/
def keep (c : Context) (q : ℚ) : ℚ := halfEven (q / 10 ^ c.lastPlace q) * 10 ^ c.lastPlace q

theorem keep_neg (q : ℚ) : c.keep (-q) = -c.keep q := by
  unfold keep lastPlace
  rw [abs_neg, neg_div, halfEven_neg]
  push_cast
  ring

theorem keep_nonneg (h : 0 ≤ q) : 0 ≤ c.keep q := by
  have hn : 0 ≤ halfEven (q / 10 ^ c.lastPlace q) := halfEven_nonneg (by positivity)
  unfold keep
  positivity

theorem abs_keep (q : ℚ) : |c.keep q| = c.keep |q| := by
  rcases le_total 0 q with hq | hq
  · rw [abs_of_nonneg hq, abs_of_nonneg (keep_nonneg hq)]
  · have hneg : 0 ≤ c.keep (-q) := keep_nonneg (by linarith)
    rw [keep_neg] at hneg
    rw [abs_of_nonpos hq, keep_neg, abs_of_nonpos (by linarith)]

/-! ## Rounding a Decimal -/

theorem adjusted_eq_log {x : Decimal} (h : x.coefficient ≠ 0) : x.adjusted = Int.log 10 |x.value| := by
  have hpos : 0 < |x.value| := abs_pos.2 (mt Decimal.value_eq_zero.1 h)
  refine le_antisymm ?_ ?_
  · exact (Int.zpow_le_iff_le_log (by norm_num) hpos).1 (by exact_mod_cast Decimal.pow_adjusted_le h)
  · have hlt := (Int.lt_zpow_iff_log_lt (b := 10) (by norm_num) hpos).1 (by exact_mod_cast Decimal.lt_pow_adjusted x)
    omega

/-- **The rounded Decimal is the number kept.** -/
theorem round_value_eq_keep (x : Decimal) : (c.round x).value = c.keep x.value := by
  rcases eq_or_ne x.coefficient 0 with hzero | hne
  · have hv : x.value = 0 := Decimal.value_eq_zero.2 hzero
    have hexact : c.Exact x := by
      rw [Exact, hzero]
      exact dvd_zero _
    rw [round_value_iff.2 hexact, hv, keep, zero_div, show (0 : ℚ) = ((0 : ℤ) : ℚ) by norm_num, halfEven_intCast]
    simp
  have hplace : c.lastPlace x.value = max (x.adjusted - (c.prec - 1)) c.etiny := by
    rw [lastPlace, adjusted_eq_log hne]
  rcases le_total (c.lastPlace x.value) x.exponent with hle | hle
  · -- no digit is dropped
    have hdropped : c.dropped x = 0 := by
      rw [dropped, ← hplace]
      omega
    have hexact : c.Exact x := by
      rw [Exact, hdropped, pow_zero]
      exact one_dvd _
    have hunits : x.value / 10 ^ c.lastPlace x.value = (x.units (c.lastPlace x.value) : ℚ) := by
      rw [div_eq_iff (Decimal.ten_zpow_ne_zero _), Decimal.units_value hle]
    rw [round_value_iff.2 hexact, keep, hunits, halfEven_intCast, Decimal.units_value hle]
  · have hdropped : (c.dropped x : ℤ) = c.lastPlace x.value - x.exponent := by
      rw [dropped, ← hplace]
      omega
    have hten : (10 : ℚ) ^ c.lastPlace x.value = 10 ^ c.dropped x * 10 ^ x.exponent := by
      rw [← zpow_natCast, ← zpow_add₀ (by norm_num), hdropped]
      congr 1
      omega
    have hquotient : x.value / 10 ^ c.lastPlace x.value =
        (if x.negative then -1 else 1) * ((x.coefficient : ℚ) / 10 ^ c.dropped x) := by
      rw [hten, Decimal.value]
      have := Decimal.ten_zpow_ne_zero x.exponent
      field_simp
    rw [round_value, keep, hquotient, hten]
    cases x.negative
    · simp only [Bool.false_eq_true, if_false, one_mul]
      ring
    · simp only [if_true, neg_mul, one_mul, halfEven_neg]
      push_cast
      ring

/-- a number with few enough digits is kept as it is -/
theorem keep_eq_self (h : c.Fits q) : c.keep q = q := by
  obtain ⟨m, e, hm, he, hq⟩ := h
  let x : Decimal := ⟨decide (m < 0), m.natAbs, e⟩
  have hx : x.value = q := by rw [hq, Decimal.value, Decimal.signed_natAbs fun _ => rfl]
  have hexact : c.Exact x := exact_of_fits ⟨m, e, hm, he, hx.trans hq⟩
  calc c.keep q = (c.round x).value := by rw [round_value_eq_keep, hx]
    _ = x.value := round_value_iff.2 hexact
    _ = q := hx

/-! ## Comparisons -/

/-- a bound at a digit that is kept stays a bound -/
theorem keep_le {n : ℤ} (h : q ≤ n * 10 ^ c.lastPlace q) : c.keep q ≤ n * 10 ^ c.lastPlace q := by
  have hn : halfEven (q / 10 ^ c.lastPlace q) ≤ n := halfEven_le (by rwa [div_le_iff₀ (Decimal.ten_zpow_pos _)])
  exact mul_le_mul_of_nonneg_right (by exact_mod_cast hn) (Decimal.ten_zpow_pos _).le

theorem le_keep {n : ℤ} (h : n * 10 ^ c.lastPlace q ≤ q) : n * 10 ^ c.lastPlace q ≤ c.keep q := by
  have hn : n ≤ halfEven (q / 10 ^ c.lastPlace q) := le_halfEven (by rwa [le_div_iff₀ (Decimal.ten_zpow_pos _)])
  exact mul_le_mul_of_nonneg_right (by exact_mod_cast hn) (Decimal.ten_zpow_pos _).le

/-- the power of ten at a higher place, counted at the last place -/
theorem ten_zpow_eq {e p : ℤ} (h : p ≤ e) : (10 : ℚ) ^ e = ((10 ^ (e - p).toNat : ℤ) : ℚ) * 10 ^ p := by
  push_cast
  rw [← zpow_natCast, ← zpow_add₀ (by norm_num)]
  congr 1
  omega

variable {e : ℤ}

/-- **Keeping, seen from a place e.** The number is below the numbers with `prec` digits that end at e, or rounding it
there is all that is done to it, or it is above them. -/
theorem keep_cases (he : c.etiny ≤ e) (hq : 0 ≤ q) :
    (c.keep q ≤ 10 ^ (c.prec - 1) * 10 ^ e ∧ halfEven (q / 10 ^ e) ≤ 10 ^ (c.prec - 1)) ∨
      c.keep q = halfEven (q / 10 ^ e) * 10 ^ e ∨
        (10 ^ c.prec * 10 ^ e ≤ c.keep q ∧ 10 ^ c.prec ≤ halfEven (q / 10 ^ e)) := by
  have hprec := c.prec_pos
  rcases hq.eq_or_lt with rfl | hpos
  · refine .inr (.inl ?_)
    rw [keep, zero_div, zero_div, show (0 : ℚ) = ((0 : ℤ) : ℚ) by norm_num, halfEven_intCast]
    simp
  rcases lt_trichotomy (c.lastPlace q) e with hlt | heq | hgt
  · -- q has its first digit below the place of 10^(prec - 1) * 10^e
    have hlog : Int.log 10 q < (c.prec - 1 : ℕ) + e := by
      have hle : Int.log 10 |q| - (c.prec - 1) ≤ c.lastPlace q := le_max_left _ _
      rw [abs_of_pos hpos] at hle
      omega
    have hbound : q ≤ 10 ^ (c.prec - 1) * 10 ^ e := by
      have hq := (Int.lt_zpow_iff_log_lt (b := 10) (by norm_num) hpos).2 hlog
      rw [← zpow_natCast, ← zpow_add₀ (by norm_num)]
      exact_mod_cast hq.le
    refine .inl ⟨?_, halfEven_le ?_⟩
    · have hten : (10 : ℚ) ^ (c.prec - 1) * 10 ^ e =
          ((10 ^ (c.prec - 1) * 10 ^ (e - c.lastPlace q).toNat : ℤ) : ℚ) * 10 ^ c.lastPlace q := by
        rw [ten_zpow_eq hlt.le]
        push_cast
        ring
      rw [hten] at hbound ⊢
      exact keep_le hbound
    · rw [div_le_iff₀ (Decimal.ten_zpow_pos _)]
      exact_mod_cast hbound
  · exact .inr (.inl (by rw [keep, heq]))
  · -- q has its first digit at `prec - 1` places above its last
    have hfirst : Int.log 10 q = (c.prec - 1 : ℕ) + c.lastPlace q := by
      have hplace : c.lastPlace q = Int.log 10 |q| - (c.prec - 1) := by
        unfold lastPlace at hgt ⊢
        omega
      rw [abs_of_pos hpos] at hplace
      omega
    have hlow : 10 ^ (c.prec - 1) * 10 ^ c.lastPlace q ≤ q := by
      have hq := (Int.zpow_le_iff_le_log (b := 10) (by norm_num) hpos).2 hfirst.ge
      rw [← zpow_natCast, ← zpow_add₀ (by norm_num)]
      exact_mod_cast hq
    have hten : (10 : ℚ) ^ c.prec * 10 ^ e ≤ 10 ^ (c.prec - 1) * 10 ^ c.lastPlace q := by
      rw [← zpow_natCast, ← zpow_natCast, ← zpow_add₀ (by norm_num), ← zpow_add₀ (by norm_num)]
      exact zpow_le_zpow_right₀ (by norm_num) (by omega)
    refine .inr (.inr ⟨hten.trans ?_, le_halfEven ?_⟩)
    · have hkeep := le_keep (c := c) (q := q) (n := 10 ^ (c.prec - 1)) (by exact_mod_cast hlow)
      exact_mod_cast hkeep
    · rw [le_div_iff₀ (Decimal.ten_zpow_pos _)]
      exact_mod_cast hten.trans hlow

variable {n : ℤ}

theorem keep_lt_iff (he : c.etiny ≤ e) (hq : 0 ≤ q) (hlow : 10 ^ (c.prec - 1) < n) (hhigh : n ≤ 10 ^ c.prec) :
    c.keep q < n * 10 ^ e ↔ halfEven (q / 10 ^ e) < n := by
  have hten := Decimal.ten_zpow_pos e
  rcases keep_cases he hq with ⟨hkeep, hround⟩ | hkeep | ⟨hkeep, hround⟩
  · refine iff_of_true (hkeep.trans_lt (mul_lt_mul_of_pos_right ?_ hten)) (hround.trans_lt hlow)
    exact_mod_cast hlow
  · rw [hkeep, mul_lt_mul_iff_left₀ hten, Int.cast_lt]
  · refine iff_of_false (not_lt.2 (le_trans (mul_le_mul_of_nonneg_right ?_ hten.le) hkeep))
      (not_lt.2 (hhigh.trans hround))
    exact_mod_cast hhigh

theorem keep_le_iff (he : c.etiny ≤ e) (hq : 0 ≤ q) (hlow : 10 ^ (c.prec - 1) ≤ n) (hhigh : n < 10 ^ c.prec) :
    c.keep q ≤ n * 10 ^ e ↔ halfEven (q / 10 ^ e) ≤ n := by
  have hten := Decimal.ten_zpow_pos e
  rcases keep_cases he hq with ⟨hkeep, hround⟩ | hkeep | ⟨hkeep, hround⟩
  · refine iff_of_true (hkeep.trans (mul_le_mul_of_nonneg_right ?_ hten.le)) (hround.trans hlow)
    exact_mod_cast hlow
  · rw [hkeep, mul_le_mul_iff_left₀ hten, Int.cast_le]
  · refine iff_of_false (not_le.2 (lt_of_lt_of_le (mul_lt_mul_of_pos_right ?_ hten) hkeep))
      (not_le.2 (hhigh.trans_le hround))
    exact_mod_cast hhigh

end Context

end Vault67
