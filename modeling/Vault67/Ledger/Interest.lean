/-
`ledger/calculations/interest.py`: simple and compound interest on an actual/365 day count.

The functions are generic in their numbers K: the exponent of compound interest is a fraction, so `x ** y` is the power
that comes with K, which for the real numbers is the real power. A ValueError is its message. The frequencies are the
codes of `CompoundingFrequency`, so "Unsupported compounding frequency" has no input.

- `calculateSimpleInterest_law` / `calculateCompoundInterest_law`: over the days from one date to a later one, each is
  the law of growth of its rate.
- `growthFactor_mul`: over two periods in a row compound interest grows by the product of both factors.
- `interest_composes`: so both compose over adjacent periods, and compound interest passes simple interest after one
  compounding period.
-/
import Mathlib.Tactic
import Vault67.Core.Tables
import Vault67.Lib.Accrual

namespace Vault67.Ledger

open Accrual

/-- `(end_date - start_date).days` -/
def days (startDate endDate : Date) : ℤ := (endDate : ℤ) - startDate

section

variable {K : Type} [Field K]

def calculateSimpleInterest (principal annualRate : K) (startDate endDate : Date) : Except String K :=
  if endDate < startDate then .error "end_date must not precede start_date"
  else .ok (principal * annualRate * (days startDate endDate : K) / 365)

example : calculateSimpleInterest (10000 : ℚ) (3 / 100) 739617 739982 = .ok 300 := by decide +kernel

/-- periods in a year -/
def periods : CompoundingFrequency → ℕ
  | .daily => 365
  | .monthly => 12
  | .quarterly => 4
  | .annually => 1

def calculateCompoundInterest [Pow K K] (principal annualRate : K) (startDate endDate : Date)
    (compoundingFrequency : CompoundingFrequency) : Except String K :=
  if endDate < startDate then .error "end_date must not precede start_date"
  else
    let frequency : K := periods compoundingFrequency
    let years : K := (days startDate endDate : K) / 365
    .ok (principal * ((1 + annualRate / frequency) ^ (frequency * years) - 1))

end

/-! ## The laws -/

/-- simple interest for each day -/
noncomputable def simpleLaw (principal annualRate : ℝ) (hprincipal : 0 ≤ principal) (hrate : 0 ≤ annualRate) : Law ℤ ℝ :=
  Law.linear (principal * annualRate / 365) (div_nonneg (mul_nonneg hprincipal hrate) (by norm_num))

theorem one_le_growth {annualRate : ℝ} (hrate : 0 ≤ annualRate) (frequency : CompoundingFrequency) :
    1 ≤ 1 + annualRate / (periods frequency : ℝ) :=
  le_add_of_nonneg_right (div_nonneg hrate (Nat.cast_nonneg _))

/-- the factor of one period, to the power of the periods that have gone by -/
noncomputable def compoundLaw (principal annualRate : ℝ) (frequency : CompoundingFrequency) (hprincipal : 0 ≤ principal)
    (hrate : 0 ≤ annualRate) : Law ℤ ℝ :=
  Law.compound principal (1 + annualRate / periods frequency) (periods frequency / 365) hprincipal
    (one_le_growth hrate frequency) (by positivity)

variable {principal annualRate : ℝ} {startDate endDate : Date} (hprincipal : 0 ≤ principal) (hrate : 0 ≤ annualRate)

theorem calculateSimpleInterest_law (hdates : startDate ≤ endDate) :
    calculateSimpleInterest principal annualRate startDate endDate =
      .ok ((simpleLaw principal annualRate hprincipal hrate).earned (days startDate endDate)) := by
  rw [calculateSimpleInterest, if_neg hdates.not_gt, simpleLaw, Law.linear_earned, div_mul_eq_mul_div]

theorem calculateCompoundInterest_law (hdates : startDate ≤ endDate) (frequency : CompoundingFrequency) :
    calculateCompoundInterest principal annualRate startDate endDate frequency =
      .ok ((compoundLaw principal annualRate frequency hprincipal hrate).earned (days startDate endDate)) := by
  rw [calculateCompoundInterest, if_neg hdates.not_gt, compoundLaw, Law.compound_earned, div_mul_eq_mul_div,
    mul_div_assoc]

/-! ## Adjacent periods -/

section

variable {middle : Date} {frequency : CompoundingFrequency} {n : ℤ}

theorem days_add (startDate middle endDate : Date) : days startDate middle + days middle endDate = days startDate endDate := by
  unfold days
  ring

theorem periods_pos (frequency : CompoundingFrequency) : (0 : ℝ) < periods frequency := by
  cases frequency <;> norm_num [periods]

/-- the factor by which a principal grows over a number of days -/
noncomputable def growthFactor (annualRate : ℝ) (frequency : CompoundingFrequency) (n : ℤ) : ℝ :=
  growth (1 + annualRate / periods frequency) (periods frequency / 365) n

theorem growthFactor_mul (hrate : 0 ≤ annualRate) (m n : ℤ) :
    growthFactor annualRate frequency (m + n) = growthFactor annualRate frequency m * growthFactor annualRate frequency n :=
  growth_add (zero_lt_one.trans_le (one_le_growth hrate frequency))

/-- the exponent times the rate of one period is the simple interest of one unit -/
theorem exponent_mul_rate (annualRate : ℝ) (frequency : CompoundingFrequency) (n : ℤ) :
    periods frequency / 365 * n * (annualRate / periods frequency) = annualRate * n / 365 := by
  have hperiods := (periods_pos frequency).ne'
  field_simp

/-- up to one compounding period, simple interest is more -/
theorem growthFactor_le (hrate : 0 ≤ annualRate) (hn : 0 ≤ n) (hperiod : periods frequency * n ≤ 365) :
    growthFactor annualRate frequency n - 1 ≤ annualRate * n / 365 := by
  have hx : 0 ≤ annualRate / periods frequency := div_nonneg hrate (periods_pos frequency).le
  have hn' : (0 : ℝ) ≤ n := Int.cast_nonneg hn
  have hstart : 0 ≤ (periods frequency : ℝ) / 365 * n := mul_nonneg (div_nonneg (periods_pos frequency).le (by norm_num)) hn'
  have hone : (periods frequency : ℝ) / 365 * n ≤ 1 := by
    rw [div_mul_eq_mul_div, div_le_one (by norm_num)]
    exact_mod_cast hperiod
  have hle := growth_le_linear hx hstart hone
  rw [exponent_mul_rate] at hle
  exact sub_le_iff_le_add'.2 hle

/-- from one compounding period on, compound interest is -/
theorem le_growthFactor (hrate : 0 ≤ annualRate) (hperiod : 365 ≤ periods frequency * n) :
    annualRate * n / 365 ≤ growthFactor annualRate frequency n - 1 := by
  have hx : 0 ≤ annualRate / periods frequency := div_nonneg hrate (periods_pos frequency).le
  have hone : 1 ≤ (periods frequency : ℝ) / 365 * n := by
    rw [div_mul_eq_mul_div, one_le_div (by norm_num)]
    exact_mod_cast hperiod
  have hle := linear_le_growth hx hone
  rw [exponent_mul_rate] at hle
  exact le_sub_iff_add_le'.2 hle

/-! ### The calculations -/

theorem calculateSimpleInterest_eq (principal annualRate : ℝ) (hdates : startDate ≤ endDate) :
    calculateSimpleInterest principal annualRate startDate endDate =
      .ok (principal * (annualRate * days startDate endDate / 365)) := by
  rw [calculateSimpleInterest, if_neg hdates.not_gt, mul_assoc, mul_div_assoc]

theorem calculateCompoundInterest_eq (principal annualRate : ℝ) (frequency : CompoundingFrequency)
    (hdates : startDate ≤ endDate) : calculateCompoundInterest principal annualRate startDate endDate frequency =
      .ok (principal * (growthFactor annualRate frequency (days startDate endDate) - 1)) := by
  rw [calculateCompoundInterest, if_neg hdates.not_gt, growthFactor, growth, div_mul_eq_mul_div, mul_div_assoc]

/-- the growth factors of the interest on a principal multiply as the factors do -/
theorem one_add_div_principal (principal : ℝ) {factor first second : ℝ} (h : factor = first * second) :
    1 + principal * (factor - 1) / principal =
      (1 + principal * (first - 1) / principal) * (1 + principal * (second - 1) / principal) := by
  by_cases hzero : principal = 0
  · simp [hzero]
  · rw [mul_div_cancel_left₀ _ hzero, mul_div_cancel_left₀ _ hzero, mul_div_cancel_left₀ _ hzero, h]
    ring

end

/-- **Interest composes over adjacent periods.** Simple interest adds up and the growth factors of compound interest
multiply. Compound interest is at most simple interest up to one compounding period, and at least that from one on. -/
theorem interest_composes {principal annualRate : ℝ} {startDate middle endDate : Date} (hrate : 0 ≤ annualRate)
    (hfirst : startDate ≤ middle) (hsecond : middle ≤ endDate) :
    (∃ first second, calculateSimpleInterest principal annualRate startDate middle = .ok first ∧
      calculateSimpleInterest principal annualRate middle endDate = .ok second ∧
      calculateSimpleInterest principal annualRate startDate endDate = .ok (first + second)) ∧
    ∀ frequency, (∃ first second whole,
      calculateCompoundInterest principal annualRate startDate middle frequency = .ok first ∧
      calculateCompoundInterest principal annualRate middle endDate frequency = .ok second ∧
      calculateCompoundInterest principal annualRate startDate endDate frequency = .ok whole ∧
      1 + whole / principal = (1 + first / principal) * (1 + second / principal)) ∧
      (0 ≤ principal → ∃ simple compound,
        calculateSimpleInterest principal annualRate startDate endDate = .ok simple ∧
        calculateCompoundInterest principal annualRate startDate endDate frequency = .ok compound ∧
        (periods frequency * days startDate endDate ≤ 365 → compound ≤ simple) ∧
        (365 ≤ periods frequency * days startDate endDate → simple ≤ compound)) := by
  have hwhole := hfirst.trans hsecond
  have hdays := days_add startDate middle endDate
  refine ⟨⟨_, _, calculateSimpleInterest_eq _ _ hfirst, calculateSimpleInterest_eq _ _ hsecond, ?_⟩, ?_⟩
  · rw [calculateSimpleInterest_eq _ _ hwhole, ← hdays]
    push_cast
    ring_nf
  · intro frequency
    refine ⟨⟨_, _, _, calculateCompoundInterest_eq _ _ _ hfirst, calculateCompoundInterest_eq _ _ _ hsecond,
      calculateCompoundInterest_eq _ _ _ hwhole, ?_⟩, ?_⟩
    · rw [← hdays]
      exact one_add_div_principal principal (growthFactor_mul hrate _ _)
    · intro hprincipal
      have hstart : 0 ≤ days startDate endDate := sub_nonneg.2 (Int.ofNat_le.2 hwhole)
      refine ⟨_, _, calculateSimpleInterest_eq _ _ hwhole, calculateCompoundInterest_eq _ _ _ hwhole, ?_, ?_⟩
      · exact fun hperiod => mul_le_mul_of_nonneg_left (growthFactor_le hrate hstart hperiod) hprincipal
      · exact fun hperiod => mul_le_mul_of_nonneg_left (le_growthFactor hrate hperiod) hprincipal

/-- 10000 at 3% over the year 2026, with the first of July between -/
theorem interest_composes_halfYears :
    (∃ first second, calculateSimpleInterest (10000 : ℝ) (3 / 100) 739617 739798 = .ok first ∧
      calculateSimpleInterest (10000 : ℝ) (3 / 100) 739798 739982 = .ok second ∧
      calculateSimpleInterest (10000 : ℝ) (3 / 100) 739617 739982 = .ok (first + second)) ∧
    (∃ first second whole, calculateCompoundInterest (10000 : ℝ) (3 / 100) 739617 739798 .monthly = .ok first ∧
      calculateCompoundInterest (10000 : ℝ) (3 / 100) 739798 739982 .monthly = .ok second ∧
      calculateCompoundInterest (10000 : ℝ) (3 / 100) 739617 739982 .monthly = .ok whole ∧
      1 + whole / 10000 = (1 + first / 10000) * (1 + second / 10000)) ∧
    ∃ simple compound, calculateSimpleInterest (10000 : ℝ) (3 / 100) 739617 739982 = .ok simple ∧
      calculateCompoundInterest (10000 : ℝ) (3 / 100) 739617 739982 .monthly = .ok compound ∧ simple ≤ compound := by
  obtain ⟨hsimple, hcompound⟩ :=
    @interest_composes 10000 (3 / 100) 739617 739798 739982 (by norm_num) (by decide) (by decide)
  obtain ⟨hproduct, hcompare⟩ := hcompound .monthly
  obtain ⟨simple, compound, hs, hc, -, hle⟩ := hcompare (by norm_num)
  exact ⟨hsimple, hproduct, simple, compound, hs, hc, hle (by decide)⟩

end Vault67.Ledger
