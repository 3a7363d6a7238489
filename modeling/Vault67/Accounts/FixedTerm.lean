/-
`accounts/services/fixed_term.py`: the projection of a fixed-term contract, its progress and its status.

A ValueError is its message. The numbers K are those of `Ledger.calculateCompoundInterest`; the results are about the
real ones.

- `FixedTermDetails.law`: what an accepted contract earns after a number of days.
- `projection_eq` / `progress_eq`: the projection is what the law gives for the whole term, and the progress on a day is
  what it gives for the part of the term that has gone by.
- `progress_agrees`: progress, projection and status agree on every day.
-/
import Mathlib.Tactic
import Vault67.Accounts.Forms
import Vault67.Ledger.Interest

namespace Vault67.Accounts

open Accrual Ledger

structure FixedTermProjection (K : Type) where
  principal : K
  grossInterest : K
  maturityValue : K
  durationDays : ℤ

structure FixedTermProgress (K : Type) where
  accruedInterest : K
  daysElapsed : ℤ
  daysRemaining : ℤ
  progressPercent : K

inductive FixedTermStatus where
  | closed | planned | active | matured
deriving DecidableEq, Repr

section

variable {K : Type} [Field K] [LinearOrder K] [Pow K K]

def calculateFixedTermProjection (principal annualInterestRate : K) (startDate maturityDate : Date)
    (calculationMethod : InterestMethod) (compoundingFrequency : Option CompoundingFrequency) :
    Except String (FixedTermProjection K) :=
  if principal ≤ 0 then .error "principal must be positive"
  else if annualInterestRate < 0 then .error "annual_interest_rate must not be negative"
  else if maturityDate ≤ startDate then .error "maturity_date must be after start_date"
  else do
    let interest ← match calculationMethod, compoundingFrequency with
      | .simple, _ => calculateSimpleInterest principal annualInterestRate startDate maturityDate
      | .compound, none => .error "compound interest requires compounding_frequency"
      | .compound, some frequency =>
        calculateCompoundInterest principal annualInterestRate startDate maturityDate frequency
    .ok ⟨principal, interest, principal + interest, days startDate maturityDate⟩

def calculateFixedTermProgress (details : FixedTermDetails) (asOfDate : Date) : Except String (FixedTermProgress K) :=
  let durationDays := days details.startDate details.maturityDate
  if asOfDate < details.startDate then .ok ⟨0, 0, durationDays, 0⟩
  else do
    let effectiveDate := min asOfDate details.maturityDate
    let elapsed := days details.startDate effectiveDate
    let accrued : Except String K :=
      if elapsed = 0 then .ok 0
      else (calculateFixedTermProjection (details.principal : K) details.annualInterestRate details.startDate
        effectiveDate details.interestMethod details.compoundingFrequency).map FixedTermProjection.grossInterest
    let accruedInterest ← accrued
    let remaining := max (days asOfDate details.maturityDate) 0
    let percent := min ((elapsed : K) * 100 / durationDays) 100
    .ok ⟨accruedInterest, elapsed, remaining, percent⟩

/-- the projection of the whole contract, as the account's page shows it -/
def projection (details : FixedTermDetails) : Except String (FixedTermProjection K) :=
  calculateFixedTermProjection details.principal details.annualInterestRate details.startDate details.maturityDate
    details.interestMethod details.compoundingFrequency

end

/-- `account` is the contract's account, `closingDate` its `closing_date` -/
def getFixedTermStatus (account : FinancialAccount) (closingDate : Option Date) (details : FixedTermDetails)
    (asOfDate : Date) : FixedTermStatus :=
  if ¬account.active ∨ closingDate.isSome then .closed
  else if asOfDate < details.startDate then .planned
  else if asOfDate < details.maturityDate then .active
  else .matured

/-! ## Accepted contracts -/

/-- `FixedTermDetails.clean` on the frequency; the other terms are the row's check constraints -/
def Accepted (details : FixedTermDetails) : Prop :=
  details.interestMethod = .compound → details.compoundingFrequency ≠ none

theorem accepted_of_fullClean {db : Db} {account : ℕ} {terms : FixedTermDraft} {details : FixedTermDetails}
    (h : FixedTermDraft.fullClean db account terms = .ok details) : Accepted details := by
  obtain ⟨-, hclean, rfl⟩ := fullClean_eq_ok.1 h
  intro hcompound hnone
  have hfrequency := errorsOf_eq_nil.1 hclean
    (decide (details.interestMethod = .compound ∧ details.compoundingFrequency = none),
    "compounding_frequency", .text "Compound interest requires a frequency.") (by simp)
  exact of_decide_eq_false hfrequency ⟨hcompound, hnone⟩

/-! ## The law of a contract -/

variable {details : FixedTermDetails}

theorem principal_cast_pos (details : FixedTermDetails) : (0 : ℝ) < details.principal :=
  Rat.cast_pos.2 details.constraints.principal_pos

theorem rate_cast_nonneg (details : FixedTermDetails) : (0 : ℝ) ≤ details.annualInterestRate :=
  Rat.cast_nonneg.2 details.constraints.rate_nonneg

theorem term_lt (details : FixedTermDetails) : (details.startDate : ℤ) < details.maturityDate :=
  Int.ofNat_lt.2 details.constraints.maturity_after_start

theorem term_le (details : FixedTermDetails) : (details.startDate : ℤ) ≤ details.maturityDate := (term_lt details).le

theorem duration_pos (details : FixedTermDetails) : (0 : ℝ) < days details.startDate details.maturityDate :=
  Int.cast_pos.2 (sub_pos.2 (term_lt details))

/-- what the contract earns after a number of days -/
noncomputable def law (details : FixedTermDetails) : Law ℤ ℝ :=
  match details.interestMethod, details.compoundingFrequency with
  | .compound, some frequency =>
    compoundLaw details.principal details.annualInterestRate frequency (principal_cast_pos details).le
      (rate_cast_nonneg details)
  | _, _ => simpleLaw details.principal details.annualInterestRate (principal_cast_pos details).le
      (rate_cast_nonneg details)

/-- in percent of the contract's days -/
noncomputable def percentLaw (details : FixedTermDetails) : Law ℤ ℝ :=
  Law.linear (100 / days details.startDate details.maturityDate)
    (div_nonneg (by norm_num) (duration_pos details).le)

theorem percentLaw_days (details : FixedTermDetails) :
    (percentLaw details).earned (days details.startDate details.maturityDate) = 100 :=
  div_mul_cancel₀ _ (duration_pos details).ne'

/-- an accepted contract earns, up to any later day, what its law gives -/
theorem calculateFixedTermProjection_law (haccepted : Accepted details) {day : Date} (hday : details.startDate < day) :
    calculateFixedTermProjection (details.principal : ℝ) details.annualInterestRate details.startDate day
        details.interestMethod details.compoundingFrequency =
      .ok ⟨details.principal, (law details).earned (days details.startDate day),
        details.principal + (law details).earned (days details.startDate day), days details.startDate day⟩ := by
  have hprincipal := principal_cast_pos details
  have hrate := rate_cast_nonneg details
  rw [calculateFixedTermProjection, if_neg hprincipal.not_ge, if_neg hrate.not_gt, if_neg hday.not_ge, law]
  cases hmethod : details.interestMethod with
  | simple =>
    dsimp only
    rw [calculateSimpleInterest_law hprincipal.le hrate hday.le]
    rfl
  | compound =>
    obtain ⟨frequency, hfrequency⟩ := Option.ne_none_iff_exists'.1 (haccepted hmethod)
    rw [hfrequency]
    dsimp only
    rw [calculateCompoundInterest_law hprincipal.le hrate hday.le]
    rfl

/-- what the law gives for the whole term -/
noncomputable def projected (details : FixedTermDetails) : FixedTermProjection ℝ :=
  ⟨details.principal, (law details).earned (days details.startDate details.maturityDate),
    details.principal + (law details).earned (days details.startDate details.maturityDate),
    days details.startDate details.maturityDate⟩

theorem projection_eq (haccepted : Accepted details) : projection details = .ok (projected details) :=
  calculateFixedTermProjection_law haccepted details.constraints.maturity_after_start

/-- what the laws give for the part of the term that has gone by -/
noncomputable def reached (details : FixedTermDetails) (day : Date) : FixedTermProgress ℝ :=
  ⟨accrued (law details) (term_le details) (day : ℤ), elapsed (term_le details) (day : ℤ),
    remaining (term_le details) (day : ℤ), accrued (percentLaw details) (term_le details) (day : ℤ)⟩

theorem days_effective {day : Date} (hday : details.startDate ≤ day) :
    days details.startDate (min day details.maturityDate) = elapsed (term_le details) (day : ℤ) := by
  rw [elapsed_of_start_le _ (Int.ofNat_le.2 hday), days, Nat.cast_min]

/-- from the start on, the percentage is never above 100 by itself -/
theorem percent_eq (details : FixedTermDetails) (day : ℤ) :
    min (((elapsed (term_le details) day : ℤ) : ℝ) * 100 / days details.startDate details.maturityDate) 100 =
      accrued (percentLaw details) (term_le details) day := by
  have hshare : ((elapsed (term_le details) day : ℤ) : ℝ) * 100 / days details.startDate details.maturityDate =
      accrued (percentLaw details) (term_le details) day := by
    rw [mul_comm, mul_div_right_comm]
    rfl
  rw [hshare]
  exact min_eq_left ((accrued_le _ _ _).trans_eq (percentLaw_days details))

/-- a projection up to the day, cut off at maturity, unless no day has gone by -/
theorem accrued_eq (haccepted : Accepted details) {day : Date} (hday : details.startDate ≤ day) :
    (if days details.startDate (min day details.maturityDate) = 0 then Except.ok 0
      else (calculateFixedTermProjection (details.principal : ℝ) details.annualInterestRate details.startDate
        (min day details.maturityDate) details.interestMethod details.compoundingFrequency).map
          FixedTermProjection.grossInterest) = .ok (accrued (law details) (term_le details) day) := by
  have hlater : details.startDate ≤ min day details.maturityDate :=
    le_min hday details.constraints.maturity_after_start.le
  rw [accrued, ← days_effective hday]
  by_cases hzero : days details.startDate (min day details.maturityDate) = 0
  · rw [if_pos hzero, hzero, (law details).earned_zero]
  · have hlt : details.startDate < min day details.maturityDate := by
      refine lt_of_le_of_ne hlater fun hsame => hzero ?_
      rw [days, ← hsame, sub_self]
    rw [if_neg hzero, calculateFixedTermProjection_law haccepted hlt]
    rfl

theorem progress_eq (haccepted : Accepted details) (day : Date) :
    calculateFixedTermProgress details day = .ok (reached details day) := by
  rw [calculateFixedTermProgress, reached]
  by_cases hstart : day < details.startDate
  · have hbefore : (day : ℤ) ≤ details.startDate := Int.ofNat_le.2 hstart.le
    rw [accrued_of_le _ _ hbefore, accrued_of_le _ _ hbefore, elapsed_of_le _ hbefore, remaining_of_le _ hbefore]
    exact if_pos hstart
  · have hday : details.startDate ≤ day := not_lt.1 hstart
    have hfrom : (details.startDate : ℤ) ≤ day := Int.ofNat_le.2 hday
    dsimp only
    rw [if_neg hstart, accrued_eq haccepted hday, remaining_of_start_le _ hfrom, days_effective hday, percent_eq]
    rfl

/-! ## Agreement over time -/

/-- a contract's progress on every day against its projection -/
structure Agreement (details : FixedTermDetails) (progress : Date → FixedTermProgress ℝ)
    (projection : FixedTermProjection ℝ) : Prop where
  accrued_mono : Monotone fun day => (progress day).accruedInterest
  elapsed_mono : Monotone fun day => (progress day).daysElapsed
  percent_mono : Monotone fun day => (progress day).progressPercent
  remaining_anti : Antitone fun day => (progress day).daysRemaining
  elapsed_add_remaining : ∀ day, (progress day).daysElapsed + (progress day).daysRemaining =
    days details.startDate details.maturityDate
  percent_mem : ∀ day, 0 ≤ (progress day).progressPercent ∧ (progress day).progressPercent ≤ 100
  accrued_before : ∀ day ≤ details.startDate, (progress day).accruedInterest = 0
  accrued_le : ∀ day, (progress day).accruedInterest ≤ projection.grossInterest
  accrued_after : ∀ day ≥ details.maturityDate, (progress day).accruedInterest = projection.grossInterest

theorem reached_agreement (details : FixedTermDetails) : Agreement details (reached details) (projected details) where
  accrued_mono := (Accrual.accrued_mono (law details) (term_le details)).comp Nat.mono_cast
  elapsed_mono := (Accrual.elapsed_mono (term_le details)).comp Nat.mono_cast
  percent_mono := (Accrual.accrued_mono (percentLaw details) (term_le details)).comp Nat.mono_cast
  remaining_anti := (Accrual.remaining_anti (term_le details)).comp_monotone Nat.mono_cast
  elapsed_add_remaining day := Accrual.elapsed_add_remaining (term_le details) (day : ℤ)
  percent_mem day := ⟨accrued_nonneg (percentLaw details) (term_le details) day,
    (Accrual.accrued_le (percentLaw details) (term_le details) day).trans_eq (percentLaw_days details)⟩
  accrued_before _ hday := accrued_of_le _ _ (Int.ofNat_le.2 hday)
  accrued_le day := Accrual.accrued_le (law details) (term_le details) day
  accrued_after _ hday := accrued_of_ge _ _ (Int.ofNat_le.2 hday)

/-- the percentage is below 100 exactly before maturity -/
theorem percent_lt_iff (details : FixedTermDetails) (day : Date) :
    (reached details day).progressPercent < 100 ↔ day < details.maturityDate := by
  have hrate : (0 : ℝ) < 100 / days details.startDate details.maturityDate :=
    div_pos (by norm_num) (duration_pos details)
  calc (reached details day).progressPercent < 100
      ↔ (percentLaw details).earned (elapsed (term_le details) (day : ℤ)) <
          (percentLaw details).earned (days details.startDate details.maturityDate) := by
        rw [percentLaw_days]
        rfl
    _ ↔ elapsed (term_le details) (day : ℤ) < days details.startDate details.maturityDate := by
        rw [percentLaw, Law.linear_earned, Law.linear_earned, mul_lt_mul_iff_right₀ hrate, Int.cast_lt]
    _ ↔ day < details.maturityDate := (elapsed_lt_iff _ (term_lt details)).trans Int.ofNat_lt

theorem percent_eq_iff (details : FixedTermDetails) (day : Date) :
    (reached details day).progressPercent = 100 ↔ details.maturityDate ≤ day := by
  rw [← not_lt, ← percent_lt_iff, not_lt]
  exact ⟨fun h => h.ge, fun h => ((reached_agreement details).percent_mem day).2.antisymm h⟩

/-- the status of an open account's contract, from its dates -/
theorem getFixedTermStatus_open {account : FinancialAccount} (hactive : account.active) (day : Date) :
    (getFixedTermStatus account none details day = .planned ↔ day < details.startDate) ∧
      (getFixedTermStatus account none details day = .active ↔
        details.startDate ≤ day ∧ day < details.maturityDate) ∧
      (getFixedTermStatus account none details day = .matured ↔ details.maturityDate ≤ day) := by
  have hterm := details.constraints.maturity_after_start
  rw [getFixedTermStatus, if_neg (by simp [hactive])]
  split_ifs with hplanned hactive
  · simp [hplanned, hplanned.trans hterm]
  · simp [hplanned, hactive, not_lt.1 hplanned]
  · simp [hplanned, hactive, not_lt.1 hactive]

/-- **Progress, projection and status agree.** For every accepted contract the progress only grows, from nothing at the
start to the projection at maturity, and an active account is planned, active or matured as its progress says. -/
theorem progress_agrees (haccepted : Accepted details) :
    ∃ (progress : Date → FixedTermProgress ℝ) (projected : FixedTermProjection ℝ),
      (∀ day, calculateFixedTermProgress details day = .ok (progress day)) ∧
      projection details = .ok projected ∧ Agreement details progress projected ∧
      ∀ (account : FinancialAccount) (day : Date), account.active →
        (getFixedTermStatus account none details day = .planned ↔ day < details.startDate) ∧
        (getFixedTermStatus account none details day = .active ↔
          details.startDate ≤ day ∧ (progress day).progressPercent < 100) ∧
        (getFixedTermStatus account none details day = .matured ↔ (progress day).progressPercent = 100) := by
  refine ⟨reached details, projected details, progress_eq haccepted, projection_eq haccepted,
    reached_agreement details, ?_⟩
  intro account day hactive
  rw [percent_lt_iff, percent_eq_iff]
  exact getFixedTermStatus_open hactive day

/-- 10000 at 3%, compounded monthly, from the first day of 2026 to the first of 2027 -/
def oneYearTerm : FixedTermDetails where
  principal := 10000
  startDate := 739617
  maturityDate := 739982
  annualInterestRate := 3 / 100
  interestMethod := .compound
  compoundingFrequency := some .monthly
  interestPaymentMethod := .atMaturity
  interestDestination := .capitalized
  interestDestinationAccount := none
  earlyWithdrawalAllowed := false
  earlyWithdrawalPenaltyNotes := ""
  maturityInstruction := .undecided
  maturityDestinationAccount := none
  constraints := ⟨by norm_num, by norm_num, by norm_num⟩

theorem progress_agrees_oneYearTerm :
    ∃ (progress : Date → FixedTermProgress ℝ) (projected : FixedTermProjection ℝ),
      (∀ day, calculateFixedTermProgress oneYearTerm day = .ok (progress day)) ∧
      projection oneYearTerm = .ok projected ∧ Agreement oneYearTerm progress projected ∧
      ∀ (account : FinancialAccount) (day : Date), account.active →
        (getFixedTermStatus account none oneYearTerm day = .planned ↔ day < oneYearTerm.startDate) ∧
        (getFixedTermStatus account none oneYearTerm day = .active ↔
          oneYearTerm.startDate ≤ day ∧ (progress day).progressPercent < 100) ∧
        (getFixedTermStatus account none oneYearTerm day = .matured ↔ (progress day).progressPercent = 100) :=
  progress_agrees (fun _ => by decide)

end Vault67.Accounts
