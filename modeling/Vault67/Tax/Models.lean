/-
`tax/models.py`: tax years, their manual items and their rules.

A stored row meets the check constraints of its table, as fields of its structure: `tax_year_dates_valid`,
`tax_deduction_nonnegative`, `tax_allowance_nonnegative`, `tax_adjustment_nonzero` and the three bounds of a rule.
-/
import Mathlib.Tactic
import Vault67.Core.Errors

namespace Vault67.Tax

inductive TaxCategory where
  | interest | dividend | capitalGain | capitalLoss | employmentIncome | otherIncome | deduction | allowance
  | withholdingTax | taxPayment
deriving DecidableEq, Repr

/-- the stored value -/
def TaxCategory.value : TaxCategory → String
  | .interest => "INTEREST"
  | .dividend => "DIVIDEND"
  | .capitalGain => "CAPITAL_GAIN"
  | .capitalLoss => "CAPITAL_LOSS"
  | .employmentIncome => "EMPLOYMENT_INCOME"
  | .otherIncome => "OTHER_INCOME"
  | .deduction => "DEDUCTION"
  | .allowance => "ALLOWANCE"
  | .withholdingTax => "WITHHOLDING_TAX"
  | .taxPayment => "TAX_PAYMENT"

inductive TaxableCategory where
  | interest | dividend | capitalGain | employmentIncome | otherIncome | overall
deriving DecidableEq, Repr

def TaxableCategory.value : TaxableCategory → String
  | .interest => TaxCategory.interest.value
  | .dividend => TaxCategory.dividend.value
  | .capitalGain => TaxCategory.capitalGain.value
  | .employmentIncome => TaxCategory.employmentIncome.value
  | .otherIncome => TaxCategory.otherIncome.value
  | .overall => "OVERALL"

def TaxableCategory.label : TaxableCategory → String
  | .interest => "Interest"
  | .dividend => "Dividend"
  | .capitalGain => "Capital gain"
  | .employmentIncome => "Employment income"
  | .otherIncome => "Other income"
  | .overall => "Overall taxable basis"

/-- the taxable category with the same value, if there is one -/
def TaxCategory.taxable : TaxCategory → Option TaxableCategory
  | .interest => some .interest
  | .dividend => some .dividend
  | .capitalGain => some .capitalGain
  | .employmentIncome => some .employmentIncome
  | .otherIncome => some .otherIncome
  | _ => none

inductive TaxYearStatus where
  | «open» | closed | filed | archived
deriving DecidableEq, Repr

structure TaxYear where
  pk : ℕ
  owner : ℕ
  name : String
  jurisdiction : String
  startDate : Date
  endDate : Date
  reportingCurrency : ℕ
  status : TaxYearStatus
  notes : String
  dates_valid : startDate ≤ endDate
deriving DecidableEq, Repr

/-- what a deduction, an allowance and an adjustment have in common -/
structure TaxYearItem where
  pk : ℕ
  owner : ℕ
  taxYear : ℕ
  active : Bool
deriving DecidableEq, Repr

structure TaxDeduction extends TaxYearItem where
  name : String
  category : TaxableCategory
  amount : ℚ
  currency : ℕ
  date : Date
  notes : String
  amount_nonneg : 0 ≤ amount
deriving DecidableEq, Repr

structure TaxAllowance extends TaxYearItem where
  name : String
  category : TaxableCategory
  amount : ℚ
  currency : ℕ
  notes : String
  amount_nonneg : 0 ≤ amount
deriving DecidableEq, Repr

/-- a blank `applies_to` is none -/
structure TaxAdjustment extends TaxYearItem where
  category : TaxCategory
  appliesTo : Option TaxableCategory
  description : String
  amount : ℚ
  currency : ℕ
  date : Date
  notes : String
  amount_ne : amount ≠ 0
deriving Repr

inductive RuleType where
  | flatRate | threshold | allowance | deduction
deriving DecidableEq, Repr

structure TaxRule where
  pk : ℕ
  owner : Option ℕ
  taxYear : Option ℕ
  jurisdiction : String
  ruleType : RuleType
  category : TaxableCategory
  name : String
  rate : Option ℚ
  threshold : Option ℚ
  fixedAmount : Option ℚ
  priority : ℕ
  active : Bool
  rate_valid : ∀ x ∈ rate, 0 ≤ x ∧ x ≤ 100
  threshold_nonneg : ∀ x ∈ threshold, 0 ≤ x
  fixed_nonneg : ∀ x ∈ fixedAmount, 0 ≤ x
deriving DecidableEq, Repr

structure TaxTables where
  deductions : List TaxDeduction
  allowances : List TaxAllowance
  adjustments : List TaxAdjustment
  rules : List TaxRule
deriving Repr

end Vault67.Tax
