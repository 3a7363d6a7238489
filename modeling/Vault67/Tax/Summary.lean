/-
`tax/services/aggregation.py`: from collected amounts to the summary.

- `applyManual`: the manual allowances and deductions of each category, then the overall ones, shared in category order
  (`applyOverallReduction`).
- `reductionRule`, `flatRateRule`: one pass of the two rule loops; an overall rule is applied to every category.
- `buildTaxYearSummary`: all stages, the review reasons and the totals.
-/
import Mathlib.Tactic
import Vault67.Tax.Aggregation

namespace Vault67.Tax

open OrderBy Investments

/-! ## Manual items -/

/-- the `attribute` of `_apply_overall_reduction` -/
inductive Attribute where
  | allowances | deductions
deriving DecidableEq, Repr

/-- `taxable_amount -= used` and `attribute += used` -/
def CategoryTaxBreakdown.take (row : CategoryTaxBreakdown) (attr : Attribute) (used : ℚ) : CategoryTaxBreakdown :=
  match attr with
  | .allowances => { row with taxableAmount := row.taxableAmount - used, allowances := row.allowances + used }
  | .deductions => { row with taxableAmount := row.taxableAmount - used, deductions := row.deductions + used }

/-- the loop of `_apply_overall_reduction`, from the categories that are left -/
def reduceInOrder (attr : Attribute) : List TaxableCategory → Breakdowns → ℚ → Breakdowns
  | [], b, _ => b
  | c :: cs, b, remaining =>
    if remaining ≤ 0 then b
    else
      let available := max 0 (b c).taxableAmount
      let used := min available remaining
      reduceInOrder attr cs (b.modify c fun row => row.take attr used) (remaining - used)

/-- `_apply_overall_reduction` -/
def applyOverallReduction (b : Breakdowns) (amount : ℚ) (attr : Attribute) : Breakdowns :=
  reduceInOrder attr categoryOrder b amount

/-- net the losses, then apply the category's own allowances and deductions -/
def manualRow (allowances deductions : ℚ) (row : CategoryTaxBreakdown) : CategoryTaxBreakdown :=
  let row := { row with taxableAmount := max 0 (row.grossAmount + row.losses) }
  let row := row.take .allowances (min row.taxableAmount allowances)
  row.take .deductions (min row.taxableAmount deductions)

def manualCategories (s : Collected) : Breakdowns :=
  categoryOrder.foldl
    (fun b c => Function.update b c (manualRow (s.manualAllowances c) (s.manualDeductions c) (b c))) s.breakdowns

def applyManual (s : Collected) : Breakdowns :=
  let b := applyOverallReduction (manualCategories s) (s.manualAllowances .overall) .allowances
  applyOverallReduction b (s.manualDeductions .overall) .deductions

/-! ## Rules -/

/-- the active rules of the year, by priority -/
def activeRules (tables : TaxTables) (taxYear : TaxYear) : List TaxRule :=
  orderBy (fun r => (toLex (r.priority, r.pk) : ℕ ×ₗ ℕ))
    (tables.rules.filter fun r => r.owner = some taxYear.owner ∧ r.taxYear = some taxYear.pk ∧ r.active)

/-- `rules.exclude(rule_type=FLAT_RATE)` -/
def reductionRules (tables : TaxTables) (taxYear : TaxYear) : List TaxRule :=
  (activeRules tables taxYear).filter fun r => r.ruleType ≠ .flatRate

/-- `rules.filter(rule_type=FLAT_RATE)` -/
def flatRateRules (tables : TaxTables) (taxYear : TaxYear) : List TaxRule :=
  (activeRules tables taxYear).filter fun r => r.ruleType = .flatRate

def TaxRule.targets (r : TaxRule) : List TaxableCategory := if r.category = .overall then categoryOrder else [r.category]

/-- `reduction_limit or ZERO` -/
def TaxRule.reductionLimit (r : TaxRule) : ℚ := (if r.ruleType = .threshold then r.threshold else r.fixedAmount).getD 0

def TaxRule.attr (r : TaxRule) : Attribute := if r.ruleType = .allowance then .allowances else .deductions

/-- what a reduction rule does to one row -/
def reduceRow (r : TaxRule) (row : CategoryTaxBreakdown) : CategoryTaxBreakdown :=
  let before := row.taxableAmount
  let reduction := min before r.reductionLimit
  let row := row.take r.attr reduction
  { row with appliedRules := row.appliedRules ++ [⟨r, before, -reduction, row.taxableAmount, 0⟩] }

def reductionRule (b : Breakdowns) (r : TaxRule) : Breakdowns :=
  r.targets.foldl (fun b c => Function.update b c (reduceRow r (b c))) b

/-- what a flat rate does to one row -/
def taxRow (r : TaxRule) (rate : ℚ) (row : CategoryTaxBreakdown) : CategoryTaxBreakdown :=
  let tax := row.taxableAmount * rate / 100
  { row with
    estimatedTax := row.estimatedTax + tax
    appliedRules := row.appliedRules ++ [⟨r, row.taxableAmount, 0, row.taxableAmount, tax⟩] }

def flatRateRule (b : Breakdowns) (r : TaxRule) : Except Error Breakdowns := do
  let rate ← notNone r.rate
  .ok (r.targets.foldl (fun b c => Function.update b c (taxRow r rate (b c))) b)

/-- the rows after both rule loops -/
def applyRules (tables : TaxTables) (taxYear : TaxYear) (b : Breakdowns) : Except Error Breakdowns :=
  (flatRateRules tables taxYear).foldlM flatRateRule ((reductionRules tables taxYear).foldl reductionRule b)

/-! ## Review -/

/-- income and adjustments, by date and primary key -/
def unclassifiedIncome (db : Db) (taxYear : TaxYear) : List Transaction :=
  orderBy (fun t => (toLex (t.transactionDate, t.pk) : ℕ ×ₗ ℕ)) (db.transactions.filter fun t =>
    t.owner = taxYear.owner ∧ taxYear.Contains t.transactionDate ∧
      (t.transactionType = .income ∨ t.transactionType = .adjustment))

/-- dividends without an investment detail, newest first -/
def genericDividends (db : Db) (taxYear : TaxYear) : List Transaction :=
  orderBy (fun t => (toLex (OrderDual.toDual t.transactionDate, OrderDual.toDual t.pk) : ℕᵒᵈ ×ₗ ℕᵒᵈ))
    (db.transactions.filter fun t =>
      t.owner = taxYear.owner ∧ taxYear.Contains t.transactionDate ∧ t.transactionType = .dividend ∧
        ¬db.hasInvestmentDetail t)

def unclassified (db : Db) (taxYear : TaxYear) : List Transaction :=
  unclassifiedIncome db taxYear ++ genericDividends db taxYear

/-- a positive taxable amount that no flat rate was applied to -/
def CategoryTaxBreakdown.Uncovered (row : CategoryTaxBreakdown) : Prop :=
  0 < row.taxableAmount ∧ ¬∃ trace ∈ row.appliedRules, trace.rule.ruleType = .flatRate

instance (row : CategoryTaxBreakdown) : Decidable row.Uncovered := inferInstanceAs (Decidable (_ ∧ _))

def uncoveredMessage (c : TaxableCategory) : Message :=
  let label := c.label
  .text s!"No active flat-rate tax rule covers {label}."

def reviewReasons (db : Db) (taxYear : TaxYear) (b : Breakdowns) : List Message :=
  (unclassified db taxYear).map (fun t => .unclassified t.description t.transactionDate) ++
    (categoryOrder.filter fun c => (b c).Uncovered).map uncoveredMessage

/-! ## The summary -/

inductive Completeness where
  | incomplete | needsReview | complete
deriving DecidableEq, Repr

structure TaxYearSummary where
  taxYear : TaxYear
  categories : List (TaxableCategory × CategoryTaxBreakdown)
  interestLines : List InterestTaxLine
  dividendLines : List DividendTaxLine
  capitalGainLines : List CapitalGainTaxLine
  taxPaymentLines : List TaxPaymentLine
  grossInterest : ℚ
  grossDividends : ℚ
  realizedCapitalGains : ℚ
  realizedCapitalLosses : ℚ
  netRealizedGain : ℚ
  deductions : ℚ
  allowances : ℚ
  taxWithheld : ℚ
  taxPaid : ℚ
  grossTaxableIncome : ℚ
  estimatedTaxLiability : ℚ
  estimatedTaxDue : ℚ
  estimatedRefundCredit : ℚ
  completeness : Completeness
  reasons : List Message
  unclassifiedTransactions : List Transaction
deriving DecidableEq, Repr

/-- `sum((row.field for row in breakdowns.values()), ZERO)` -/
def Breakdowns.total (b : Breakdowns) (field : CategoryTaxBreakdown → ℚ) : ℚ := (categoryOrder.map fun c => field (b c)).sum

def completenessOf (reasons review : List Message) : Completeness :=
  if reasons ≠ [] then .incomplete else if review ≠ [] then .needsReview else .complete

def summarize (db : Db) (taxYear : TaxYear) (s : Collected) (b : Breakdowns) : TaxYearSummary :=
  let review := reviewReasons db taxYear b
  let taxWithheld := b.total CategoryTaxBreakdown.withholding + s.manualWithholding
  let estimatedTax := b.total CategoryTaxBreakdown.estimatedTax
  let due := estimatedTax - taxWithheld - s.taxPaid
  let capital := b .capitalGain
  { taxYear := taxYear
    categories := categoryOrder.map fun c => (c, b c)
    interestLines := s.interestLines
    dividendLines := s.dividendLines
    capitalGainLines := s.capitalLines
    taxPaymentLines := s.paymentLines
    grossInterest := (b .interest).grossAmount
    grossDividends := (b .dividend).grossAmount
    realizedCapitalGains := capital.grossAmount
    realizedCapitalLosses := capital.losses
    netRealizedGain := capital.grossAmount + capital.losses
    deductions := b.total CategoryTaxBreakdown.deductions
    allowances := b.total CategoryTaxBreakdown.allowances
    taxWithheld := taxWithheld
    taxPaid := s.taxPaid
    grossTaxableIncome := ((categoryOrder.filter fun c => c ≠ .capitalGain).map fun c => (b c).grossAmount).sum
    estimatedTaxLiability := estimatedTax
    estimatedTaxDue := max 0 due
    estimatedRefundCredit := max 0 (-due)
    completeness := completenessOf s.reasons review
    reasons := distinct (s.reasons ++ review)
    unclassifiedTransactions := unclassified db taxYear }

def buildTaxYearSummary (db : Db) (fx : Fx) (tables : TaxTables) (taxYear : TaxYear) : Except Error TaxYearSummary := do
  let s ← collect db fx tables taxYear
  let b ← applyRules tables taxYear (applyManual s)
  .ok (summarize db taxYear s b)

end Vault67.Tax
