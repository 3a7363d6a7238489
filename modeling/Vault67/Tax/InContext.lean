/-
The live estimate of a tax year, in a decimal context.

The definitions are those of `Aggregation` and `Summary` with every result rounded, in the order of the source; what does
no arithmetic (the queries, the rows of the tables, the review) is shared. With nothing rounded they are the exact ones
(`buildTaxYearSummary_exact`).
-/
import Mathlib.Tactic
import Vault67.Investments.InContext
import Vault67.Tax.Summary

namespace Vault67.Tax

namespace InContext

open Investments OrderBy

variable (round : ℚ → ℚ)

/-! ## Conversions -/

/-- `_convert` -/
def convert (fx : Fx) (amount : ℚ) (currency : ℕ) (taxYear : TaxYear) (relevantDate : Date)
    (reasons : List Message) : Option ℚ × List Message :=
  match Vault67.InContext.convertCurrency round fx amount currency taxYear.reportingCurrency (some relevantDate) with
  | .ok converted => (some converted, reasons)
  | .error exc => (none, reasons ++ [exc.message])

/-- `_convert_investment` -/
def convertInvestment (db : Db) (fx : Fx) (amount : ℚ) (item : InvestmentTransaction) (taxYear : TaxYear)
    (reasons : List Message) : Option ℚ × List Message :=
  if item.currency = taxYear.reportingCurrency then (some amount, reasons)
  else
    match item.exchangeRate with
    | some rate =>
      convert round fx (round (amount * rate)) (db.account item.account).currency taxYear item.tradeDate reasons
    | none => convert round fx amount item.currency taxYear item.tradeDate reasons

/-- `if y is not None: x += y` -/
def plus (x : ℚ) : Option ℚ → ℚ
  | some y => round (x + y)
  | none => x

/-! ## Source events and manual items -/

def interestEntry (fx : Fx) (taxYear : TaxYear) (s : Collected) (e : TransactionEntry) : Collected :=
  let (converted, reasons) := convert round fx e.amount e.currency taxYear e.transaction.transactionDate s.reasons
  { s with
    reasons := reasons
    interestLines := s.interestLines ++ [{
      account := e.account
      date := e.transaction.transactionDate
      description := e.transaction.description
      originalAmount := e.amount
      currency := e.currency
      reportingAmount := converted }]
    breakdowns := s.breakdowns.modify .interest fun row =>
      { row with grossAmount := plus round row.grossAmount converted } }

def dividendItem (db : Db) (fx : Fx) (taxYear : TaxYear) (s : Collected) (item : InvestmentTransaction) : Collected :=
  let net := round (round (item.grossAmount - item.taxes) - item.fees)
  let (grossReporting, reasons) := convertInvestment round db fx item.grossAmount item taxYear s.reasons
  let (taxReporting, reasons) := convertInvestment round db fx item.taxes item taxYear reasons
  let (netReporting, reasons) := convertInvestment round db fx net item taxYear reasons
  { s with
    reasons := reasons
    dividendLines := s.dividendLines ++ [{
      investmentTransaction := item
      grossOriginal := item.grossAmount
      withholdingOriginal := item.taxes
      netOriginal := net
      grossReporting := grossReporting
      withholdingReporting := taxReporting
      netReporting := netReporting }]
    breakdowns := s.breakdowns.modify .dividend fun row =>
      { row with
        grossAmount := plus round row.grossAmount grossReporting
        withholding := plus round row.withholding taxReporting } }

def addGain (row : CategoryTaxBreakdown) : Option ℚ → CategoryTaxBreakdown
  | some gain =>
    if 0 ≤ gain then { row with grossAmount := round (row.grossAmount + gain) }
    else { row with losses := round (row.losses + gain) }
  | none => row

def gainEvent (fx : Fx) (taxYear : TaxYear) (currency : ℕ) (s : Collected) (event : RealizedGainEvent) : Collected :=
  let tradeDate := event.investmentTransaction.tradeDate
  if tradeDate < taxYear.startDate then s
  else
    let (proceeds, reasons) := convert round fx event.netProceedsBase currency taxYear tradeDate s.reasons
    let (cost, reasons) := convert round fx event.allocatedCostBasisBase currency taxYear tradeDate reasons
    let (gain, reasons) := convert round fx event.gainBase currency taxYear tradeDate reasons
    { s with
      reasons := reasons
      capitalLines := s.capitalLines ++ [⟨event, proceeds, cost, gain⟩]
      breakdowns := s.breakdowns.modify .capitalGain fun row => addGain round row gain }

def brokerageAccount (db : Db) (fx : Fx) (taxYear : TaxYear) (s : Collected) (account : ℕ) : Except Error Collected :=
  match Investments.InContext.calculateRealizedGainEvents round db account (some taxYear.endDate) with
  | .ok events => .ok (events.foldl (gainEvent round fx taxYear (db.account account).currency) s)
  | .error (.validation errors) => .ok { s with reasons := s.reasons ++ errors.messages }
  | .error e => .error e

def taxEntry (fx : Fx) (taxYear : TaxYear) (s : Collected) (e : TransactionEntry) : Collected :=
  let (converted, reasons) := convert round fx (-e.amount) e.currency taxYear e.transaction.transactionDate s.reasons
  { s with
    reasons := reasons
    taxPaid := plus round s.taxPaid converted
    paymentLines := s.paymentLines ++ [{
      account := e.account
      date := e.transaction.transactionDate
      description := e.transaction.description
      originalAmount := -e.amount
      currency := e.currency
      reportingAmount := converted }] }

/-- `amounts[key] += converted`, when there is an amount -/
def addTo (amounts : TaxableCategory → ℚ) (c : TaxableCategory) (converted : Option ℚ) : TaxableCategory → ℚ :=
  Function.update amounts c (plus round (amounts c) converted)

def allowanceItem (fx : Fx) (taxYear : TaxYear) (s : Collected) (item : TaxAllowance) : Collected :=
  let (converted, reasons) := convert round fx item.amount item.currency taxYear taxYear.startDate s.reasons
  { s with reasons := reasons, manualAllowances := addTo round s.manualAllowances item.category converted }

def deductionItem (fx : Fx) (taxYear : TaxYear) (s : Collected) (item : TaxDeduction) : Collected :=
  let (converted, reasons) := convert round fx item.amount item.currency taxYear item.date s.reasons
  { s with reasons := reasons, manualDeductions := addTo round s.manualDeductions item.category converted }

/-- one converted adjustment, by its category -/
def adjust (s : Collected) (item : TaxAdjustment) (converted : ℚ) : Collected :=
  match item.category.taxable with
  | some c =>
    { s with
      breakdowns := s.breakdowns.modify c fun row => { row with grossAmount := round (row.grossAmount + converted) } }
  | none =>
    match item.category with
    | .capitalLoss =>
      { s with
        breakdowns := s.breakdowns.modify .capitalGain fun row =>
          { row with losses := round (row.losses - |converted|) } }
    | .allowance =>
      { s with manualAllowances := addTo round s.manualAllowances (item.appliesTo.getD .overall) (some |converted|) }
    | .deduction =>
      { s with manualDeductions := addTo round s.manualDeductions (item.appliesTo.getD .overall) (some |converted|) }
    | .withholdingTax =>
      match item.appliesTo.filter fun c => c ∈ categoryOrder with
      | some c =>
        { s with
          breakdowns := s.breakdowns.modify c fun row =>
            { row with withholding := round (row.withholding + |converted|) } }
      | none => { s with manualWithholding := round (s.manualWithholding + |converted|) }
    | .taxPayment => { s with taxPaid := round (s.taxPaid + |converted|) }
    | _ => s

def adjustmentItem (fx : Fx) (taxYear : TaxYear) (s : Collected) (item : TaxAdjustment) : Collected :=
  let (converted, reasons) := convert round fx item.amount item.currency taxYear item.date s.reasons
  match converted with
  | some x => adjust round { s with reasons := reasons } item x
  | none => { s with reasons := reasons }

def collectEvents (db : Db) (fx : Fx) (taxYear : TaxYear) : Except Error Collected := do
  let s := (interestEntries db taxYear).foldl (interestEntry round fx taxYear) {}
  let s := (dividends db taxYear).foldl (dividendItem round db fx taxYear) s
  let s ← (brokerageAccounts db taxYear).foldlM (brokerageAccount round db fx taxYear) s
  .ok ((taxEntries db taxYear).foldl (taxEntry round fx taxYear) s)

def collectManual (fx : Fx) (tables : TaxTables) (taxYear : TaxYear) (s : Collected) : Collected :=
  let s := (activeAllowances tables taxYear).foldl (allowanceItem round fx taxYear) s
  let s := (activeDeductions tables taxYear).foldl (deductionItem round fx taxYear) s
  (activeAdjustments tables taxYear).foldl (adjustmentItem round fx taxYear) s

def collect (db : Db) (fx : Fx) (tables : TaxTables) (taxYear : TaxYear) : Except Error Collected := do
  let s ← collectEvents round db fx taxYear
  .ok (collectManual round fx tables taxYear s)

theorem collect_exact : collect id = Tax.collect := rfl

/-! ## Reductions and rules -/

/-- `taxable_amount -= used` and `attribute += used` -/
def take (row : CategoryTaxBreakdown) (attr : Attribute) (used : ℚ) : CategoryTaxBreakdown :=
  match attr with
  | .allowances =>
    { row with taxableAmount := round (row.taxableAmount - used), allowances := round (row.allowances + used) }
  | .deductions =>
    { row with taxableAmount := round (row.taxableAmount - used), deductions := round (row.deductions + used) }

/-- the loop of `_apply_overall_reduction`, from the categories that are left -/
def reduceInOrder (attr : Attribute) : List TaxableCategory → Breakdowns → ℚ → Breakdowns
  | [], b, _ => b
  | c :: cs, b, remaining =>
    if remaining ≤ 0 then b
    else
      let available := max 0 (b c).taxableAmount
      let used := min available remaining
      reduceInOrder attr cs (b.modify c fun row => take round row attr used) (round (remaining - used))

/-- `_apply_overall_reduction` -/
def applyOverallReduction (b : Breakdowns) (amount : ℚ) (attr : Attribute) : Breakdowns :=
  reduceInOrder round attr categoryOrder b amount

def manualRow (allowances deductions : ℚ) (row : CategoryTaxBreakdown) : CategoryTaxBreakdown :=
  let row := { row with taxableAmount := max 0 (round (row.grossAmount + row.losses)) }
  let row := take round row .allowances (min row.taxableAmount allowances)
  take round row .deductions (min row.taxableAmount deductions)

def manualCategories (s : Collected) : Breakdowns :=
  categoryOrder.foldl
    (fun b c => Function.update b c (manualRow round (s.manualAllowances c) (s.manualDeductions c) (b c))) s.breakdowns

def applyManual (s : Collected) : Breakdowns :=
  let b := applyOverallReduction round (manualCategories round s) (s.manualAllowances .overall) .allowances
  applyOverallReduction round b (s.manualDeductions .overall) .deductions

def reduceRow (r : TaxRule) (row : CategoryTaxBreakdown) : CategoryTaxBreakdown :=
  let before := row.taxableAmount
  let reduction := min before r.reductionLimit
  let row := take round row r.attr reduction
  { row with appliedRules := row.appliedRules ++ [⟨r, before, -reduction, row.taxableAmount, 0⟩] }

def reductionRule (b : Breakdowns) (r : TaxRule) : Breakdowns :=
  r.targets.foldl (fun b c => Function.update b c (reduceRow round r (b c))) b

def taxRow (r : TaxRule) (rate : ℚ) (row : CategoryTaxBreakdown) : CategoryTaxBreakdown :=
  let tax := round (round (row.taxableAmount * rate) / 100)
  { row with
    estimatedTax := round (row.estimatedTax + tax)
    appliedRules := row.appliedRules ++ [⟨r, row.taxableAmount, 0, row.taxableAmount, tax⟩] }

def flatRateRule (b : Breakdowns) (r : TaxRule) : Except Error Breakdowns := do
  let rate ← notNone r.rate
  .ok (r.targets.foldl (fun b c => Function.update b c (taxRow round r rate (b c))) b)

def applyRules (tables : TaxTables) (taxYear : TaxYear) (b : Breakdowns) : Except Error Breakdowns :=
  (flatRateRules tables taxYear).foldlM (flatRateRule round)
    ((reductionRules tables taxYear).foldl (reductionRule round) b)

theorem reduceInOrder_exact (attr : Attribute) (cs : List TaxableCategory) (b : Breakdowns) (remaining : ℚ) :
    reduceInOrder id attr cs b remaining = Tax.reduceInOrder attr cs b remaining := by
  induction cs generalizing b remaining with
  | nil => rfl
  | cons c cs ih =>
    rw [reduceInOrder, Tax.reduceInOrder]
    exact ite_congr rfl (fun _ => rfl) fun _ => ih _ _

theorem applyOverallReduction_exact : applyOverallReduction id = Tax.applyOverallReduction := by
  funext b amount attr
  exact reduceInOrder_exact attr categoryOrder b amount

theorem applyManual_exact : applyManual id = Tax.applyManual := by
  unfold applyManual
  rw [applyOverallReduction_exact]
  rfl

/-! ## The summary -/

/-- `sum((row.field for row in breakdowns.values()), ZERO)` -/
def total (b : Breakdowns) (field : CategoryTaxBreakdown → ℚ) : ℚ :=
  Vault67.InContext.sum round (categoryOrder.map fun c => field (b c))

def summarize (db : Db) (taxYear : TaxYear) (s : Collected) (b : Breakdowns) : TaxYearSummary :=
  let review := reviewReasons db taxYear b
  let taxWithheld := round (total round b CategoryTaxBreakdown.withholding + s.manualWithholding)
  let estimatedTax := total round b CategoryTaxBreakdown.estimatedTax
  let due := round (round (estimatedTax - taxWithheld) - s.taxPaid)
  let capital := b .capitalGain
  { taxYear := taxYear
    categories := categoryOrder.map fun c => (c, b c)
    interestLines := s.interestLines
    dividendLines := s.dividendLines
    capitalGainLines := s.capitalLines
    taxPaymentLines := s.paymentLines
    grossInterest := (b .interest).grossAmount
    grossDividends := (b .dividend).grossAmount
    realizedCapitalGains := capital.grossAmount
    realizedCapitalLosses := capital.losses
    netRealizedGain := round (capital.grossAmount + capital.losses)
    deductions := total round b CategoryTaxBreakdown.deductions
    allowances := total round b CategoryTaxBreakdown.allowances
    taxWithheld := taxWithheld
    taxPaid := s.taxPaid
    grossTaxableIncome := Vault67.InContext.sum round
      ((categoryOrder.filter fun c => c ≠ .capitalGain).map fun c => (b c).grossAmount)
    estimatedTaxLiability := estimatedTax
    estimatedTaxDue := max 0 due
    estimatedRefundCredit := max 0 (-due)
    completeness := completenessOf s.reasons review
    reasons := distinct (s.reasons ++ review)
    unclassifiedTransactions := unclassified db taxYear }

def buildTaxYearSummary (db : Db) (fx : Fx) (tables : TaxTables) (taxYear : TaxYear) : Except Error TaxYearSummary := do
  let s ← collect round db fx tables taxYear
  let b ← applyRules round tables taxYear (applyManual round s)
  .ok (summarize round db taxYear s b)

theorem total_exact (b : Breakdowns) (field : CategoryTaxBreakdown → ℚ) : total id b field = b.total field :=
  congrFun Vault67.InContext.sum_exact _

theorem summarize_exact : summarize id = Tax.summarize := by
  funext db taxYear s b
  simp only [summarize, total_exact, Vault67.InContext.sum_exact]
  rfl

/-- **Exact arithmetic.** A context that keeps every number computes the exact summary, or fails as it does. -/
theorem buildTaxYearSummary_exact : buildTaxYearSummary id = Tax.buildTaxYearSummary := by
  unfold buildTaxYearSummary
  rw [applyManual_exact, summarize_exact]
  rfl

end InContext

end Vault67.Tax
