/-
`tax/services/aggregation.py`: the live estimate of a tax year.

`collect` reads the source events and the manual items into `Collected`, the local variables of
`build_tax_year_summary`; each loop of the source is one step function here. `applyManual` and the two rule loops then
turn the rows of the five categories into taxable amounts and tax. A sale whose account cannot be replayed and an
amount without an exchange rate leave a reason; any other error of a replay escapes, and so does a flat-rate rule
without a rate.
-/
import Mathlib.Tactic
import Vault67.Core.Fx
import Vault67.Investments.Holdings
import Vault67.Tax.Models

namespace Vault67.Tax

open OrderBy Investments

/-- `CATEGORY_ORDER` -/
def categoryOrder : List TaxableCategory := [.interest, .dividend, .capitalGain, .employmentIncome, .otherIncome]

/-! ## Lines and rows -/

structure InterestTaxLine where
  account : ℕ
  date : Date
  description : String
  originalAmount : ℚ
  currency : ℕ
  reportingAmount : Option ℚ
deriving DecidableEq, Repr

structure DividendTaxLine where
  investmentTransaction : InvestmentTransaction
  grossOriginal : ℚ
  withholdingOriginal : ℚ
  netOriginal : ℚ
  grossReporting : Option ℚ
  withholdingReporting : Option ℚ
  netReporting : Option ℚ
deriving DecidableEq, Repr

structure CapitalGainTaxLine where
  event : RealizedGainEvent
  netProceedsReporting : Option ℚ
  allocatedCostReporting : Option ℚ
  gainReporting : Option ℚ
deriving DecidableEq, Repr

structure TaxPaymentLine where
  account : ℕ
  date : Date
  description : String
  originalAmount : ℚ
  currency : ℕ
  reportingAmount : Option ℚ
deriving DecidableEq, Repr

structure RuleTrace where
  rule : TaxRule
  inputAmount : ℚ
  adjustment : ℚ
  outputAmount : ℚ
  tax : ℚ
deriving DecidableEq, Repr

/-- the row of a category; its category is its key in `Breakdowns` -/
structure CategoryTaxBreakdown where
  grossAmount : ℚ := 0
  losses : ℚ := 0
  allowances : ℚ := 0
  deductions : ℚ := 0
  taxableAmount : ℚ := 0
  estimatedTax : ℚ := 0
  withholding : ℚ := 0
  appliedRules : List RuleTrace := []
deriving DecidableEq, Repr

/-- the rows of the categories in `categoryOrder` -/
abbrev Breakdowns := TaxableCategory → CategoryTaxBreakdown

def Breakdowns.modify (b : Breakdowns) (c : TaxableCategory) (f : CategoryTaxBreakdown → CategoryTaxBreakdown) :
    Breakdowns := Function.update b c (f (b c))

/-! ## Conversions -/

/-- `_convert` -/
def convert (fx : Fx) (amount : ℚ) (currency : ℕ) (taxYear : TaxYear) (relevantDate : Date)
    (reasons : List Message) : Option ℚ × List Message :=
  match convertCurrency fx amount currency taxYear.reportingCurrency (some relevantDate) with
  | .ok converted => (some converted, reasons)
  | .error exc => (none, reasons ++ [exc.message])

/-- `_convert_investment` -/
def convertInvestment (db : Db) (fx : Fx) (amount : ℚ) (item : InvestmentTransaction) (taxYear : TaxYear)
    (reasons : List Message) : Option ℚ × List Message :=
  if item.currency = taxYear.reportingCurrency then (some amount, reasons)
  else
    match item.exchangeRate with
    | some rate => convert fx (amount * rate) (db.account item.account).currency taxYear item.tradeDate reasons
    | none => convert fx amount item.currency taxYear item.tradeDate reasons

/-- `if y is not None: x += y` -/
def plus (x : ℚ) : Option ℚ → ℚ
  | some y => x + y
  | none => x

/-! ## Source events and manual items -/

/-- the local variables of `build_tax_year_summary` -/
structure Collected where
  reasons : List Message := []
  interestLines : List InterestTaxLine := []
  dividendLines : List DividendTaxLine := []
  capitalLines : List CapitalGainTaxLine := []
  paymentLines : List TaxPaymentLine := []
  breakdowns : Breakdowns := fun _ => {}
  taxPaid : ℚ := 0
  manualAllowances : TaxableCategory → ℚ := fun _ => 0
  manualDeductions : TaxableCategory → ℚ := fun _ => 0
  manualWithholding : ℚ := 0

def TaxYear.Contains (taxYear : TaxYear) (d : Date) : Prop := taxYear.startDate ≤ d ∧ d ≤ taxYear.endDate

instance (taxYear : TaxYear) (d : Date) : Decidable (taxYear.Contains d) := inferInstanceAs (Decidable (_ ∧ _))

/-- the default order of entries: transaction date, primary key -/
def entryKey (e : TransactionEntry) : ℕ ×ₗ ℕ := toLex (e.transaction.transactionDate, e.pk)

def interestEntries (db : Db) (taxYear : TaxYear) : List TransactionEntry :=
  orderBy entryKey (db.entries.filter fun e =>
    e.transaction.owner = taxYear.owner ∧ e.transaction.transactionType = .interest ∧ 0 < e.amount ∧
      taxYear.Contains e.transaction.transactionDate)

def interestEntry (fx : Fx) (taxYear : TaxYear) (s : Collected) (e : TransactionEntry) : Collected :=
  let (converted, reasons) := convert fx e.amount e.currency taxYear e.transaction.transactionDate s.reasons
  { s with
    reasons := reasons
    interestLines := s.interestLines ++ [{
      account := e.account
      date := e.transaction.transactionDate
      description := e.transaction.description
      originalAmount := e.amount
      currency := e.currency
      reportingAmount := converted }]
    breakdowns := s.breakdowns.modify .interest fun row => { row with grossAmount := plus row.grossAmount converted } }

def dividends (db : Db) (taxYear : TaxYear) : List InvestmentTransaction :=
  orderBy replayKey (db.investments.filter fun i =>
    (db.account i.account).owner = taxYear.owner ∧ i.transactionType = .dividend ∧ taxYear.Contains i.tradeDate)

def dividendItem (db : Db) (fx : Fx) (taxYear : TaxYear) (s : Collected) (item : InvestmentTransaction) : Collected :=
  let net := item.grossAmount - item.taxes - item.fees
  let (grossReporting, reasons) := convertInvestment db fx item.grossAmount item taxYear s.reasons
  let (taxReporting, reasons) := convertInvestment db fx item.taxes item taxYear reasons
  let (netReporting, reasons) := convertInvestment db fx net item taxYear reasons
  { s with
    reasons := reasons
    dividendLines := s.dividendLines ++ [{
      investmentTransaction := item
      grossOriginal := item.grossAmount
      withholdingOriginal := item.taxes
      netOriginal := net
      grossReporting := grossReporting
      withholdingReporting := taxReporting
      netReporting := netReporting }]
    breakdowns := s.breakdowns.modify .dividend fun row =>
      { row with
        grossAmount := plus row.grossAmount grossReporting
        withholding := plus row.withholding taxReporting } }

/-- the brokerage accounts of the owner, by name -/
def brokerageAccounts (db : Db) (taxYear : TaxYear) : List ℕ :=
  orderBy (fun a => (db.account a).name)
    (db.accountIds.filter fun a => (db.account a).owner = taxYear.owner ∧ (db.account a).accountType = .brokerage)

/-- a gain is added to the gross amount, a loss to the losses -/
def CategoryTaxBreakdown.addGain (row : CategoryTaxBreakdown) : Option ℚ → CategoryTaxBreakdown
  | some gain =>
    if 0 ≤ gain then { row with grossAmount := row.grossAmount + gain } else { row with losses := row.losses + gain }
  | none => row

def gainEvent (fx : Fx) (taxYear : TaxYear) (currency : ℕ) (s : Collected) (event : RealizedGainEvent) : Collected :=
  let tradeDate := event.investmentTransaction.tradeDate
  if tradeDate < taxYear.startDate then s
  else
    let (proceeds, reasons) := convert fx event.netProceedsBase currency taxYear tradeDate s.reasons
    let (cost, reasons) := convert fx event.allocatedCostBasisBase currency taxYear tradeDate reasons
    let (gain, reasons) := convert fx event.gainBase currency taxYear tradeDate reasons
    { s with
      reasons := reasons
      capitalLines := s.capitalLines ++ [⟨event, proceeds, cost, gain⟩]
      breakdowns := s.breakdowns.modify .capitalGain fun row => row.addGain gain }

def brokerageAccount (db : Db) (fx : Fx) (taxYear : TaxYear) (s : Collected) (account : ℕ) : Except Error Collected :=
  match calculateRealizedGainEvents db account (some taxYear.endDate) with
  | .ok events => .ok (events.foldl (gainEvent fx taxYear (db.account account).currency) s)
  | .error (.validation errors) => .ok { s with reasons := s.reasons ++ errors.messages }
  | .error e => .error e

def taxEntries (db : Db) (taxYear : TaxYear) : List TransactionEntry :=
  orderBy entryKey (db.entries.filter fun e =>
    e.transaction.owner = taxYear.owner ∧ e.transaction.transactionType = .tax ∧ e.amount < 0 ∧
      taxYear.Contains e.transaction.transactionDate)

def taxEntry (fx : Fx) (taxYear : TaxYear) (s : Collected) (e : TransactionEntry) : Collected :=
  let (converted, reasons) := convert fx (-e.amount) e.currency taxYear e.transaction.transactionDate s.reasons
  { s with
    reasons := reasons
    taxPaid := plus s.taxPaid converted
    paymentLines := s.paymentLines ++ [{
      account := e.account
      date := e.transaction.transactionDate
      description := e.transaction.description
      originalAmount := -e.amount
      currency := e.currency
      reportingAmount := converted }] }

/-- the filter `owner=tax_year.owner, tax_year=tax_year, active=True` -/
def TaxYearItem.Counts (item : TaxYearItem) (taxYear : TaxYear) : Prop :=
  item.owner = taxYear.owner ∧ item.taxYear = taxYear.pk ∧ item.active

instance (item : TaxYearItem) (taxYear : TaxYear) : Decidable (item.Counts taxYear) :=
  inferInstanceAs (Decidable (_ ∧ _ ∧ _))

def activeAllowances (tables : TaxTables) (taxYear : TaxYear) : List TaxAllowance :=
  orderBy (fun i => (toLex (i.category.value, i.name) : String ×ₗ String))
    (tables.allowances.filter fun i => i.Counts taxYear)

def activeDeductions (tables : TaxTables) (taxYear : TaxYear) : List TaxDeduction :=
  orderBy (fun i => (toLex (i.date, i.name) : ℕ ×ₗ String)) (tables.deductions.filter fun i => i.Counts taxYear)

def activeAdjustments (tables : TaxTables) (taxYear : TaxYear) : List TaxAdjustment :=
  orderBy (fun i => (toLex (i.date, toLex (i.category.value, i.description)) : ℕ ×ₗ String ×ₗ String))
    (tables.adjustments.filter fun i => i.Counts taxYear)

/-- `amounts[key] += converted`, when there is an amount -/
def addTo (amounts : TaxableCategory → ℚ) (c : TaxableCategory) (converted : Option ℚ) : TaxableCategory → ℚ :=
  Function.update amounts c (plus (amounts c) converted)

def allowanceItem (fx : Fx) (taxYear : TaxYear) (s : Collected) (item : TaxAllowance) : Collected :=
  let (converted, reasons) := convert fx item.amount item.currency taxYear taxYear.startDate s.reasons
  { s with reasons := reasons, manualAllowances := addTo s.manualAllowances item.category converted }

def deductionItem (fx : Fx) (taxYear : TaxYear) (s : Collected) (item : TaxDeduction) : Collected :=
  let (converted, reasons) := convert fx item.amount item.currency taxYear item.date s.reasons
  { s with reasons := reasons, manualDeductions := addTo s.manualDeductions item.category converted }

/-- one converted adjustment, by its category; a category that is none of these adds nothing -/
def adjust (s : Collected) (item : TaxAdjustment) (converted : ℚ) : Collected :=
  match item.category.taxable with
  | some c =>
    { s with
      breakdowns := s.breakdowns.modify c fun row => { row with grossAmount := row.grossAmount + converted } }
  | none =>
    match item.category with
    | .capitalLoss =>
      { s with
        breakdowns := s.breakdowns.modify .capitalGain fun row => { row with losses := row.losses - |converted| } }
    | .allowance =>
      { s with manualAllowances := addTo s.manualAllowances (item.appliesTo.getD .overall) (some |converted|) }
    | .deduction =>
      { s with manualDeductions := addTo s.manualDeductions (item.appliesTo.getD .overall) (some |converted|) }
    | .withholdingTax =>
      match item.appliesTo.filter fun c => c ∈ categoryOrder with
      | some c =>
        { s with
          breakdowns := s.breakdowns.modify c fun row => { row with withholding := row.withholding + |converted| } }
      | none => { s with manualWithholding := s.manualWithholding + |converted| }
    | .taxPayment => { s with taxPaid := s.taxPaid + |converted| }
    | _ => s

def adjustmentItem (fx : Fx) (taxYear : TaxYear) (s : Collected) (item : TaxAdjustment) : Collected :=
  let (converted, reasons) := convert fx item.amount item.currency taxYear item.date s.reasons
  match converted with
  | some x => adjust { s with reasons := reasons } item x
  | none => { s with reasons := reasons }

/-- interest, dividends, realized gains and tax payments -/
def collectEvents (db : Db) (fx : Fx) (taxYear : TaxYear) : Except Error Collected := do
  let s := (interestEntries db taxYear).foldl (interestEntry fx taxYear) {}
  let s := (dividends db taxYear).foldl (dividendItem db fx taxYear) s
  let s ← (brokerageAccounts db taxYear).foldlM (brokerageAccount db fx taxYear) s
  .ok ((taxEntries db taxYear).foldl (taxEntry fx taxYear) s)

def collectManual (fx : Fx) (tables : TaxTables) (taxYear : TaxYear) (s : Collected) : Collected :=
  let s := (activeAllowances tables taxYear).foldl (allowanceItem fx taxYear) s
  let s := (activeDeductions tables taxYear).foldl (deductionItem fx taxYear) s
  (activeAdjustments tables taxYear).foldl (adjustmentItem fx taxYear) s

def collect (db : Db) (fx : Fx) (tables : TaxTables) (taxYear : TaxYear) : Except Error Collected := do
  let s ← collectEvents db fx taxYear
  .ok (collectManual fx tables taxYear s)

end Vault67.Tax
