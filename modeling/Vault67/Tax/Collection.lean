/-
What the loops of a summary collect.

`Collected` is a monoid: amounts add up, lines and reasons are appended. Every loop adds to it the part of each of its
rows, whatever was collected before.

- `interestEntry_eq`, …, `adjustmentItem_eq`: one row of each loop.
- `eventParts_induction`, `manualParts_induction`: a property of every part that adds up holds of the whole.
- `collect_ok_iff`: the whole collection is the sum of the parts; it raises exactly when the replay of some brokerage
  account raises something else than a validation error.
-/
import Mathlib.Tactic
import Vault67.Lib.Accumulate
import Vault67.Tax.Aggregation

namespace Vault67.Tax

open Investments Accumulate Fallible

/-! ## Collected amounts add up -/

def CategoryTaxBreakdown.add (a b : CategoryTaxBreakdown) : CategoryTaxBreakdown where
  grossAmount := a.grossAmount + b.grossAmount
  losses := a.losses + b.losses
  allowances := a.allowances + b.allowances
  deductions := a.deductions + b.deductions
  taxableAmount := a.taxableAmount + b.taxableAmount
  estimatedTax := a.estimatedTax + b.estimatedTax
  withholding := a.withholding + b.withholding
  appliedRules := a.appliedRules ++ b.appliedRules

instance : Zero CategoryTaxBreakdown := ⟨{}⟩

instance : Add CategoryTaxBreakdown := ⟨CategoryTaxBreakdown.add⟩

theorem CategoryTaxBreakdown.zero_def : (0 : CategoryTaxBreakdown) = {} := rfl

@[simp] theorem CategoryTaxBreakdown.zero_grossAmount : (0 : CategoryTaxBreakdown).grossAmount = 0 := rfl

@[simp] theorem CategoryTaxBreakdown.zero_losses : (0 : CategoryTaxBreakdown).losses = 0 := rfl

@[simp] theorem CategoryTaxBreakdown.zero_withholding : (0 : CategoryTaxBreakdown).withholding = 0 := rfl

theorem CategoryTaxBreakdown.add_def (a b : CategoryTaxBreakdown) : a + b = a.add b := rfl

instance : AddMonoid CategoryTaxBreakdown where
  add_assoc a b c := by simp [CategoryTaxBreakdown.add_def, CategoryTaxBreakdown.add, add_assoc]
  zero_add a := by simp [CategoryTaxBreakdown.add_def, CategoryTaxBreakdown.add, CategoryTaxBreakdown.zero_def]
  add_zero a := by simp [CategoryTaxBreakdown.add_def, CategoryTaxBreakdown.add, CategoryTaxBreakdown.zero_def]
  nsmul := nsmulRec

def Collected.add (a b : Collected) : Collected where
  reasons := a.reasons ++ b.reasons
  interestLines := a.interestLines ++ b.interestLines
  dividendLines := a.dividendLines ++ b.dividendLines
  capitalLines := a.capitalLines ++ b.capitalLines
  paymentLines := a.paymentLines ++ b.paymentLines
  breakdowns := a.breakdowns + b.breakdowns
  taxPaid := a.taxPaid + b.taxPaid
  manualAllowances := a.manualAllowances + b.manualAllowances
  manualDeductions := a.manualDeductions + b.manualDeductions
  manualWithholding := a.manualWithholding + b.manualWithholding

instance : Zero Collected := ⟨{}⟩

instance : Add Collected := ⟨Collected.add⟩

theorem Collected.zero_def : (0 : Collected) = {} := rfl

@[simp] theorem Collected.zero_breakdowns : (0 : Collected).breakdowns = 0 := rfl

@[simp] theorem Collected.zero_taxPaid : (0 : Collected).taxPaid = 0 := rfl

@[simp] theorem Collected.zero_manualWithholding : (0 : Collected).manualWithholding = 0 := rfl

theorem Collected.add_def (a b : Collected) : a + b = a.add b := rfl

theorem breakdowns_zero : (fun _ => {} : Breakdowns) = 0 := rfl

theorem amounts_zero : (fun _ => 0 : TaxableCategory → ℚ) = 0 := rfl

instance : AddMonoid Collected where
  add_assoc a b c := by simp [Collected.add_def, Collected.add, add_assoc]
  zero_add a := by simp [Collected.add_def, Collected.add, Collected.zero_def, breakdowns_zero, amounts_zero]
  add_zero a := by simp [Collected.add_def, Collected.add, Collected.zero_def, breakdowns_zero, amounts_zero]
  nsmul := nsmulRec

theorem plus_eq (x : ℚ) (y : Option ℚ) : plus x y = x + y.getD 0 := by
  cases y <;> simp [plus]

/-- a change of one row that adds to it adds to the rows -/
theorem modify_eq_add {b : Breakdowns} {c : TaxableCategory} {f : CategoryTaxBreakdown → CategoryTaxBreakdown}
    {part : CategoryTaxBreakdown} (hf : ∀ row, f row = row + part) : b.modify c f = b + Pi.single c part := by
  funext k
  by_cases h : k = c
  · subst h
    simp [Breakdowns.modify, hf]
  · simp [Breakdowns.modify, h]

theorem addTo_eq (amounts : TaxableCategory → ℚ) (c : TaxableCategory) (x : Option ℚ) :
    addTo amounts c x = amounts + Pi.single c (x.getD 0) := by
  funext k
  by_cases h : k = c
  · subst h
    simp [addTo, plus_eq]
  · simp [addTo, h]

variable {db : Db} {fx : Fx} {tables : TaxTables} {taxYear : TaxYear} {s t : Collected}

/-! ## Conversions -/

/-- the amount in the reporting currency, when there is a rate -/
def reporting (fx : Fx) (taxYear : TaxYear) (amount : ℚ) (currency : ℕ) (date : Date) : Option ℚ :=
  match getFxRate fx currency taxYear.reportingCurrency (some date) with
  | .ok rate => some (amount * rate)
  | .error _ => none

/-- the reason a conversion leaves -/
def missing (fx : Fx) (taxYear : TaxYear) (currency : ℕ) (date : Date) : List Message :=
  match getFxRate fx currency taxYear.reportingCurrency (some date) with
  | .ok _ => []
  | .error exc => [exc.message]

theorem convert_eq (fx : Fx) (amount : ℚ) (currency : ℕ) (taxYear : TaxYear) (date : Date) (reasons : List Message) :
    convert fx amount currency taxYear date reasons =
      (reporting fx taxYear amount currency date, reasons ++ missing fx taxYear currency date) := by
  unfold convert convertCurrency reporting missing
  cases getFxRate fx currency taxYear.reportingCurrency (some date) with
  | ok rate => simp [bind, Except.bind]
  | error exc => rfl

def itemReporting (db : Db) (fx : Fx) (taxYear : TaxYear) (amount : ℚ) (i : InvestmentTransaction) : Option ℚ :=
  if i.currency = taxYear.reportingCurrency then some amount
  else
    match i.exchangeRate with
    | some rate => reporting fx taxYear (amount * rate) (db.account i.account).currency i.tradeDate
    | none => reporting fx taxYear amount i.currency i.tradeDate

def itemMissing (db : Db) (fx : Fx) (taxYear : TaxYear) (i : InvestmentTransaction) : List Message :=
  if i.currency = taxYear.reportingCurrency then []
  else
    match i.exchangeRate with
    | some _ => missing fx taxYear (db.account i.account).currency i.tradeDate
    | none => missing fx taxYear i.currency i.tradeDate

theorem convertInvestment_eq (db : Db) (fx : Fx) (amount : ℚ) (i : InvestmentTransaction) (taxYear : TaxYear)
    (reasons : List Message) :
    convertInvestment db fx amount i taxYear reasons =
      (itemReporting db fx taxYear amount i, reasons ++ itemMissing db fx taxYear i) := by
  unfold convertInvestment itemReporting itemMissing
  by_cases hc : i.currency = taxYear.reportingCurrency
  · simp only [hc, if_true, List.append_nil]
  · cases hr : i.exchangeRate <;> simp only [hc, if_false, convert_eq]

/-! ## The part of each row -/

def interestLine (fx : Fx) (taxYear : TaxYear) (e : TransactionEntry) : InterestTaxLine where
  account := e.account
  date := e.transaction.transactionDate
  description := e.transaction.description
  originalAmount := e.amount
  currency := e.currency
  reportingAmount := reporting fx taxYear e.amount e.currency e.transaction.transactionDate

def interestPart (fx : Fx) (taxYear : TaxYear) (e : TransactionEntry) : Collected where
  reasons := missing fx taxYear e.currency e.transaction.transactionDate
  interestLines := [interestLine fx taxYear e]
  breakdowns := Pi.single .interest { grossAmount := (interestLine fx taxYear e).reportingAmount.getD 0 }

theorem interestEntry_eq (fx : Fx) (taxYear : TaxYear) (s : Collected) (e : TransactionEntry) :
    interestEntry fx taxYear s e = s + interestPart fx taxYear e := by
  have hrow : ∀ row : CategoryTaxBreakdown,
      { row with grossAmount := plus row.grossAmount (reporting fx taxYear e.amount e.currency e.transaction.transactionDate) } =
        row + { grossAmount := (interestLine fx taxYear e).reportingAmount.getD 0 } := by
    intro row
    simp [CategoryTaxBreakdown.add_def, CategoryTaxBreakdown.add, plus_eq, interestLine]
  simp [interestEntry, convert_eq, modify_eq_add hrow, Collected.add_def, Collected.add, interestPart, interestLine,
    amounts_zero]

def dividendLine (db : Db) (fx : Fx) (taxYear : TaxYear) (i : InvestmentTransaction) : DividendTaxLine where
  investmentTransaction := i
  grossOriginal := i.grossAmount
  withholdingOriginal := i.taxes
  netOriginal := i.grossAmount - i.taxes - i.fees
  grossReporting := itemReporting db fx taxYear i.grossAmount i
  withholdingReporting := itemReporting db fx taxYear i.taxes i
  netReporting := itemReporting db fx taxYear (i.grossAmount - i.taxes - i.fees) i

def dividendPart (db : Db) (fx : Fx) (taxYear : TaxYear) (i : InvestmentTransaction) : Collected where
  reasons := itemMissing db fx taxYear i ++ itemMissing db fx taxYear i ++ itemMissing db fx taxYear i
  dividendLines := [dividendLine db fx taxYear i]
  breakdowns := Pi.single .dividend {
    grossAmount := (dividendLine db fx taxYear i).grossReporting.getD 0
    withholding := (dividendLine db fx taxYear i).withholdingReporting.getD 0 }

theorem dividendItem_eq (db : Db) (fx : Fx) (taxYear : TaxYear) (s : Collected) (i : InvestmentTransaction) :
    dividendItem db fx taxYear s i = s + dividendPart db fx taxYear i := by
  have hrow : ∀ row : CategoryTaxBreakdown,
      { row with
        grossAmount := plus row.grossAmount (itemReporting db fx taxYear i.grossAmount i)
        withholding := plus row.withholding (itemReporting db fx taxYear i.taxes i) } =
        row + {
          grossAmount := (dividendLine db fx taxYear i).grossReporting.getD 0
          withholding := (dividendLine db fx taxYear i).withholdingReporting.getD 0 } := by
    intro row
    simp [CategoryTaxBreakdown.add_def, CategoryTaxBreakdown.add, plus_eq, dividendLine]
  simp [dividendItem, convertInvestment_eq, modify_eq_add hrow, Collected.add_def, Collected.add, dividendPart,
    dividendLine, amounts_zero]

def gainLine (fx : Fx) (taxYear : TaxYear) (currency : ℕ) (event : RealizedGainEvent) : CapitalGainTaxLine where
  event := event
  netProceedsReporting := reporting fx taxYear event.netProceedsBase currency event.investmentTransaction.tradeDate
  allocatedCostReporting :=
    reporting fx taxYear event.allocatedCostBasisBase currency event.investmentTransaction.tradeDate
  gainReporting := reporting fx taxYear event.gainBase currency event.investmentTransaction.tradeDate

def gainPart (fx : Fx) (taxYear : TaxYear) (currency : ℕ) (event : RealizedGainEvent) : Collected :=
  let reasons := missing fx taxYear currency event.investmentTransaction.tradeDate
  { reasons := reasons ++ reasons ++ reasons
    capitalLines := [gainLine fx taxYear currency event]
    breakdowns := Pi.single .capitalGain ((0 : CategoryTaxBreakdown).addGain
      (gainLine fx taxYear currency event).gainReporting) }

theorem addGain_eq (row : CategoryTaxBreakdown) (gain : Option ℚ) :
    row.addGain gain = row + (0 : CategoryTaxBreakdown).addGain gain := by
  cases gain with
  | none => rw [CategoryTaxBreakdown.addGain, CategoryTaxBreakdown.addGain, add_zero]
  | some x =>
    by_cases hx : 0 ≤ x <;>
      simp [CategoryTaxBreakdown.addGain, hx, CategoryTaxBreakdown.add_def, CategoryTaxBreakdown.add,
        CategoryTaxBreakdown.zero_def]

theorem gainEvent_eq {currency : ℕ} {event : RealizedGainEvent} (fx : Fx) (s : Collected)
    (hdate : ¬event.investmentTransaction.tradeDate < taxYear.startDate) :
    gainEvent fx taxYear currency s event = s + gainPart fx taxYear currency event := by
  simp [gainEvent, hdate, convert_eq, modify_eq_add (addGain_eq · _), Collected.add_def, Collected.add, gainPart,
    gainLine, amounts_zero]

/-- the realized gains of an account in the tax year -/
def saleEvents (db : Db) (taxYear : TaxYear) (account : ℕ) : List RealizedGainEvent :=
  match calculateRealizedGainEvents db account (some taxYear.endDate) with
  | .ok events => events.filter fun e => taxYear.startDate ≤ e.investmentTransaction.tradeDate
  | .error _ => []

/-- the reasons of a replay that failed -/
def replayReasons (db : Db) (taxYear : TaxYear) (account : ℕ) : List Message :=
  match calculateRealizedGainEvents db account (some taxYear.endDate) with
  | .error (.validation errors) => errors.messages
  | _ => []

/-- the replay of the account returns or raises a validation error -/
def Replays (db : Db) (taxYear : TaxYear) (account : ℕ) : Prop :=
  ∀ e, calculateRealizedGainEvents db account (some taxYear.endDate) = .error e → ∃ errors, e = .validation errors

def accountPart (db : Db) (fx : Fx) (taxYear : TaxYear) (account : ℕ) : Collected :=
  { reasons := replayReasons db taxYear account } +
    ((saleEvents db taxYear account).map (gainPart fx taxYear (db.account account).currency)).sum

/-- events before the tax year are skipped -/
theorem foldl_gainEvent (fx : Fx) (taxYear : TaxYear) (currency : ℕ) (s : Collected) (events : List RealizedGainEvent) :
    events.foldl (gainEvent fx taxYear currency) s =
      s + ((events.filter fun e => taxYear.startDate ≤ e.investmentTransaction.tradeDate).map
        (gainPart fx taxYear currency)).sum := by
  induction events generalizing s with
  | nil => simp
  | cons e events ih =>
    rw [List.foldl_cons, ih]
    by_cases h : taxYear.startDate ≤ e.investmentTransaction.tradeDate
    · rw [gainEvent_eq fx s (not_lt.2 h), List.filter_cons_of_pos (by simpa using h), List.map_cons, List.sum_cons,
        add_assoc]
    · have hskip : gainEvent fx taxYear currency s e = s := by simp [gainEvent, not_le.1 h]
      rw [hskip, List.filter_cons_of_neg (by simpa using h)]

theorem brokerageAccount_ok_iff (s t : Collected) (account : ℕ) :
    brokerageAccount db fx taxYear s account = .ok t ↔
      Replays db taxYear account ∧ s + accountPart db fx taxYear account = t := by
  unfold brokerageAccount Replays accountPart saleEvents replayReasons
  cases calculateRealizedGainEvents db account (some taxYear.endDate) with
  | ok events =>
    have hempty : ({ reasons := [] } : Collected) = 0 := rfl
    simp [foldl_gainEvent, hempty]
  | error e =>
    cases e with
    | validation errors =>
      simp [Collected.add_def, Collected.add, Collected.zero_def, breakdowns_zero, amounts_zero]
    | _ => simp

def taxLine (fx : Fx) (taxYear : TaxYear) (e : TransactionEntry) : TaxPaymentLine where
  account := e.account
  date := e.transaction.transactionDate
  description := e.transaction.description
  originalAmount := -e.amount
  currency := e.currency
  reportingAmount := reporting fx taxYear (-e.amount) e.currency e.transaction.transactionDate

def taxPart (fx : Fx) (taxYear : TaxYear) (e : TransactionEntry) : Collected where
  reasons := missing fx taxYear e.currency e.transaction.transactionDate
  paymentLines := [taxLine fx taxYear e]
  taxPaid := (taxLine fx taxYear e).reportingAmount.getD 0

theorem taxEntry_eq (fx : Fx) (taxYear : TaxYear) (s : Collected) (e : TransactionEntry) :
    taxEntry fx taxYear s e = s + taxPart fx taxYear e := by
  simp [taxEntry, convert_eq, plus_eq, Collected.add_def, Collected.add, taxPart, taxLine, breakdowns_zero,
    amounts_zero]

def allowancePart (fx : Fx) (taxYear : TaxYear) (item : TaxAllowance) : Collected where
  reasons := missing fx taxYear item.currency taxYear.startDate
  manualAllowances :=
    Pi.single item.category ((reporting fx taxYear item.amount item.currency taxYear.startDate).getD 0)

theorem allowanceItem_eq (fx : Fx) (taxYear : TaxYear) (s : Collected) (item : TaxAllowance) :
    allowanceItem fx taxYear s item = s + allowancePart fx taxYear item := by
  simp [allowanceItem, convert_eq, addTo_eq, Collected.add_def, Collected.add, allowancePart, breakdowns_zero,
    amounts_zero]

def deductionPart (fx : Fx) (taxYear : TaxYear) (item : TaxDeduction) : Collected where
  reasons := missing fx taxYear item.currency item.date
  manualDeductions := Pi.single item.category ((reporting fx taxYear item.amount item.currency item.date).getD 0)

theorem deductionItem_eq (fx : Fx) (taxYear : TaxYear) (s : Collected) (item : TaxDeduction) :
    deductionItem fx taxYear s item = s + deductionPart fx taxYear item := by
  simp [deductionItem, convert_eq, addTo_eq, Collected.add_def, Collected.add, deductionPart, breakdowns_zero,
    amounts_zero]

/-- an adjustment of each category adds to its own place -/
theorem adjust_eq (s : Collected) (item : TaxAdjustment) (x : ℚ) : adjust s item x = s + adjust 0 item x := by
  have hgross : ∀ row : CategoryTaxBreakdown,
      { row with grossAmount := row.grossAmount + x } = row + { grossAmount := x } := by
    intro row
    simp [CategoryTaxBreakdown.add_def, CategoryTaxBreakdown.add]
  have hlosses : ∀ row : CategoryTaxBreakdown,
      { row with losses := row.losses - |x| } = row + { losses := -|x| } := by
    intro row
    simp [CategoryTaxBreakdown.add_def, CategoryTaxBreakdown.add, sub_eq_add_neg]
  have hwithholding : ∀ row : CategoryTaxBreakdown,
      { row with withholding := row.withholding + |x| } = row + { withholding := |x| } := by
    intro row
    simp [CategoryTaxBreakdown.add_def, CategoryTaxBreakdown.add]
  unfold adjust
  split
  · simp [modify_eq_add hgross, Collected.add_def, Collected.add, Collected.zero_def, breakdowns_zero, amounts_zero]
  · split
    · simp [modify_eq_add hlosses, Collected.add_def, Collected.add, Collected.zero_def, breakdowns_zero, amounts_zero]
    · simp [addTo_eq, Collected.add_def, Collected.add, Collected.zero_def, breakdowns_zero, amounts_zero]
    · simp [addTo_eq, Collected.add_def, Collected.add, Collected.zero_def, breakdowns_zero, amounts_zero]
    · split
      · simp [modify_eq_add hwithholding, Collected.add_def, Collected.add, Collected.zero_def, breakdowns_zero,
          amounts_zero]
      · simp [Collected.add_def, Collected.add, Collected.zero_def, breakdowns_zero, amounts_zero]
    · simp [Collected.add_def, Collected.add, Collected.zero_def, breakdowns_zero, amounts_zero]
    · rw [add_zero]

def adjustmentAmount (fx : Fx) (taxYear : TaxYear) (item : TaxAdjustment) : Option ℚ :=
  reporting fx taxYear item.amount item.currency item.date

def adjustmentPart (fx : Fx) (taxYear : TaxYear) (item : TaxAdjustment) : Collected :=
  { reasons := missing fx taxYear item.currency item.date } +
    match adjustmentAmount fx taxYear item with
    | some x => adjust 0 item x
    | none => 0

theorem adjustmentItem_eq (fx : Fx) (taxYear : TaxYear) (s : Collected) (item : TaxAdjustment) :
    adjustmentItem fx taxYear s item = s + adjustmentPart fx taxYear item := by
  have hreasons : { s with reasons := s.reasons ++ missing fx taxYear item.currency item.date } =
      s + { reasons := missing fx taxYear item.currency item.date } := by
    simp [Collected.add_def, Collected.add, breakdowns_zero, amounts_zero]
  simp only [adjustmentItem, convert_eq, adjustmentPart, adjustmentAmount, hreasons]
  cases reporting fx taxYear item.amount item.currency item.date with
  | some x => rw [← add_assoc, ← adjust_eq]
  | none => rw [add_zero]

/-! ## The whole collection -/

def eventParts (db : Db) (fx : Fx) (taxYear : TaxYear) : Collected :=
  ((interestEntries db taxYear).map (interestPart fx taxYear)).sum +
    ((dividends db taxYear).map (dividendPart db fx taxYear)).sum +
    ((brokerageAccounts db taxYear).map (accountPart db fx taxYear)).sum +
    ((taxEntries db taxYear).map (taxPart fx taxYear)).sum

def manualParts (fx : Fx) (tables : TaxTables) (taxYear : TaxYear) : Collected :=
  ((activeAllowances tables taxYear).map (allowancePart fx taxYear)).sum +
    ((activeDeductions tables taxYear).map (deductionPart fx taxYear)).sum +
    ((activeAdjustments tables taxYear).map (adjustmentPart fx taxYear)).sum

theorem collectEvents_ok_iff :
    collectEvents db fx taxYear = .ok s ↔
      (∀ a ∈ brokerageAccounts db taxYear, Replays db taxYear a) ∧ s = eventParts db fx taxYear := by
  have hzero : ({} : Collected) = 0 := rfl
  simp only [collectEvents, eventParts, foldl_eq_add (interestEntry_eq fx taxYear),
    foldl_eq_add (dividendItem_eq db fx taxYear), foldl_eq_add (taxEntry_eq fx taxYear), bind_eq_ok,
    foldlM_ok_iff brokerageAccount_ok_iff, Except.ok.injEq, hzero, zero_add]
  refine ⟨?_, ?_⟩
  · intro h
    obtain ⟨t, ⟨hreplays, rfl⟩, rfl⟩ := h
    exact ⟨hreplays, rfl⟩
  · intro h
    obtain ⟨hreplays, rfl⟩ := h
    exact ⟨_, ⟨hreplays, rfl⟩, rfl⟩

theorem collectManual_eq (fx : Fx) (tables : TaxTables) (taxYear : TaxYear) (s : Collected) :
    collectManual fx tables taxYear s = s + manualParts fx tables taxYear := by
  simp only [collectManual, manualParts, foldl_eq_add (allowanceItem_eq fx taxYear),
    foldl_eq_add (deductionItem_eq fx taxYear), foldl_eq_add (adjustmentItem_eq fx taxYear), add_assoc]

/-- **The collection is the sum of its parts.** It is made when every replay of a brokerage account returns or says what
it misses, and adds up the events and the manual items one by one. -/
theorem collect_ok_iff :
    collect db fx tables taxYear = .ok s ↔
      (∀ a ∈ brokerageAccounts db taxYear, Replays db taxYear a) ∧
        s = eventParts db fx taxYear + manualParts fx tables taxYear := by
  unfold collect
  rw [bind_eq_ok]
  simp only [collectEvents_ok_iff, collectManual_eq, Except.ok.injEq]
  refine ⟨?_, ?_⟩
  · intro h
    obtain ⟨t, ⟨hreplays, rfl⟩, rfl⟩ := h
    exact ⟨hreplays, rfl⟩
  · intro h
    obtain ⟨hreplays, rfl⟩ := h
    exact ⟨_, ⟨hreplays, rfl⟩, rfl⟩

/-! ## Properties of what is collected -/

section Induction

variable {P : Collected → Prop} (add : ∀ s t, P s → P t → P (s + t)) (reasons : ∀ rs, P { reasons := rs })

include add reasons

theorem sum_induction {α : Type} {part : α → Collected} (h : ∀ a, P (part a)) (l : List α) : P (l.map part).sum :=
  List.sum_induction P add (reasons []) (by simpa using fun a _ => h a)

/-- **Events.** What the part of every event has, and every failed replay, and what sums keep, holds of all events
together. -/
theorem eventParts_induction (interest : ∀ e, P (interestPart fx taxYear e))
    (dividend : ∀ i, P (dividendPart db fx taxYear i)) (gain : ∀ currency event, P (gainPart fx taxYear currency event))
    (tax : ∀ e, P (taxPart fx taxYear e)) : P (eventParts db fx taxYear) := by
  have haccount : ∀ account, P (accountPart db fx taxYear account) := fun account =>
    add _ _ (reasons _) (sum_induction add reasons (gain _) _)
  exact add _ _ (add _ _ (add _ _ (sum_induction add reasons interest _) (sum_induction add reasons dividend _))
    (sum_induction add reasons haccount _)) (sum_induction add reasons tax _)

/-- **Manual items.** What the part of every allowance, deduction and adjustment has, and what sums keep, holds of all
items together. -/
theorem manualParts_induction (allowance : ∀ item, P (allowancePart fx taxYear item))
    (deduction : ∀ item, P (deductionPart fx taxYear item)) (adjustment : ∀ item x, P (adjust 0 item x)) :
    P (manualParts fx tables taxYear) := by
  have hadjustment : ∀ item, P (adjustmentPart fx taxYear item) := by
    intro item
    refine add _ _ (reasons _) ?_
    cases adjustmentAmount fx taxYear item with
    | some x => exact adjustment item x
    | none => exact reasons []
  exact add _ _ (add _ _ (sum_induction add reasons allowance _) (sum_induction add reasons deduction _))
    (sum_induction add reasons hadjustment _)

end Induction

end Vault67.Tax
