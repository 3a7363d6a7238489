/-
What the completeness of a summary says.

`lookups`: every exchange rate the collection asks for. A rate that is missing and a replay that fails each leave a
reason, and nothing else does.

- `reasons_eq_nil_iff`: the collection has no reason exactly when every rate is there and every replay returns.
- `Collected.Listed`: every amount that was added up stands on a line.
- `Collected.Present`: without a reason, every line has its amounts in the reporting currency.
- `completeness_sound`: what INCOMPLETE, not INCOMPLETE and COMPLETE say about a summary.
-/
import Mathlib.Tactic
import Vault67.Investments.ReplayAgreement
import Vault67.Tax.Reductions

namespace Vault67.Tax

open Accumulate Fallible Investments OrderBy

variable {db : Db} {fx : Fx} {tables : TaxTables} {taxYear : TaxYear} {s t : Collected}

/-! ## Rates -/

/-- a currency and a date whose rate to the reporting currency is looked up -/
abbrev Lookup := ℕ × Date

def HasRate (fx : Fx) (taxYear : TaxYear) (l : Lookup) : Prop :=
  ∃ rate, getFxRate fx l.1 taxYear.reportingCurrency (some l.2) = .ok rate

def entryLookup (e : TransactionEntry) : Lookup := (e.currency, e.transaction.transactionDate)

/-- no rate is looked up for an amount in the reporting currency -/
def itemLookups (db : Db) (taxYear : TaxYear) (i : InvestmentTransaction) : List Lookup :=
  if i.currency = taxYear.reportingCurrency then []
  else
    match i.exchangeRate with
    | some _ => [((db.account i.account).currency, i.tradeDate)]
    | none => [(i.currency, i.tradeDate)]

def saleLookups (db : Db) (taxYear : TaxYear) (account : ℕ) : List Lookup :=
  (saleEvents db taxYear account).map fun e => ((db.account account).currency, e.investmentTransaction.tradeDate)

/-- the conversions a summary asks for: events, sales, payments and manual items -/
def lookups (db : Db) (tables : TaxTables) (taxYear : TaxYear) : List Lookup :=
  (interestEntries db taxYear).map entryLookup ++ (dividends db taxYear).flatMap (itemLookups db taxYear) ++
    (brokerageAccounts db taxYear).flatMap (saleLookups db taxYear) ++ (taxEntries db taxYear).map entryLookup ++
    (activeAllowances tables taxYear).map (fun i => (i.currency, taxYear.startDate)) ++
    (activeDeductions tables taxYear).map (fun i => (i.currency, i.date)) ++
    (activeAdjustments tables taxYear).map (fun i => (i.currency, i.date))

theorem missing_eq_nil {currency : ℕ} {date : Date} :
    missing fx taxYear currency date = [] ↔ HasRate fx taxYear (currency, date) := by
  unfold missing HasRate
  cases getFxRate fx currency taxYear.reportingCurrency (some date) <;> simp

theorem reporting_isSome {amount : ℚ} {currency : ℕ} {date : Date} (h : missing fx taxYear currency date = []) :
    (reporting fx taxYear amount currency date).isSome := by
  obtain ⟨rate, hrate⟩ := missing_eq_nil.1 h
  simp [reporting, hrate]

theorem itemMissing_eq_nil {i : InvestmentTransaction} :
    itemMissing db fx taxYear i = [] ↔ ∀ l ∈ itemLookups db taxYear i, HasRate fx taxYear l := by
  unfold itemMissing itemLookups
  split_ifs
  · simp
  · cases i.exchangeRate <;> simp [missing_eq_nil]

theorem itemReporting_isSome {amount : ℚ} {i : InvestmentTransaction} (h : itemMissing db fx taxYear i = []) :
    (itemReporting db fx taxYear amount i).isSome := by
  unfold itemReporting
  unfold itemMissing at h
  split_ifs with hc
  · rfl
  · rw [if_neg hc] at h
    cases hr : i.exchangeRate with
    | some rate =>
      rw [hr] at h
      exact reporting_isSome h
    | none =>
      rw [hr] at h
      exact reporting_isSome h

/-! ## Replays -/

theorem notNone_ne_validation {α : Type} {x : Option α} {errors : Errors} :
    notNone x ≠ .error (.validation errors) := by
  cases x <;> simp [notNone]

/-- a sale that cannot be covered raises one message -/
theorem gainItem_validation {account : ℕ} {g : GainReplay} {i : InvestmentTransaction} {errors : Errors}
    (h : gainItem db account g i = .error (.validation errors)) : errors ≠ [] := by
  unfold gainItem at h
  rcases bind_eq_error.1 h with hq | ⟨q, -, h⟩
  · exact absurd hq notNone_ne_validation
  by_cases hb : i.transactionType = .buy
  · rw [if_pos hb] at h
    rcases bind_eq_error.1 h with hr | ⟨rate, -, h⟩
    · exact absurd hr notNone_ne_validation
    · cases h
  · rw [if_neg hb] at h
    by_cases hlt : (g.positions i.security).quantity < q ∨ (g.positions i.security).quantity = 0
    · rw [if_pos hlt] at h
      cases h
      exact List.cons_ne_nil _ _
    · rw [if_neg hlt] at h
      rcases bind_eq_error.1 h with hr | ⟨rate, -, h⟩
      · exact absurd hr notNone_ne_validation
      · cases h

theorem calculateRealizedGainEvents_validation {account : ℕ} {asOfDate : Option Date} {errors : Errors}
    (h : calculateRealizedGainEvents db account asOfDate = .error (.validation errors)) : errors ≠ [] := by
  rcases bind_eq_error.1 h with hloop | ⟨g, -, h⟩
  · obtain ⟨i, -, g, hi⟩ := foldlM_error hloop
    exact gainItem_validation hi
  · cases h

/-! ## Reasons -/

@[simp] theorem add_reasons (s t : Collected) : (s + t).reasons = s.reasons ++ t.reasons := rfl

theorem sum_reasons_eq_nil {α : Type} {part : α → Collected} {l : List α} :
    (l.map part).sum.reasons = [] ↔ ∀ a ∈ l, (part a).reasons = [] := by
  rw [sum_flatMap rfl add_reasons, List.flatMap_eq_nil_iff, List.forall_mem_map]

theorem adjust_reasons (s : Collected) (item : TaxAdjustment) (x : ℚ) : (adjust s item x).reasons = s.reasons := by
  unfold adjust
  split
  · rfl
  · split
    · rfl
    · rfl
    · rfl
    · split <;> rfl
    · rfl
    · rfl

theorem dividendPart_reasons {i : InvestmentTransaction} :
    (dividendPart db fx taxYear i).reasons = [] ↔ ∀ l ∈ itemLookups db taxYear i, HasRate fx taxYear l := by
  simp only [dividendPart, List.append_eq_nil_iff, and_self, itemMissing_eq_nil]

theorem gainPart_reasons {currency : ℕ} {event : RealizedGainEvent} :
    (gainPart fx taxYear currency event).reasons = [] ↔
      HasRate fx taxYear (currency, event.investmentTransaction.tradeDate) := by
  simp only [gainPart, List.append_eq_nil_iff, and_self, missing_eq_nil]

theorem replayReasons_eq_nil {account : ℕ} (h : Replays db taxYear account) :
    replayReasons db taxYear account = [] ↔
      ∃ events, calculateRealizedGainEvents db account (some taxYear.endDate) = .ok events := by
  unfold replayReasons
  cases hc : calculateRealizedGainEvents db account (some taxYear.endDate) with
  | ok events => simp
  | error e =>
    obtain ⟨errors, rfl⟩ := h e hc
    have hne := calculateRealizedGainEvents_validation hc
    simpa [Errors.messages] using hne

theorem accountPart_reasons {account : ℕ} (h : Replays db taxYear account) :
    (accountPart db fx taxYear account).reasons = [] ↔
      (∃ events, calculateRealizedGainEvents db account (some taxYear.endDate) = .ok events) ∧
        ∀ l ∈ saleLookups db taxYear account, HasRate fx taxYear l := by
  rw [accountPart, add_reasons, List.append_eq_nil_iff, replayReasons_eq_nil h, sum_reasons_eq_nil, saleLookups,
    List.forall_mem_map]
  simp only [gainPart_reasons]

theorem adjustmentPart_reasons {item : TaxAdjustment} :
    (adjustmentPart fx taxYear item).reasons = [] ↔ HasRate fx taxYear (item.currency, item.date) := by
  rw [adjustmentPart, add_reasons]
  cases adjustmentAmount fx taxYear item with
  | some x =>
    have hnil : (adjust 0 item x).reasons = [] := adjust_reasons 0 item x
    simp only [hnil, List.append_nil, missing_eq_nil]
  | none =>
    have hnil : (0 : Collected).reasons = [] := rfl
    simp only [hnil, List.append_nil, missing_eq_nil]

/-- **Reasons.** None is left exactly when every requested rate is there and every replay of a brokerage account
returns. -/
theorem reasons_eq_nil_iff (hs : collect db fx tables taxYear = .ok s) :
    s.reasons = [] ↔ (∀ l ∈ lookups db tables taxYear, HasRate fx taxYear l) ∧
      ∀ a ∈ brokerageAccounts db taxYear,
        ∃ events, calculateRealizedGainEvents db a (some taxYear.endDate) = .ok events := by
  obtain ⟨hreplays, rfl⟩ := collect_ok_iff.1 hs
  have haccounts : (∀ a ∈ brokerageAccounts db taxYear, (accountPart db fx taxYear a).reasons = []) ↔
      ∀ a ∈ brokerageAccounts db taxYear,
        (∃ events, calculateRealizedGainEvents db a (some taxYear.endDate) = .ok events) ∧
          ∀ l ∈ saleLookups db taxYear a, HasRate fx taxYear l :=
    forall₂_congr fun a ha => accountPart_reasons (hreplays a ha)
  simp only [eventParts, manualParts, add_reasons, List.append_eq_nil_iff, sum_reasons_eq_nil, haccounts,
    dividendPart_reasons, adjustmentPart_reasons, interestPart, taxPart, allowancePart, deductionPart,
    missing_eq_nil, lookups, List.forall_mem_append, List.forall_mem_map, List.forall_mem_flatMap, entryLookup,
    forall₂_and]
  tauto

/-! ## Every amount stands on a line -/

/-- the sum of the amounts that are there -/
def lineTotal (amounts : List (Option ℚ)) : ℚ := (amounts.map fun x => x.getD 0).sum

@[simp] theorem lineTotal_append (xs ys : List (Option ℚ)) : lineTotal (xs ++ ys) = lineTotal xs + lineTotal ys := by
  simp [lineTotal]

/-- the gains of the lines of sales with a gain, and the losses of the others -/
def gainTotal (lines : List CapitalGainTaxLine) : ℚ :=
  lineTotal ((lines.map CapitalGainTaxLine.gainReporting).filter fun x => 0 ≤ x.getD 0)

def lossTotal (lines : List CapitalGainTaxLine) : ℚ :=
  lineTotal ((lines.map CapitalGainTaxLine.gainReporting).filter fun x => x.getD 0 < 0)

theorem gainTotal_append (lines lines' : List CapitalGainTaxLine) :
    gainTotal (lines ++ lines') = gainTotal lines + gainTotal lines' := by
  rw [gainTotal, List.map_append, List.filter_append, lineTotal_append, gainTotal, gainTotal]

theorem lossTotal_append (lines lines' : List CapitalGainTaxLine) :
    lossTotal (lines ++ lines') = lossTotal lines + lossTotal lines' := by
  rw [lossTotal, List.map_append, List.filter_append, lineTotal_append, lossTotal, lossTotal]

structure Collected.Listed (s : Collected) : Prop where
  interest : (s.breakdowns .interest).grossAmount = lineTotal (s.interestLines.map InterestTaxLine.reportingAmount)
  dividend : (s.breakdowns .dividend).grossAmount = lineTotal (s.dividendLines.map DividendTaxLine.grossReporting)
  gains : (s.breakdowns .capitalGain).grossAmount = gainTotal s.capitalLines
  losses : (s.breakdowns .capitalGain).losses = lossTotal s.capitalLines
  dividendWithheld :
    (s.breakdowns .dividend).withholding = lineTotal (s.dividendLines.map DividendTaxLine.withholdingReporting)
  withheld : s.breakdowns.total CategoryTaxBreakdown.withholding + s.manualWithholding =
    lineTotal (s.dividendLines.map DividendTaxLine.withholdingReporting)
  paid : s.taxPaid = lineTotal (s.paymentLines.map TaxPaymentLine.reportingAmount)

theorem total_add (b b' : Breakdowns) :
    (b + b').total CategoryTaxBreakdown.withholding =
      b.total CategoryTaxBreakdown.withholding + b'.total CategoryTaxBreakdown.withholding := by
  unfold Breakdowns.total
  rw [← List.sum_map_add]
  rfl

theorem withheld_add (s t : Collected) :
    (s + t).breakdowns.total CategoryTaxBreakdown.withholding + (s + t).manualWithholding =
      (s.breakdowns.total CategoryTaxBreakdown.withholding + s.manualWithholding) +
        (t.breakdowns.total CategoryTaxBreakdown.withholding + t.manualWithholding) := by
  have hrows : (s + t).breakdowns = s.breakdowns + t.breakdowns := rfl
  have hmanual : (s + t).manualWithholding = s.manualWithholding + t.manualWithholding := rfl
  rw [hrows, hmanual, total_add]
  ring

theorem Collected.Listed.add (hs : s.Listed) (ht : t.Listed) : (s + t).Listed := by
  have hinterest : (s + t).interestLines = s.interestLines ++ t.interestLines := rfl
  have hdividend : (s + t).dividendLines = s.dividendLines ++ t.dividendLines := rfl
  have hcapital : (s + t).capitalLines = s.capitalLines ++ t.capitalLines := rfl
  have hpayment : (s + t).paymentLines = s.paymentLines ++ t.paymentLines := rfl
  constructor
  case interest =>
    rw [hinterest, List.map_append, lineTotal_append, ← hs.interest, ← ht.interest]
    rfl
  case dividend =>
    rw [hdividend, List.map_append, lineTotal_append, ← hs.dividend, ← ht.dividend]
    rfl
  case gains =>
    rw [hcapital, gainTotal_append, ← hs.gains, ← ht.gains]
    rfl
  case losses =>
    rw [hcapital, lossTotal_append, ← hs.losses, ← ht.losses]
    rfl
  case dividendWithheld =>
    rw [hdividend, List.map_append, lineTotal_append, ← hs.dividendWithheld, ← ht.dividendWithheld]
    rfl
  case withheld => rw [hdividend, List.map_append, lineTotal_append, ← hs.withheld, ← ht.withheld, withheld_add]
  case paid =>
    rw [hpayment, List.map_append, lineTotal_append, ← hs.paid, ← ht.paid]
    rfl

theorem interestPart_listed (fx : Fx) (taxYear : TaxYear) (e : TransactionEntry) : (interestPart fx taxYear e).Listed := by
  constructor <;>
    simp [interestPart, lineTotal, gainTotal, lossTotal, Breakdowns.total, categoryOrder]

theorem dividendPart_listed (db : Db) (fx : Fx) (taxYear : TaxYear) (i : InvestmentTransaction) :
    (dividendPart db fx taxYear i).Listed := by
  constructor <;>
    simp [dividendPart, lineTotal, gainTotal, lossTotal, Breakdowns.total, categoryOrder]

theorem gainPart_listed (fx : Fx) (taxYear : TaxYear) (currency : ℕ) (event : RealizedGainEvent) :
    (gainPart fx taxYear currency event).Listed := by
  have hsplit : ∀ gain : Option ℚ, ((0 : CategoryTaxBreakdown).addGain gain).grossAmount =
      lineTotal ([gain].filter fun x => 0 ≤ x.getD 0) ∧
      ((0 : CategoryTaxBreakdown).addGain gain).losses = lineTotal ([gain].filter fun x => x.getD 0 < 0) ∧
      ((0 : CategoryTaxBreakdown).addGain gain).withholding = 0 := by
    intro gain
    cases gain with
    | none => simp [CategoryTaxBreakdown.addGain, lineTotal]
    | some x =>
      by_cases hx : 0 ≤ x
      · simp [CategoryTaxBreakdown.addGain, hx, lineTotal, not_lt.2 hx]
      · simp [CategoryTaxBreakdown.addGain, hx, lineTotal, not_le.1 hx]
  obtain ⟨hgross, hlosses, hwithheld⟩ := hsplit (gainLine fx taxYear currency event).gainReporting
  constructor
  case gains => simpa [gainPart, gainTotal] using hgross
  case losses => simpa [gainPart, lossTotal] using hlosses
  all_goals simp [gainPart, lineTotal, Breakdowns.total, categoryOrder, hwithheld]

theorem reasons_listed (reasons : List Message) : Collected.Listed { reasons := reasons } :=
  ⟨rfl, rfl, rfl, rfl, rfl, by simp [Breakdowns.total, categoryOrder, lineTotal], rfl⟩

theorem taxPart_listed (fx : Fx) (taxYear : TaxYear) (e : TransactionEntry) : (taxPart fx taxYear e).Listed := by
  constructor <;> simp [taxPart, lineTotal, gainTotal, lossTotal, Breakdowns.total, categoryOrder]

/-- **Listed.** What the events add to the totals is what stands on their lines, amount by amount. -/
theorem eventParts_listed (db : Db) (fx : Fx) (taxYear : TaxYear) : (eventParts db fx taxYear).Listed :=
  eventParts_induction (fun _ _ => .add) reasons_listed (interestPart_listed fx taxYear)
    (dividendPart_listed db fx taxYear) (gainPart_listed fx taxYear) (taxPart_listed fx taxYear)

/-! ## Without a reason every amount is there -/

structure Collected.Present (s : Collected) : Prop where
  interest : ∀ line ∈ s.interestLines, line.reportingAmount.isSome
  dividend : ∀ line ∈ s.dividendLines,
    line.grossReporting.isSome ∧ line.withholdingReporting.isSome ∧ line.netReporting.isSome
  capital : ∀ line ∈ s.capitalLines,
    line.netProceedsReporting.isSome ∧ line.allocatedCostReporting.isSome ∧ line.gainReporting.isSome
  payment : ∀ line ∈ s.paymentLines, line.reportingAmount.isSome

/-- every amount that is not there has left a reason -/
def Collected.Explains (s : Collected) : Prop := s.reasons = [] → s.Present

theorem Collected.Explains.add (hs : s.Explains) (ht : t.Explains) : (s + t).Explains := by
  intro h
  obtain ⟨h1, h2⟩ := List.append_eq_nil_iff.1 h
  exact ⟨List.forall_mem_append.2 ⟨(hs h1).interest, (ht h2).interest⟩,
    List.forall_mem_append.2 ⟨(hs h1).dividend, (ht h2).dividend⟩,
    List.forall_mem_append.2 ⟨(hs h1).capital, (ht h2).capital⟩,
    List.forall_mem_append.2 ⟨(hs h1).payment, (ht h2).payment⟩⟩

theorem interestPart_explains (fx : Fx) (taxYear : TaxYear) (e : TransactionEntry) :
    (interestPart fx taxYear e).Explains := by
  intro h
  refine ⟨List.forall_mem_singleton.2 (reporting_isSome h), ?_, ?_, ?_⟩ <;> simp [interestPart]

theorem dividendPart_explains (db : Db) (fx : Fx) (taxYear : TaxYear) (i : InvestmentTransaction) :
    (dividendPart db fx taxYear i).Explains := by
  intro h
  have hmissing : itemMissing db fx taxYear i = [] := (List.append_eq_nil_iff.1 h).2
  refine ⟨?_, List.forall_mem_singleton.2 ?_, ?_, ?_⟩
  · simp [dividendPart]
  · exact ⟨itemReporting_isSome hmissing, itemReporting_isSome hmissing, itemReporting_isSome hmissing⟩
  · simp [dividendPart]
  · simp [dividendPart]

theorem gainPart_explains (fx : Fx) (taxYear : TaxYear) (currency : ℕ) (event : RealizedGainEvent) :
    (gainPart fx taxYear currency event).Explains := by
  intro h
  have hmissing : missing fx taxYear currency event.investmentTransaction.tradeDate = [] :=
    (List.append_eq_nil_iff.1 h).2
  refine ⟨?_, ?_, List.forall_mem_singleton.2 ?_, ?_⟩
  · simp [gainPart]
  · simp [gainPart]
  · exact ⟨reporting_isSome hmissing, reporting_isSome hmissing, reporting_isSome hmissing⟩
  · simp [gainPart]

theorem taxPart_explains (fx : Fx) (taxYear : TaxYear) (e : TransactionEntry) : (taxPart fx taxYear e).Explains := by
  intro h
  refine ⟨?_, ?_, ?_, List.forall_mem_singleton.2 (reporting_isSome h)⟩ <;> simp [taxPart]

theorem eventParts_explains (db : Db) (fx : Fx) (taxYear : TaxYear) : (eventParts db fx taxYear).Explains := by
  refine eventParts_induction (fun _ _ => .add) (fun reasons _ => ?_) (interestPart_explains fx taxYear)
    (dividendPart_explains db fx taxYear) (gainPart_explains fx taxYear) (taxPart_explains fx taxYear)
  constructor <;> simp

/-! ## Manual items -/

/-- no line is added by a manual item -/
structure Collected.Lineless (s : Collected) : Prop where
  interest : s.interestLines = []
  dividend : s.dividendLines = []
  capital : s.capitalLines = []
  payment : s.paymentLines = []

theorem Collected.Lineless.add (hs : s.Lineless) (ht : t.Lineless) : (s + t).Lineless :=
  ⟨List.append_eq_nil_iff.2 ⟨hs.interest, ht.interest⟩, List.append_eq_nil_iff.2 ⟨hs.dividend, ht.dividend⟩,
    List.append_eq_nil_iff.2 ⟨hs.capital, ht.capital⟩, List.append_eq_nil_iff.2 ⟨hs.payment, ht.payment⟩⟩

theorem Collected.Lineless.add_left (ht : t.Lineless) (s : Collected) :
    (s + t).interestLines = s.interestLines ∧ (s + t).dividendLines = s.dividendLines ∧
      (s + t).capitalLines = s.capitalLines ∧ (s + t).paymentLines = s.paymentLines :=
  ⟨(congrArg _ ht.interest).trans (List.append_nil _), (congrArg _ ht.dividend).trans (List.append_nil _),
    (congrArg _ ht.capital).trans (List.append_nil _), (congrArg _ ht.payment).trans (List.append_nil _)⟩

theorem adjust_lineless (item : TaxAdjustment) (x : ℚ) : (adjust 0 item x).Lineless := by
  unfold adjust
  split
  · exact ⟨rfl, rfl, rfl, rfl⟩
  · split
    · exact ⟨rfl, rfl, rfl, rfl⟩
    · exact ⟨rfl, rfl, rfl, rfl⟩
    · exact ⟨rfl, rfl, rfl, rfl⟩
    · split <;> exact ⟨rfl, rfl, rfl, rfl⟩
    · exact ⟨rfl, rfl, rfl, rfl⟩
    · exact ⟨rfl, rfl, rfl, rfl⟩

theorem manualParts_lineless (fx : Fx) (tables : TaxTables) (taxYear : TaxYear) :
    (manualParts fx tables taxYear).Lineless :=
  manualParts_induction (fun _ _ => .add) (fun _ => ⟨rfl, rfl, rfl, rfl⟩) (fun _ => ⟨rfl, rfl, rfl, rfl⟩)
    (fun _ => ⟨rfl, rfl, rfl, rfl⟩) adjust_lineless

/-- the converted active adjustments of a category -/
def adjusted (fx : Fx) (tables : TaxTables) (taxYear : TaxYear) (category : TaxCategory) : List ℚ :=
  ((activeAdjustments tables taxYear).filter fun i => i.category = category).map fun i =>
    (adjustmentAmount fx taxYear i).getD 0

/-- an amount that only the adjustments of one category change -/
theorem manualParts_observe {g : Collected → ℚ} {category : TaxCategory} {f : ℚ → ℚ}
    (hadd : ∀ s t, g (s + t) = g s + g t) (hreasons : ∀ rs, g { reasons := rs } = 0)
    (hallowance : ∀ item, g (allowancePart fx taxYear item) = 0)
    (hdeduction : ∀ item, g (deductionPart fx taxYear item) = 0) (hf : f 0 = 0)
    (hadjust : ∀ item x, g (adjust 0 item x) = if item.category = category then f x else 0) :
    g (manualParts fx tables taxYear) = ((adjusted fx tables taxYear category).map f).sum := by
  have hzero : g 0 = 0 := hreasons []
  have hitem : ∀ item, g (adjustmentPart fx taxYear item) =
      if item.category = category then f ((adjustmentAmount fx taxYear item).getD 0) else 0 := by
    intro item
    rw [adjustmentPart, hadd, hreasons, zero_add]
    cases adjustmentAmount fx taxYear item with
    | some x => exact hadjust item x
    | none => simp [hzero, hf]
  rw [manualParts, hadd, hadd, sum_map hzero hadd, sum_map hzero hadd, sum_map hzero hadd]
  simp only [List.map_map, Function.comp_def, hallowance, hdeduction, hitem, List.sum_map_ite, List.sum_map_zero,
    adjusted, zero_add, add_zero]

theorem adjust_grossAmount (item : TaxAdjustment) (x : ℚ) {c : TaxableCategory} {category : TaxCategory}
    (hc : category.taxable = some c) :
    ((adjust 0 item x).breakdowns c).grossAmount = if item.category = category then x else 0 := by
  obtain ⟨_, kind, appliesTo, _, _, _, _, _, _⟩ := item
  cases kind <;> cases category <;> cases hc <;>
    simp [adjust, TaxCategory.taxable, Breakdowns.modify]
  -- withholding tax goes to a row or to the manual withholding, never to a gross amount
  all_goals
    split
    · simp only [Function.update_apply]
      split_ifs <;> rfl
    · rfl

theorem adjust_losses (item : TaxAdjustment) (x : ℚ) :
    ((adjust 0 item x).breakdowns .capitalGain).losses = if item.category = .capitalLoss then -|x| else 0 := by
  obtain ⟨_, kind, appliesTo, _, _, _, _, _, _⟩ := item
  cases kind <;> simp [adjust, TaxCategory.taxable, Breakdowns.modify]
  split
  · simp only [Function.update_apply]
    split_ifs <;> rfl
  · rfl

theorem adjust_withheld (item : TaxAdjustment) (x : ℚ) :
    (adjust 0 item x).breakdowns.total CategoryTaxBreakdown.withholding + (adjust 0 item x).manualWithholding =
      if item.category = .withholdingTax then |x| else 0 := by
  obtain ⟨_, kind, appliesTo, _, _, _, _, _, _⟩ := item
  cases kind
  case withholdingTax =>
    -- it goes to the row it applies to, if that is one of the five, else to the manual withholding
    rcases appliesTo with _ | c
    · simp [adjust, TaxCategory.taxable, Breakdowns.total]
    · cases c <;>
        simp [adjust, TaxCategory.taxable, Breakdowns.modify, Breakdowns.total, categoryOrder, Option.filter]
  all_goals simp [adjust, TaxCategory.taxable, Breakdowns.modify, Breakdowns.total, categoryOrder]

theorem adjust_taxPaid (item : TaxAdjustment) (x : ℚ) :
    (adjust 0 item x).taxPaid = if item.category = .taxPayment then |x| else 0 := by
  obtain ⟨_, kind, appliesTo, _, _, _, _, _, _⟩ := item
  cases kind <;> simp [adjust, TaxCategory.taxable]
  split <;> rfl

/-! ## The summary -/

/-- every amount behind the summary is there -/
structure TaxYearSummary.Present (fx : Fx) (tables : TaxTables) (summary : TaxYearSummary) : Prop where
  interest : ∀ line ∈ summary.interestLines, line.reportingAmount.isSome
  dividend : ∀ line ∈ summary.dividendLines,
    line.grossReporting.isSome ∧ line.withholdingReporting.isSome ∧ line.netReporting.isSome
  capital : ∀ line ∈ summary.capitalGainLines,
    line.netProceedsReporting.isSome ∧ line.allocatedCostReporting.isSome ∧ line.gainReporting.isSome
  payment : ∀ line ∈ summary.taxPaymentLines, line.reportingAmount.isSome
  adjustment : ∀ item ∈ activeAdjustments tables summary.taxYear, (adjustmentAmount fx summary.taxYear item).isSome

/-- the totals are the sums of the lines and of the converted adjustments of their kind -/
structure TaxYearSummary.Totals (fx : Fx) (tables : TaxTables) (summary : TaxYearSummary) : Prop where
  grossInterest : summary.grossInterest = lineTotal (summary.interestLines.map InterestTaxLine.reportingAmount) +
    (adjusted fx tables summary.taxYear .interest).sum
  grossDividends : summary.grossDividends = lineTotal (summary.dividendLines.map DividendTaxLine.grossReporting) +
    (adjusted fx tables summary.taxYear .dividend).sum
  realizedCapitalGains : summary.realizedCapitalGains = gainTotal summary.capitalGainLines +
    (adjusted fx tables summary.taxYear .capitalGain).sum
  realizedCapitalLosses : summary.realizedCapitalLosses = lossTotal summary.capitalGainLines +
    ((adjusted fx tables summary.taxYear .capitalLoss).map fun x => -|x|).sum
  taxWithheld : summary.taxWithheld = lineTotal (summary.dividendLines.map DividendTaxLine.withholdingReporting) +
    ((adjusted fx tables summary.taxYear .withholdingTax).map fun x => |x|).sum
  taxPaid : summary.taxPaid = lineTotal (summary.taxPaymentLines.map TaxPaymentLine.reportingAmount) +
    ((adjusted fx tables summary.taxYear .taxPayment).map fun x => |x|).sum

/-- what the manual items add to an amount of the summary -/
structure ManualTotals (fx : Fx) (tables : TaxTables) (taxYear : TaxYear) (m : Collected) : Prop where
  grossAmount : ∀ c category, category.taxable = some c →
    (m.breakdowns c).grossAmount = (adjusted fx tables taxYear category).sum
  losses : (m.breakdowns .capitalGain).losses = ((adjusted fx tables taxYear .capitalLoss).map fun x => -|x|).sum
  withheld : m.breakdowns.total CategoryTaxBreakdown.withholding + m.manualWithholding =
    ((adjusted fx tables taxYear .withholdingTax).map fun x => |x|).sum
  paid : m.taxPaid = ((adjusted fx tables taxYear .taxPayment).map fun x => |x|).sum

theorem manualParts_totals (fx : Fx) (tables : TaxTables) (taxYear : TaxYear) :
    ManualTotals fx tables taxYear (manualParts fx tables taxYear) := by
  have hzero : Breakdowns.total (fun _ => {}) CategoryTaxBreakdown.withholding + 0 = 0 := by decide +kernel
  refine ⟨?_, ?_, ?_, ?_⟩
  · intro c category hc
    have h : ((manualParts fx tables taxYear).breakdowns c).grossAmount =
        ((adjusted fx tables taxYear category).map id).sum :=
      manualParts_observe (g := fun s => (s.breakdowns c).grossAmount) (fun _ _ => rfl) (fun _ => rfl) (fun _ => rfl)
        (fun _ => rfl) rfl fun item x => adjust_grossAmount item x hc
    rwa [List.map_id] at h
  · exact manualParts_observe (g := fun s => (s.breakdowns .capitalGain).losses) (fun _ _ => rfl) (fun _ => rfl)
      (fun _ => rfl) (fun _ => rfl) (by simp) adjust_losses
  · exact manualParts_observe
      (g := fun s => s.breakdowns.total CategoryTaxBreakdown.withholding + s.manualWithholding) withheld_add
      (fun _ => hzero) (fun _ => hzero) (fun _ => hzero) (by simp) adjust_withheld
  · exact manualParts_observe (g := Collected.taxPaid) (fun _ _ => rfl) (fun _ => rfl) (fun _ => rfl) (fun _ => rfl)
      (by simp) adjust_taxPaid

variable {b : Breakdowns}

theorem breakdowns_source (hb : applyRules tables taxYear (applyManual s) = .ok b) (c : TaxableCategory) :
    (b c).source = (s.breakdowns c).source := (applyRules_source hb c).trans (applyManual_source s c)

/-- the sources of the rows are those of the events and of the manual items -/
theorem summary_totals (hs : collect db fx tables taxYear = .ok s)
    (hb : applyRules tables taxYear (applyManual s) = .ok b) : (summarize db taxYear s b).Totals fx tables := by
  obtain ⟨-, rfl⟩ := collect_ok_iff.1 hs
  have hE := eventParts_listed db fx taxYear
  have hM := manualParts_totals fx tables taxYear
  have hgross : ∀ c, (b c).grossAmount =
      ((eventParts db fx taxYear).breakdowns c).grossAmount + ((manualParts fx tables taxYear).breakdowns c).grossAmount :=
    fun c => congrArg Prod.fst (breakdowns_source hb c)
  have hlosses : (b .capitalGain).losses = ((eventParts db fx taxYear).breakdowns .capitalGain).losses +
      ((manualParts fx tables taxYear).breakdowns .capitalGain).losses :=
    congrArg (fun x => x.2.1) (breakdowns_source hb .capitalGain)
  have hwithheld : b.total CategoryTaxBreakdown.withholding =
      (eventParts db fx taxYear + manualParts fx tables taxYear).breakdowns.total CategoryTaxBreakdown.withholding :=
    congrArg List.sum (List.map_congr_left fun c _ => congrArg (fun x => x.2.2) (breakdowns_source hb c))
  obtain ⟨hinterest, hdividend, hcapital, hpayment⟩ := (manualParts_lineless fx tables taxYear).add_left (eventParts db fx taxYear)
  constructor <;> dsimp only [summarize]
  case grossInterest => rw [hgross, hE.interest, hM.grossAmount _ .interest rfl, hinterest]
  case grossDividends => rw [hgross, hE.dividend, hM.grossAmount _ .dividend rfl, hdividend]
  case realizedCapitalGains => rw [hgross, hE.gains, hM.grossAmount _ .capitalGain rfl, hcapital]
  case realizedCapitalLosses => rw [hlosses, hE.losses, hM.losses, hcapital]
  case taxWithheld => rw [hwithheld, withheld_add, hE.withheld, hM.withheld, hdividend]
  case taxPaid =>
    have hpaid : (eventParts db fx taxYear + manualParts fx tables taxYear).taxPaid =
        (eventParts db fx taxYear).taxPaid + (manualParts fx tables taxYear).taxPaid := rfl
    rw [hpaid, hE.paid, hM.paid, hpayment]

theorem summary_present (hs : collect db fx tables taxYear = .ok s) (h : s.reasons = []) :
    (summarize db taxYear s b).Present fx tables := by
  have hrates := ((reasons_eq_nil_iff hs).1 h).1
  obtain ⟨-, rfl⟩ := collect_ok_iff.1 hs
  obtain ⟨hE, hM⟩ := List.append_eq_nil_iff.1 h
  have hpresent := eventParts_explains db fx taxYear hE
  have hlines := manualParts_lineless fx tables taxYear
  constructor
  case interest =>
    exact List.forall_mem_append.2 ⟨hpresent.interest, by simp [hlines.interest]⟩
  case dividend =>
    exact List.forall_mem_append.2 ⟨hpresent.dividend, by simp [hlines.dividend]⟩
  case capital =>
    exact List.forall_mem_append.2 ⟨hpresent.capital, by simp [hlines.capital]⟩
  case payment =>
    exact List.forall_mem_append.2 ⟨hpresent.payment, by simp [hlines.payment]⟩
  case adjustment =>
    intro item hitem
    have hlookup : ((item.currency, item.date) : Lookup) ∈ lookups db tables taxYear :=
      List.mem_append_right _ (List.mem_map.2 ⟨item, hitem, rfl⟩)
    exact reporting_isSome (missing_eq_nil.2 (hrates _ hlookup))

theorem completenessOf_eq_complete {reasons review : List Message} :
    completenessOf reasons review = .complete ↔ reasons = [] ∧ review = [] := by
  unfold completenessOf
  split_ifs <;> simp_all

/-- no review reason: nothing is unclassified, and every positive category was taxed at a flat rate -/
theorem reviewReasons_eq_nil :
    reviewReasons db taxYear b = [] ↔ unclassified db taxYear = [] ∧ ∀ c ∈ categoryOrder, ¬(b c).Uncovered := by
  simp only [reviewReasons, List.append_eq_nil_iff, List.map_eq_nil_iff, List.filter_eq_nil_iff, decide_eq_true_eq]

end Vault67.Tax
