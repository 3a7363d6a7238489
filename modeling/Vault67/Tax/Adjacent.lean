/-
Adjacent tax years: a year [a, c] against [a, b] and [b+1, c].

- `interestEntries_split`, `dividends_split`, `taxEntries_split`: the rows of the whole year are those of the first
  part followed by those of the second.
- `saleEvents_split`: so are the sales of an account, because later trades change no earlier event.
- `adjacent_years`: without manual items no event is lost, counted twice or valued differently.
-/
import Mathlib.Tactic
import Vault67.Tax.Coverage

namespace Vault67.Tax

open Accumulate Fallible Investments Ledger Machine OrderBy

/-- y is cut into y₁ and, from the next day, y₂ -/
structure Splits (y y₁ y₂ : TaxYear) : Prop where
  owner₁ : y₁.owner = y.owner
  owner₂ : y₂.owner = y.owner
  currency₁ : y₁.reportingCurrency = y.reportingCurrency
  currency₂ : y₂.reportingCurrency = y.reportingCurrency
  start : y₁.startDate = y.startDate
  next : y₂.startDate = y₁.endDate + 1
  last : y₂.endDate = y.endDate

variable {db : Db} {fx : Fx} {tables : TaxTables} {y y₁ y₂ : TaxYear}

theorem Splits.first_le (h : Splits y y₁ y₂) : y₁.endDate ≤ y.endDate := by
  calc y₁.endDate ≤ y₁.endDate + 1 := Nat.le_succ _
    _ = y₂.startDate := h.next.symm
    _ ≤ y₂.endDate := y₂.dates_valid
    _ = y.endDate := h.last

theorem Splits.contains_first (h : Splits y y₁ y₂) {d : Date} : y.Contains d ∧ d ≤ y₁.endDate ↔ y₁.Contains d := by
  unfold TaxYear.Contains
  rw [h.start]
  refine ⟨?_, ?_⟩
  · intro hd
    exact ⟨hd.1.1, hd.2⟩
  · intro hd
    exact ⟨⟨hd.1, hd.2.trans h.first_le⟩, hd.2⟩

theorem Splits.contains_second (h : Splits y y₁ y₂) {d : Date} : y.Contains d ∧ ¬d ≤ y₁.endDate ↔ y₂.Contains d := by
  unfold TaxYear.Contains
  rw [h.next, h.last, ← h.start, not_le]
  refine ⟨?_, ?_⟩
  · intro hd
    exact ⟨hd.2, hd.1.2⟩
  · intro hd
    exact ⟨⟨y₁.dates_valid.trans (Nat.le_of_succ_le hd.1), hd.2⟩, hd.1⟩

/-! ## Rows -/

/-- rows ordered by date, cut at a date -/
theorem orderBy_cut {α κ : Type} [LinearOrder κ] {key : α → κ} {date : α → Date}
    (hkey : ∀ a b, key a ≤ key b → date a ≤ date b) {p p₁ p₂ : α → Prop} [DecidablePred p] [DecidablePred p₁]
    [DecidablePred p₂] (b : Date) (h₁ : ∀ a, p a ∧ date a ≤ b ↔ p₁ a) (h₂ : ∀ a, p a ∧ ¬date a ≤ b ↔ p₂ a) (l : List α) :
    orderBy key (l.filter fun a => p a) = orderBy key (l.filter fun a => p₁ a) ++ orderBy key (l.filter fun a => p₂ a) := by
  have hp : ∀ a a', key a ≤ key a' → decide (date a' ≤ b) = true → decide (date a ≤ b) = true := fun a a' hle ha' =>
    decide_eq_true ((hkey a a' hle).trans (of_decide_eq_true ha'))
  rw [orderBy_split hp, List.filter_filter, List.filter_filter]
  congr 2
  · apply List.filter_congr
    intro a _
    rw [← Bool.decide_and]
    exact decide_eq_decide.2 (and_comm.trans (h₁ a))
  · apply List.filter_congr
    intro a _
    rw [← decide_not, ← Bool.decide_and]
    exact decide_eq_decide.2 (and_comm.trans (h₂ a))

theorem entryDate_le_of_key_le {a b : TransactionEntry} (h : entryKey a ≤ entryKey b) :
    a.transaction.transactionDate ≤ b.transaction.transactionDate := Prod.Lex.monotone_fst _ _ h

theorem interestEntries_split (h : Splits y y₁ y₂) (db : Db) :
    interestEntries db y = interestEntries db y₁ ++ interestEntries db y₂ := by
  refine orderBy_cut (fun _ _ => entryDate_le_of_key_le) y₁.endDate (fun e => ?_) (fun e => ?_) db.entries
  · rw [h.owner₁, ← h.contains_first]
    tauto
  · rw [h.owner₂, ← h.contains_second]
    tauto

theorem taxEntries_split (h : Splits y y₁ y₂) (db : Db) :
    taxEntries db y = taxEntries db y₁ ++ taxEntries db y₂ := by
  refine orderBy_cut (fun _ _ => entryDate_le_of_key_le) y₁.endDate (fun e => ?_) (fun e => ?_) db.entries
  · rw [h.owner₁, ← h.contains_first]
    tauto
  · rw [h.owner₂, ← h.contains_second]
    tauto

theorem dividends_split (h : Splits y y₁ y₂) (db : Db) : dividends db y = dividends db y₁ ++ dividends db y₂ := by
  have hkey : ∀ i j : InvestmentTransaction, replayKey i ≤ replayKey j → i.tradeDate ≤ j.tradeDate :=
    fun _ _ => tradeDate_le_of_key_le
  refine orderBy_cut hkey y₁.endDate (fun i => ?_) (fun i => ?_) db.investments
  · rw [h.owner₁, ← h.contains_first]
    tauto
  · rw [h.owner₂, ← h.contains_second]
    tauto

theorem brokerageAccounts_congr {y y' : TaxYear} (h : y'.owner = y.owner) (db : Db) :
    brokerageAccounts db y' = brokerageAccounts db y := by
  rw [brokerageAccounts, h, brokerageAccounts]

/-- **Sales.** What a sale is allocated does not depend on the year it is reported in: the sales of the whole year are
those of its parts, one after the other. -/
theorem saleEvents_split (h : Splits y y₁ y₂) {account : ℕ} {events : List RealizedGainEvent}
    (hreplay : calculateRealizedGainEvents db account (some y.endDate) = .ok events) :
    (∃ earlier, calculateRealizedGainEvents db account (some y₁.endDate) = .ok earlier) ∧
      saleEvents db y account = saleEvents db y₁ account ++ saleEvents db y₂ account := by
  obtain ⟨earlier, later, hearlier, rfl, hold, hnew⟩ := calculateRealizedGainEvents_split h.first_le hreplay
  refine ⟨⟨earlier, hearlier⟩, ?_⟩
  have hlater : ∀ e ∈ later, y₂.startDate ≤ e.investmentTransaction.tradeDate := fun e he => by
    rw [h.next]
    exact hnew e he
  have hnone : earlier.filter (fun e => y₂.startDate ≤ e.investmentTransaction.tradeDate) = [] := by
    apply List.filter_eq_nil_iff.2
    intro e he hd
    have hle : y₂.startDate ≤ e.investmentTransaction.tradeDate := of_decide_eq_true hd
    rw [h.next] at hle
    exact absurd (hold e he) (not_le.2 hle)
  have hall : ∀ d, d ≤ y₂.startDate →
      later.filter (fun e => d ≤ e.investmentTransaction.tradeDate) = later := fun d hd =>
    List.filter_eq_self.2 fun e he => decide_eq_true (hd.trans (hlater e he))
  have hstart : y.startDate ≤ y₂.startDate := by
    calc y.startDate = y₁.startDate := h.start.symm
      _ ≤ y₁.endDate := y₁.dates_valid
      _ ≤ y₁.endDate + 1 := Nat.le_succ _
      _ = y₂.startDate := h.next.symm
  simp only [saleEvents, hreplay, hearlier, h.last, List.filter_append, hnone, hall _ le_rfl, hall _ hstart, h.start,
    List.nil_append]

/-! ## Lines -/

theorem interestLine_congr {y y' : TaxYear} (h : y'.reportingCurrency = y.reportingCurrency) :
    interestLine fx y' = interestLine fx y := by
  funext e
  simp only [interestLine, reporting, h]

theorem taxLine_congr {y y' : TaxYear} (h : y'.reportingCurrency = y.reportingCurrency) :
    taxLine fx y' = taxLine fx y := by
  funext e
  simp only [taxLine, reporting, h]

theorem dividendLine_congr {y y' : TaxYear} (h : y'.reportingCurrency = y.reportingCurrency) :
    dividendLine db fx y' = dividendLine db fx y := by
  funext i
  simp only [dividendLine, itemReporting, reporting, h]

theorem gainLine_congr {y y' : TaxYear} (h : y'.reportingCurrency = y.reportingCurrency) (currency : ℕ) :
    gainLine fx y' currency = gainLine fx y currency := by
  funext e
  simp only [gainLine, reporting, h]

/-! ## Summaries -/

/-- no active allowance, deduction or adjustment belongs to the year -/
structure NoManualItems (tables : TaxTables) (taxYear : TaxYear) : Prop where
  allowances : activeAllowances tables taxYear = []
  deductions : activeDeductions tables taxYear = []
  adjustments : activeAdjustments tables taxYear = []

/-- s reports what s₁ and s₂ report together -/
structure Together (s s₁ s₂ : TaxYearSummary) : Prop where
  interestLines : s.interestLines = s₁.interestLines ++ s₂.interestLines
  dividendLines : s.dividendLines = s₁.dividendLines ++ s₂.dividendLines
  capitalGainLines : s.capitalGainLines.Perm (s₁.capitalGainLines ++ s₂.capitalGainLines)
  taxPaymentLines : s.taxPaymentLines = s₁.taxPaymentLines ++ s₂.taxPaymentLines
  grossInterest : s.grossInterest = s₁.grossInterest + s₂.grossInterest
  grossDividends : s.grossDividends = s₁.grossDividends + s₂.grossDividends
  taxWithheld : s.taxWithheld = s₁.taxWithheld + s₂.taxWithheld
  realizedCapitalGains : s.realizedCapitalGains = s₁.realizedCapitalGains + s₂.realizedCapitalGains
  realizedCapitalLosses : s.realizedCapitalLosses = s₁.realizedCapitalLosses + s₂.realizedCapitalLosses
  taxPaid : s.taxPaid = s₁.taxPaid + s₂.taxPaid

/-- without manual items the totals are those of the lines -/
structure LineTotals (s : TaxYearSummary) : Prop where
  grossInterest : s.grossInterest = lineTotal (s.interestLines.map InterestTaxLine.reportingAmount)
  grossDividends : s.grossDividends = lineTotal (s.dividendLines.map DividendTaxLine.grossReporting)
  taxWithheld : s.taxWithheld = lineTotal (s.dividendLines.map DividendTaxLine.withholdingReporting)
  realizedCapitalGains : s.realizedCapitalGains = gainTotal s.capitalGainLines
  realizedCapitalLosses : s.realizedCapitalLosses = lossTotal s.capitalGainLines
  taxPaid : s.taxPaid = lineTotal (s.taxPaymentLines.map TaxPaymentLine.reportingAmount)

theorem lineTotals {summary : TaxYearSummary} (hmanual : NoManualItems tables y)
    (h : buildTaxYearSummary db fx tables y = .ok summary) : LineTotals summary := by
  obtain ⟨s, hs, b, hb, rfl⟩ := buildTaxYearSummary_ok.1 h
  have htotals := summary_totals hs hb
  have hnone : ∀ category, adjusted fx tables (summarize db y s b).taxYear category = [] := fun category => by
    rw [adjusted]
    exact congrArg _ (congrArg _ hmanual.adjustments)
  have hmap : ∀ category (f : ℚ → ℚ), ((adjusted fx tables (summarize db y s b).taxYear category).map f).sum = 0 :=
    fun category f => by rw [hnone, List.map_nil, List.sum_nil]
  have hsum : ∀ category, (adjusted fx tables (summarize db y s b).taxYear category).sum = 0 := fun category => by
    rw [hnone, List.sum_nil]
  constructor
  case grossInterest => rw [htotals.grossInterest, hsum, add_zero]
  case grossDividends => rw [htotals.grossDividends, hsum, add_zero]
  case taxWithheld => rw [htotals.taxWithheld, hmap, add_zero]
  case realizedCapitalGains => rw [htotals.realizedCapitalGains, hsum, add_zero]
  case realizedCapitalLosses => rw [htotals.realizedCapitalLosses, hmap, add_zero]
  case taxPaid => rw [htotals.taxPaid, hmap, add_zero]

theorem gainTotal_perm {lines lines' : List CapitalGainTaxLine} (h : lines.Perm lines') :
    gainTotal lines = gainTotal lines' := (((h.map _).filter _).map _).sum_eq

theorem lossTotal_perm {lines lines' : List CapitalGainTaxLine} (h : lines.Perm lines') :
    lossTotal lines = lossTotal lines' := (((h.map _).filter _).map _).sum_eq

/-- **Adjacent years.** When the replay of every brokerage account succeeds up to the end, it succeeds up to the cut,
each of the three summaries is returned when its flat-rate rules have a rate, and the whole year reports what the two
parts report together. -/
theorem adjacent_years (h : Splits y y₁ y₂)
    (hmanual : NoManualItems tables y ∧ NoManualItems tables y₁ ∧ NoManualItems tables y₂)
    (hreplay : ∀ a ∈ brokerageAccounts db y,
      ∃ events, calculateRealizedGainEvents db a (some y.endDate) = .ok events) :
    (∀ a ∈ brokerageAccounts db y₁, ∃ events, calculateRealizedGainEvents db a (some y₁.endDate) = .ok events) ∧
    (∀ year ∈ [y, y₁, y₂], (∃ s, buildTaxYearSummary db fx tables year = .ok s) ↔
      ∀ r ∈ flatRateRules tables year, r.rate.isSome) ∧
    ∀ s s₁ s₂, buildTaxYearSummary db fx tables y = .ok s → buildTaxYearSummary db fx tables y₁ = .ok s₁ →
      buildTaxYearSummary db fx tables y₂ = .ok s₂ → Together s s₁ s₂ := by
  have haccounts₁ : brokerageAccounts db y₁ = brokerageAccounts db y := brokerageAccounts_congr h.owner₁ db
  have haccounts₂ : brokerageAccounts db y₂ = brokerageAccounts db y := brokerageAccounts_congr h.owner₂ db
  have hearlier : ∀ a ∈ brokerageAccounts db y₁,
      ∃ events, calculateRealizedGainEvents db a (some y₁.endDate) = .ok events := by
    intro a ha
    obtain ⟨events, hevents⟩ := hreplay a (haccounts₁ ▸ ha)
    exact (saleEvents_split h hevents).1
  have hreturns : ∀ year a, (∃ events, calculateRealizedGainEvents db a (some year.endDate) = .ok events) →
      Replays db year a := by
    rintro year a ⟨events, hevents⟩ e he
    rw [hevents] at he
    cases he
  refine ⟨hearlier, ?_, ?_⟩
  · intro year hyear
    rw [exists_buildTaxYearSummary_ok_iff]
    refine and_iff_right fun a ha => hreturns year a ?_
    simp only [List.mem_cons, List.not_mem_nil, or_false] at hyear
    rcases hyear with rfl | rfl | rfl
    · exact hreplay a ha
    · exact hearlier a ha
    · rw [h.last]
      exact hreplay a (haccounts₂ ▸ ha)
  · intro s s₁ s₂ hs hs₁ hs₂
    obtain ⟨hi, hd, hg, hp, -⟩ := summary_lines hs
    obtain ⟨hi₁, hd₁, hg₁, hp₁, -⟩ := summary_lines hs₁
    obtain ⟨hi₂, hd₂, hg₂, hp₂, -⟩ := summary_lines hs₂
    have hinterest : s.interestLines = s₁.interestLines ++ s₂.interestLines := by
      rw [hi, hi₁, hi₂, interestEntries_split h, List.map_append, interestLine_congr h.currency₁,
        interestLine_congr h.currency₂]
    have hdividend : s.dividendLines = s₁.dividendLines ++ s₂.dividendLines := by
      rw [hd, hd₁, hd₂, dividends_split h, List.map_append, dividendLine_congr h.currency₁,
        dividendLine_congr h.currency₂]
    have hpayment : s.taxPaymentLines = s₁.taxPaymentLines ++ s₂.taxPaymentLines := by
      rw [hp, hp₁, hp₂, taxEntries_split h, List.map_append, taxLine_congr h.currency₁, taxLine_congr h.currency₂]
    -- account by account the sales are split, so the whole list is one of the two lists in another order
    have hcapital : s.capitalGainLines.Perm (s₁.capitalGainLines ++ s₂.capitalGainLines) := by
      rw [hg₁, hg₂, haccounts₁, haccounts₂]
      refine List.Perm.trans (.of_eq ?_) (List.flatMap_append_perm _ _ _).symm
      rw [hg]
      apply List.flatMap_congr
      intro a ha
      obtain ⟨events, hevents⟩ := hreplay a ha
      rw [(saleEvents_split h hevents).2, List.map_append, gainLine_congr h.currency₁, gainLine_congr h.currency₂]
    obtain ⟨hm, hm₁, hm₂⟩ := hmanual
    have ht := lineTotals hm hs
    have ht₁ := lineTotals hm₁ hs₁
    have ht₂ := lineTotals hm₂ hs₂
    refine ⟨hinterest, hdividend, hcapital, hpayment, ?_, ?_, ?_, ?_, ?_, ?_⟩
    · rw [ht.grossInterest, ht₁.grossInterest, ht₂.grossInterest, hinterest, List.map_append, lineTotal_append]
    · rw [ht.grossDividends, ht₁.grossDividends, ht₂.grossDividends, hdividend, List.map_append, lineTotal_append]
    · rw [ht.taxWithheld, ht₁.taxWithheld, ht₂.taxWithheld, hdividend, List.map_append, lineTotal_append]
    · rw [ht.realizedCapitalGains, ht₁.realizedCapitalGains, ht₂.realizedCapitalGains, gainTotal_perm hcapital,
        gainTotal_append]
    · rw [ht.realizedCapitalLosses, ht₁.realizedCapitalLosses, ht₂.realizedCapitalLosses, lossTotal_perm hcapital,
        lossTotal_append]
    · rw [ht.taxPaid, ht₁.taxPaid, ht₂.taxPaid, hpayment, List.map_append, lineTotal_append]

/-- days 0 to 99, and days 100 to 364 -/
def firstPart : TaxYear := ⟨2, 1, "2026 A", "DE", 0, 99, 1, .open, "", by decide⟩

def secondPart : TaxYear := ⟨3, 1, "2026 B", "DE", 100, 364, 1, .open, "", by decide⟩

/-- interest in the first part, a purchase there, and a sale in each part -/
def interestAndSales : List Op :=
  [.createAccount 1 (plainForm .brokerage 1), .createDeposit 1 0 20 30 "Interest" .interest "",
    .createInvestmentTransaction (tradeAtTen .buy 10 10), .createInvestmentTransaction (tradeAtTen .sell 4 50),
    .createInvestmentTransaction (tradeAtTen .sell 3 200)]

theorem adjacent_years_interestAndSales :
    let db := run step (Db.init (fun _ => "EUR") fun _ => ⟨"ETF", 1, true⟩) interestAndSales
    ∃ s s₁ s₂, buildTaxYearSummary db ⟨[], 365⟩ noTables plainYear = .ok s ∧
      buildTaxYearSummary db ⟨[], 365⟩ noTables firstPart = .ok s₁ ∧
      buildTaxYearSummary db ⟨[], 365⟩ noTables secondPart = .ok s₂ ∧ s.capitalGainLines.length = 2 ∧
      Together s s₁ s₂ := by
  intro db
  obtain ⟨s, hs, hsales⟩ := exists_ok_of_check (x := buildTaxYearSummary db ⟨[], 365⟩ noTables plainYear)
    (p := fun s => s.capitalGainLines.length = 2) (by decide +kernel)
  obtain ⟨s₁, hs₁⟩ := exists_ok_of_isOk (x := buildTaxYearSummary db ⟨[], 365⟩ noTables firstPart) (by decide +kernel)
  obtain ⟨s₂, hs₂⟩ := exists_ok_of_isOk (x := buildTaxYearSummary db ⟨[], 365⟩ noTables secondPart) (by decide +kernel)
  have hsplits : Splits plainYear firstPart secondPart := ⟨rfl, rfl, rfl, rfl, rfl, rfl, rfl⟩
  have hmanual : ∀ year, NoManualItems noTables year := fun year => ⟨rfl, rfl, rfl⟩
  have haccounts : brokerageAccounts db plainYear = [0] := by decide +kernel
  have hreplay : ∀ a ∈ brokerageAccounts db plainYear,
      ∃ events, calculateRealizedGainEvents db a (some plainYear.endDate) = .ok events := by
    intro a ha
    rw [haccounts, List.mem_singleton] at ha
    rw [ha]
    exact exists_ok_of_isOk (by decide +kernel)
  have htogether := (adjacent_years hsplits ⟨hmanual _, hmanual _, hmanual _⟩ hreplay).2.2 s s₁ s₂ hs hs₁ hs₂
  exact ⟨s, s₁, s₂, hs, hs₁, hs₂, hsales, htogether⟩

/-- interest in currency 2: 1 in the first part, 1 and 4 in the second -/
def foreignInterest : List Op :=
  [.createAccount 1 (plainForm .savings 2), .createDeposit 1 0 1 30 "Interest" .interest "",
    .createDeposit 1 0 1 130 "Interest" .interest "", .createDeposit 1 0 4 230 "Interest" .interest ""]

/-- **Twenty-eight digits.** In the default context the interest of the whole year may differ from that of its parts in the
last digit, whether the parts are added up there or exactly. -/
theorem foreignInterest_lastDigit :
    let db := run step (Db.init (fun _ => "EUR") fun _ => ⟨"ETF", 1, true⟩) foreignInterest
    ∃ s s₁ s₂, InContext.buildTaxYearSummary kept db thirdsAndSixths noTables plainYear = .ok s ∧
      InContext.buildTaxYearSummary kept db thirdsAndSixths noTables firstPart = .ok s₁ ∧
      InContext.buildTaxYearSummary kept db thirdsAndSixths noTables secondPart = .ok s₂ ∧
      s.grossInterest ≠ kept (s₁.grossInterest + s₂.grossInterest) ∧
        s.grossInterest ≠ s₁.grossInterest + s₂.grossInterest := by
  intro db
  obtain ⟨s, hs, hwhole⟩ := exists_ok_of_check
    (x := InContext.buildTaxYearSummary kept db thirdsAndSixths noTables plainYear)
    (p := fun s => s.grossInterest = 2) (by decide +kernel)
  obtain ⟨s₁, hs₁, hfirst⟩ := exists_ok_of_check
    (x := InContext.buildTaxYearSummary kept db thirdsAndSixths noTables firstPart)
    (p := fun s => s.grossInterest = kept (1 / 3)) (by decide +kernel)
  obtain ⟨s₂, hs₂, hsecond⟩ := exists_ok_of_check
    (x := InContext.buildTaxYearSummary kept db thirdsAndSixths noTables secondPart)
    (p := fun s => s.grossInterest = kept (kept (1 / 3) + kept (4 * kept (1 / 3)))) (by decide +kernel)
  refine ⟨s, s₁, s₂, hs, hs₁, hs₂, ?_⟩
  rw [hwhole, hfirst, hsecond]
  decide +kernel

end Vault67.Tax
