/-
Which ledger events a summary takes into account.

`Source`: what stands in a summary, an entry or an investment detail on a line, or a transaction left to review.

- `eventParts_interestLines`, …: the lines are those of the selected rows, one for each, in their order.
- `sources_of`: a transaction of a taxable type has exactly one source, except an INTEREST entry that takes money from
  the account and a TAX entry that brings some, which have none.
- `taxable_events_covered_iff`: for every ledger a run can reach.
- `negative_interest_dropped`: a statement can bring such an entry, and the summary still says COMPLETE.
-/
import Mathlib.Tactic
import Vault67.Ledger.Shape
import Vault67.Tax.Completeness

namespace Vault67.Tax

open Accumulate Fallible Investments Ledger Machine OrderBy Rows

variable {db : Db} {fx : Fx} {tables : TaxTables} {taxYear : TaxYear}

/-! ## Lines -/

/-- a list that the parts append to, loop by loop -/
theorem eventParts_flatMap {β : Type} {g : Collected → List β} (hreasons : ∀ rs, g { reasons := rs } = [])
    (hadd : ∀ s t, g (s + t) = g s ++ g t) :
    g (eventParts db fx taxYear) =
      (interestEntries db taxYear).flatMap (fun e => g (interestPart fx taxYear e)) ++
      (dividends db taxYear).flatMap (fun i => g (dividendPart db fx taxYear i)) ++
      (brokerageAccounts db taxYear).flatMap (fun a =>
        (saleEvents db taxYear a).flatMap fun event => g (gainPart fx taxYear (db.account a).currency event)) ++
      (taxEntries db taxYear).flatMap fun e => g (taxPart fx taxYear e) := by
  have hzero : g 0 = [] := hreasons []
  have haccount : ∀ a, g (accountPart db fx taxYear a) =
      (saleEvents db taxYear a).flatMap fun event => g (gainPart fx taxYear (db.account a).currency event) := by
    intro a
    rw [accountPart, hadd, hreasons, List.nil_append, sum_parts hzero hadd]
  rw [eventParts, hadd, hadd, hadd, sum_parts hzero hadd, sum_parts hzero hadd, sum_parts hzero hadd,
    sum_parts hzero hadd]
  simp only [haccount]

theorem eventParts_interestLines (db : Db) (fx : Fx) (taxYear : TaxYear) :
    (eventParts db fx taxYear).interestLines = (interestEntries db taxYear).map (interestLine fx taxYear) := by
  rw [eventParts_flatMap (g := Collected.interestLines) (fun _ => rfl) (fun _ _ => rfl), List.map_eq_flatMap]
  simp [interestPart, dividendPart, gainPart, taxPart]

theorem eventParts_dividendLines (db : Db) (fx : Fx) (taxYear : TaxYear) :
    (eventParts db fx taxYear).dividendLines = (dividends db taxYear).map (dividendLine db fx taxYear) := by
  rw [eventParts_flatMap (g := Collected.dividendLines) (fun _ => rfl) (fun _ _ => rfl), List.map_eq_flatMap]
  simp [interestPart, dividendPart, gainPart, taxPart]

theorem eventParts_capitalLines (db : Db) (fx : Fx) (taxYear : TaxYear) :
    (eventParts db fx taxYear).capitalLines = (brokerageAccounts db taxYear).flatMap fun a =>
      (saleEvents db taxYear a).map (gainLine fx taxYear (db.account a).currency) := by
  rw [eventParts_flatMap (g := Collected.capitalLines) (fun _ => rfl) (fun _ _ => rfl)]
  simp [interestPart, dividendPart, gainPart, taxPart, List.map_eq_flatMap]

theorem eventParts_paymentLines (db : Db) (fx : Fx) (taxYear : TaxYear) :
    (eventParts db fx taxYear).paymentLines = (taxEntries db taxYear).map (taxLine fx taxYear) := by
  rw [eventParts_flatMap (g := Collected.paymentLines) (fun _ => rfl) (fun _ _ => rfl), List.map_eq_flatMap]
  simp [interestPart, dividendPart, gainPart, taxPart]

/-- the lines of a summary are those of its events -/
theorem summary_lines {summary : TaxYearSummary} (h : buildTaxYearSummary db fx tables taxYear = .ok summary) :
    summary.interestLines = (interestEntries db taxYear).map (interestLine fx taxYear) ∧
    summary.dividendLines = (dividends db taxYear).map (dividendLine db fx taxYear) ∧
    (summary.capitalGainLines = (brokerageAccounts db taxYear).flatMap fun a =>
      (saleEvents db taxYear a).map (gainLine fx taxYear (db.account a).currency)) ∧
    summary.taxPaymentLines = (taxEntries db taxYear).map (taxLine fx taxYear) ∧
    summary.unclassifiedTransactions = unclassified db taxYear := by
  obtain ⟨s, hs, b, -, rfl⟩ := buildTaxYearSummary_ok.1 h
  obtain ⟨-, rfl⟩ := collect_ok_iff.1 hs
  obtain ⟨h1, h2, h3, h4⟩ := (manualParts_lineless fx tables taxYear).add_left (eventParts db fx taxYear)
  exact ⟨h1.trans (eventParts_interestLines db fx taxYear), h2.trans (eventParts_dividendLines db fx taxYear),
    h3.trans (eventParts_capitalLines db fx taxYear), h4.trans (eventParts_paymentLines db fx taxYear), rfl⟩

/-! ## Sources -/

inductive Source where
  | interest (e : TransactionEntry)
  | dividend (i : InvestmentTransaction)
  | payment (e : TransactionEntry)
  | review (t : Transaction)
deriving DecidableEq, Repr

def Source.transaction : Source → Transaction
  | .interest e => e.transaction
  | .dividend i => i.transaction
  | .payment e => e.transaction
  | .review t => t

/-- what stands in a summary: the rows behind its lines, and the transactions left to review -/
def sources (db : Db) (taxYear : TaxYear) : List Source :=
  (interestEntries db taxYear).map .interest ++ (dividends db taxYear).map .dividend ++
    (taxEntries db taxYear).map .payment ++ (unclassified db taxYear).map .review

def isTaxable (t : TransactionType) : Prop :=
  t = .interest ∨ t = .dividend ∨ t = .tax ∨ t = .income ∨ t = .adjustment

instance (t : TransactionType) : Decidable (isTaxable t) := inferInstanceAs (Decidable (_ ∨ _ ∨ _ ∨ _ ∨ _))

/-- interest is received and tax is paid; every other entry may have either sign -/
def RightSign (e : TransactionEntry) : Prop :=
  match e.transaction.transactionType with
  | .interest => 0 < e.amount
  | .tax => e.amount < 0
  | _ => True

instance (e : TransactionEntry) : Decidable (RightSign e) := by
  unfold RightSign
  split <;> infer_instance

/-- x is the line or the review item in which the entry e of its transaction is expected -/
def Source.For (db : Db) (e : TransactionEntry) : Source → Prop
  | .interest e' => e' = e ∧ e.transaction.transactionType = .interest
  | .dividend i => i ∈ db.investments ∧ i.transaction = e.transaction ∧ e.transaction.transactionType = .dividend
  | .payment e' => e' = e ∧ e.transaction.transactionType = .tax
  | .review t => t = e.transaction ∧ t.transactionType ≠ .interest ∧ t.transactionType ≠ .tax

variable {t : Transaction} {e : TransactionEntry}

/-- the only entry of a transaction, among the selected entries -/
theorem entries_select (hI : Integrity db) (ht : t ∈ db.transactions) (he : db.entriesOf t = [e])
    (p : TransactionEntry → Prop) [DecidablePred p] :
    (orderBy entryKey (db.entries.filter fun e => p e)).filter (fun e => e.transaction = t) = if p e then [e] else [] := by
  have hfilter : (db.entries.filter fun e => p e).filter (fun e => e.transaction = t) =
      (db.entriesOf t).filter fun e => p e := by
    rw [Db.entriesOf, List.filter_comm]
    congr 1
    refine List.filter_congr fun e' he' => decide_eq_decide.2 ⟨fun h => congrArg _ h, fun h => ?_⟩
    exact List.inj_on_of_nodup_map hI.transaction_nodup (hI.entry_transaction e' he') ht h
  rw [filter_orderBy, hfilter, he]
  by_cases hp : p e <;> simp [hp, orderBy]

/-- a transaction, among the selected transactions -/
theorem transactions_select {κ : Type} [LinearOrder κ] (key : Transaction → κ) (hI : Integrity db)
    (ht : t ∈ db.transactions) (p : Transaction → Prop) [DecidablePred p] :
    (orderBy key (db.transactions.filter fun t => p t)).filter (fun t' => t' = t) = if p t then [t] else [] := by
  have hfilter : db.transactions.filter (fun t' => decide (t' = t)) = [t] := by
    rw [← filter_key_eq hI.transaction_nodup ht]
    refine List.filter_congr fun t' ht' => decide_eq_decide.2 ⟨fun h => congrArg _ h, fun h => ?_⟩
    exact List.inj_on_of_nodup_map hI.transaction_nodup ht' ht h
  rw [filter_orderBy, List.filter_comm, hfilter]
  by_cases hp : p t <;> simp [hp, orderBy]

/-- the investment detail of a transaction, if it has one, among the selected details -/
theorem investments_select {κ : Type} [LinearOrder κ] (key : InvestmentTransaction → κ) (hI : Integrity db)
    (ht : t ∈ db.transactions) (p : InvestmentTransaction → Prop) [DecidablePred p] :
    (db.hasInvestmentDetail t → ∃ i ∈ db.investments, i.transaction = t ∧
      (orderBy key (db.investments.filter fun i => p i)).filter (fun i => i.transaction = t) =
        if p i then [i] else []) ∧
    (¬db.hasInvestmentDetail t →
      (orderBy key (db.investments.filter fun i => p i)).filter (fun i => i.transaction = t) = []) := by
  have hpk : ∀ i ∈ db.investments, i.transaction.pk = t.pk → i.transaction = t := fun i hi h =>
    List.inj_on_of_nodup_map hI.transaction_nodup (hI.detail_transaction i hi) ht h
  refine ⟨?_, ?_⟩
  · rintro ⟨i, hi, hit⟩
    have hfilter : db.investments.filter (fun j => decide (j.transaction = t)) = [i] := by
      rw [← filter_key_eq hI.detail_nodup hi]
      refine List.filter_congr fun j hj => decide_eq_decide.2 ⟨fun h => h ▸ hit.symm, fun h => ?_⟩
      exact hpk j hj (h.trans hit)
    refine ⟨i, hi, hpk i hi hit, ?_⟩
    rw [filter_orderBy, List.filter_comm, hfilter]
    by_cases hp : p i <;> simp [hp, orderBy]
  · intro hnone
    refine List.filter_eq_nil_iff.2 fun i hi hit => hnone ⟨i, ?_, ?_⟩
    · exact (List.mem_filter.1 (mem_orderBy.1 hi)).1
    · rw [of_decide_eq_true hit]

theorem filter_sources (db : Db) (taxYear : TaxYear) (t : Transaction) :
    (sources db taxYear).filter (fun x => x.transaction = t) =
      ((interestEntries db taxYear).filter fun e => e.transaction = t).map .interest ++
        ((dividends db taxYear).filter fun i => i.transaction = t).map .dividend ++
        ((taxEntries db taxYear).filter fun e => e.transaction = t).map .payment ++
        (((unclassifiedIncome db taxYear).filter fun t' => t' = t) ++
          ((genericDividends db taxYear).filter fun t' => t' = t)).map .review := by
  simp only [sources, unclassified, List.filter_append, List.filter_map, Function.comp_def, Source.transaction]
  rfl

section InYear

variable (hI : Integrity db) (ht : t ∈ db.transactions) (howner : t.owner = taxYear.owner)
  (hdate : taxYear.Contains t.transactionDate)

include hI ht howner hdate

theorem interest_source (he : db.entriesOf t = [e]) :
    (interestEntries db taxYear).filter (fun e => e.transaction = t) =
      if t.transactionType = .interest ∧ 0 < e.amount then [e] else [] := by
  have het : e.transaction = t := hI.transaction_eq ht (he ▸ List.mem_singleton_self e)
  rw [interestEntries, entries_select hI ht he, het]
  simp only [howner, hdate, true_and, and_true]

theorem payment_source (he : db.entriesOf t = [e]) :
    (taxEntries db taxYear).filter (fun e => e.transaction = t) =
      if t.transactionType = .tax ∧ e.amount < 0 then [e] else [] := by
  have het : e.transaction = t := hI.transaction_eq ht (he ▸ List.mem_singleton_self e)
  rw [taxEntries, entries_select hI ht he, het]
  simp only [howner, hdate, true_and, and_true]

theorem income_source :
    (unclassifiedIncome db taxYear).filter (fun t' => t' = t) =
      if t.transactionType = .income ∨ t.transactionType = .adjustment then [t] else [] := by
  rw [unclassifiedIncome, transactions_select _ hI ht]
  simp only [howner, hdate, true_and]

theorem generic_source :
    (genericDividends db taxYear).filter (fun t' => t' = t) =
      if t.transactionType = .dividend ∧ ¬db.hasInvestmentDetail t then [t] else [] := by
  rw [genericDividends, transactions_select _ hI ht]
  simp only [howner, hdate, true_and]

/-- a dividend's detail is on an account of the same owner -/
theorem dividend_source :
    (t.transactionType = .dividend → db.hasInvestmentDetail t → ∃ i ∈ db.investments, i.transaction = t ∧
      (dividends db taxYear).filter (fun i => i.transaction = t) = [i]) ∧
    (¬(t.transactionType = .dividend ∧ db.hasInvestmentDetail t) →
      (dividends db taxYear).filter (fun i => i.transaction = t) = []) := by
  obtain ⟨hdetail, hnone⟩ := investments_select replayKey hI ht fun i =>
    (db.account i.account).owner = taxYear.owner ∧ i.transactionType = .dividend ∧ taxYear.Contains i.tradeDate
  refine ⟨?_, ?_⟩
  · intro htype hd
    obtain ⟨i, hi, hit, hfilter⟩ := hdetail hd
    obtain ⟨e, he, het, hacc⟩ := hI.detail_entry i hi
    have hiowner : (db.account i.account).owner = taxYear.owner := by
      rw [← hacc, hI.owner e he, het, hit, howner]
    have hitype : i.transactionType = .dividend := by rw [InvestmentDraft.transactionType, hit, htype]
    have hidate : taxYear.Contains i.tradeDate := by
      rw [InvestmentDraft.tradeDate, hit]
      exact hdate
    exact ⟨i, hi, hit, hfilter.trans (if_pos ⟨hiowner, hitype, hidate⟩)⟩
  · intro hno
    by_cases hd : db.hasInvestmentDetail t
    · obtain ⟨i, hi, hit, hfilter⟩ := hdetail hd
      refine hfilter.trans (if_neg fun h => hno ⟨?_, hd⟩)
      rw [← hit]
      exact h.2.1
    · exact hnone hd

/-- **One source.** A transaction of a taxable type stands in the summary once, or its entry has the wrong sign. -/
theorem sources_of (he : db.entriesOf t = [e]) (htype : isTaxable t.transactionType) :
    (RightSign e → ∃ x, (sources db taxYear).filter (fun x => x.transaction = t) = [x] ∧ x.For db e) ∧
      (¬RightSign e → (sources db taxYear).filter (fun x => x.transaction = t) = []) := by
  have het : e.transaction = t := hI.transaction_eq ht (he ▸ List.mem_singleton_self e)
  obtain ⟨hdividend, hnodividend⟩ := dividend_source hI ht howner hdate
  rw [filter_sources, interest_source hI ht howner hdate he, payment_source hI ht howner hdate he,
    income_source hI ht howner hdate, generic_source hI ht howner hdate]
  unfold RightSign
  rw [het]
  rcases htype with h | h | h | h | h
  · rw [hnodividend fun hc => absurd (h.symm.trans hc.1) (by decide)]
    simp only [h]
    refine ⟨?_, ?_⟩
    · intro hpos
      exact ⟨.interest e, by simp [hpos], rfl, by rw [het, h]⟩
    · intro hneg
      simp [hneg]
  · -- with a detail it stands on a dividend line, without one it is left to review
    simp only [h]
    refine ⟨fun _ => ?_, fun hfalse => absurd trivial hfalse⟩
    by_cases hd : db.hasInvestmentDetail t
    · obtain ⟨i, hi, hit, hfilter⟩ := hdividend h hd
      exact ⟨.dividend i, by simp [hfilter, hd], hi, hit.trans het.symm, by rw [het, h]⟩
    · have hnil := hnodividend fun hc => hd hc.2
      exact ⟨.review t, by simp [hnil, hd], het.symm, by simp [h], by simp [h]⟩
  · rw [hnodividend fun hc => absurd (h.symm.trans hc.1) (by decide)]
    simp only [h]
    refine ⟨?_, ?_⟩
    · intro hneg
      exact ⟨.payment e, by simp [hneg], rfl, by rw [het, h]⟩
    · intro hpos
      simp [hpos]
  · have hnil := hnodividend fun hc => absurd (h.symm.trans hc.1) (by decide)
    simp only [h]
    exact ⟨fun _ => ⟨.review t, by simp [hnil], het.symm, by simp [h], by simp [h]⟩, fun hfalse => absurd trivial hfalse⟩
  · have hnil := hnodividend fun hc => absurd (h.symm.trans hc.1) (by decide)
    simp only [h]
    exact ⟨fun _ => ⟨.review t, by simp [hnil], het.symm, by simp [h], by simp [h]⟩, fun hfalse => absurd trivial hfalse⟩

end InYear

/-! ## Events -/

/-- t is accounted for: it has an entry, and each of its entries stands in the summary exactly once -/
def Covered (db : Db) (taxYear : TaxYear) (t : Transaction) : Prop :=
  db.entriesOf t ≠ [] ∧ ∀ e ∈ db.entriesOf t, ∃ x,
    (sources db taxYear).filter (fun x => x.transaction = t) = [x] ∧ x.For db e

/-- the taxable events of the owner in the year -/
def taxableEvents (db : Db) (taxYear : TaxYear) : List Transaction :=
  db.transactions.filter fun t =>
    t.owner = taxYear.owner ∧ taxYear.Contains t.transactionDate ∧ isTaxable t.transactionType

theorem covered_iff (hI : Integrity db) (ht : t ∈ db.transactions) (howner : t.owner = taxYear.owner)
    (hdate : taxYear.Contains t.transactionDate) (htype : isTaxable t.transactionType) (he : db.entriesOf t = [e]) :
    Covered db taxYear t ↔ RightSign e := by
  obtain ⟨hright, hwrong⟩ := sources_of hI ht howner hdate he htype
  rw [Covered, he]
  refine ⟨fun h => ?_, fun hsign => ⟨List.cons_ne_nil _ _, fun e' he' => ?_⟩⟩
  · obtain ⟨x, hx, -⟩ := h.2 e (List.mem_singleton_self e)
    by_contra hsign
    exact List.cons_ne_nil _ _ (hx.symm.trans (hwrong hsign))
  · cases List.mem_singleton.1 he'
    exact hright hsign

theorem rightSign_of_not_taxable (h : ¬isTaxable e.transaction.transactionType) : RightSign e := by
  unfold RightSign
  split
  · exact absurd (Or.inl ‹_›) h
  · exact absurd (Or.inr (Or.inr (Or.inl ‹_›))) h
  · trivial

theorem isTaxable_ne_transfer {type : TransactionType} (h : isTaxable type) : type ≠ .transfer := by
  rintro rfl
  simp [isTaxable] at h

theorem all_covered_iff (hI : Integrity db) (hone : Shaped OneEntry db) :
    (∀ t ∈ taxableEvents db taxYear, Covered db taxYear t) ↔
      ∀ e ∈ db.entries, e.transaction.owner = taxYear.owner → taxYear.Contains e.transaction.transactionDate →
        RightSign e := by
  refine ⟨fun h e he howner hdate => ?_, fun h t ht => ?_⟩
  · by_cases htype : isTaxable e.transaction.transactionType
    · have ht := hI.entry_transaction e he
      obtain ⟨e', he', -⟩ := hone _ ht (isTaxable_ne_transfer htype)
      have hmem : e ∈ db.entriesOf e.transaction := List.mem_filter.2 ⟨he, decide_eq_true rfl⟩
      rw [he', List.mem_singleton] at hmem
      have hcovered := h _ (List.mem_filter.2 ⟨ht, decide_eq_true ⟨howner, hdate, htype⟩⟩)
      exact hmem ▸ (covered_iff hI ht howner hdate htype he').1 hcovered
    · exact rightSign_of_not_taxable htype
  · obtain ⟨hmem, hevent⟩ := List.mem_filter.1 ht
    obtain ⟨howner, hdate, htype⟩ := of_decide_eq_true hevent
    obtain ⟨e, he, -⟩ := hone t hmem (isTaxable_ne_transfer htype)
    have hmem' : e ∈ db.entriesOf t := he ▸ List.mem_singleton_self e
    have het : e.transaction = t := hI.transaction_eq hmem hmem'
    refine (covered_iff hI hmem howner hdate htype he).2 (h e (List.mem_filter.1 hmem').1 ?_ ?_)
    · rw [het, howner]
    · rw [het]
      exact hdate

/-! ## Runs -/

theorem run_oneEntry (currencyCode : ℕ → String) (security : ℕ → Security) (ops : List Op) :
    Integrity (run step (Db.init currencyCode security) ops) ∧
      Shaped OneEntry (run step (Db.init currencyCode security) ops) := by
  refine run_inv (fun _ => True) (I := fun db => Integrity db ∧ Shaped OneEntry db) ?_ (fun _ _ => trivial)
    ⟨init_integrity _ _, (init_shape _ _).other⟩
  rintro db op db' ⟨hI, hone⟩ - hs
  exact ⟨step_integrity hI hs,
    step_shaped (fun _ _ => trivial) (posting_oneEntry _) hI hone (.of_forall (fun _ => trivial) op) hs⟩

/-- **Coverage.** In every ledger that a run can reach and every summary of it: the lines are one for each selected
row; every taxable event of the owner in the year is accounted for if and only if no interest of the owner in the year
is taken from an account and no tax is paid to one; and a COMPLETE summary leaves nothing to review and misses no
amount on a line. -/
theorem taxable_events_covered_iff (currencyCode : ℕ → String) (security : ℕ → Security) (ops : List Op) (fx : Fx)
    (tables : TaxTables) (taxYear : TaxYear) {summary : TaxYearSummary} :
    let db := run step (Db.init currencyCode security) ops
    buildTaxYearSummary db fx tables taxYear = .ok summary →
      (summary.interestLines = (interestEntries db taxYear).map (interestLine fx taxYear) ∧
        summary.dividendLines = (dividends db taxYear).map (dividendLine db fx taxYear) ∧
        summary.taxPaymentLines = (taxEntries db taxYear).map (taxLine fx taxYear) ∧
        summary.unclassifiedTransactions = unclassified db taxYear) ∧
      ((∀ t ∈ taxableEvents db taxYear, Covered db taxYear t) ↔
        ∀ e ∈ db.entries, e.transaction.owner = taxYear.owner → taxYear.Contains e.transaction.transactionDate →
          RightSign e) ∧
      (summary.completeness = .complete → summary.Present fx tables ∧ summary.unclassifiedTransactions = []) := by
  intro db h
  obtain ⟨hI, hone⟩ : Integrity db ∧ Shaped OneEntry db := run_oneEntry currencyCode security ops
  obtain ⟨hinterest, hdividend, -, hpayment, hreview⟩ := summary_lines h
  refine ⟨⟨hinterest, hdividend, hpayment, hreview⟩, all_covered_iff hI hone, fun hcomplete => ?_⟩
  obtain ⟨s, hs, b, -, rfl⟩ := buildTaxYearSummary_ok.1 h
  obtain ⟨hreasons, hnothing⟩ := completenessOf_eq_complete.1 hcomplete
  exact ⟨summary_present hs hreasons, (reviewReasons_eq_nil.1 hnothing).1⟩

def noTables : TaxTables := ⟨[], [], [], []⟩

/-- interest of 12 and a tax payment of 3 on a statement, and a dividend of 20 of a fund -/
def interestDividendAndTax : List Op :=
  [.createAccount 1 (plainForm .brokerage 1),
    .createInvestmentTransaction { tradeAtTen .dividend 2 50 with quantity := none, pricePerUnit := none },
    .importTransactions 1 0
      [⟨100, "Interest", 12, .interest, "", "", none, by decide +kernel⟩,
        ⟨101, "Tax withheld", -3, .tax, "", "", none, by decide +kernel⟩]]

theorem taxable_events_covered_iff_dividend :
    let db := run step (Db.init (fun _ => "EUR") fun _ => ⟨"ETF", 1, true⟩) interestDividendAndTax
    ∃ summary, buildTaxYearSummary db ⟨[], 365⟩ noTables plainYear = .ok summary ∧
      (taxableEvents db plainYear).length = 3 ∧ ∀ t ∈ taxableEvents db plainYear, Covered db plainYear t := by
  intro db
  obtain ⟨summary, h⟩ := exists_ok_of_isOk (x := buildTaxYearSummary db ⟨[], 365⟩ noTables plainYear) (by decide +kernel)
  exact ⟨summary, h, by decide +kernel, (taxable_events_covered_iff _ _ _ _ _ _ h).2.1.2 (by decide +kernel)⟩

/-- an account with one imported row: the bank takes back 5 of interest -/
def interestTakenBack : List Op :=
  [.createAccount 1 (plainForm .checking 1),
    .importTransactions 1 0 [⟨100, "Interest correction", -5, .interest, "", "", none, by decide +kernel⟩]]

/-- **Dropped.** The entry is interest of the year, and the summary is COMPLETE without any line or review item. -/
theorem negative_interest_dropped :
    let db := run step (Db.init (fun _ => "EUR") fun _ => ⟨"ETF", 1, true⟩) interestTakenBack
    (¬∀ t ∈ taxableEvents db plainYear, Covered db plainYear t) ∧
    ∃ summary, buildTaxYearSummary db ⟨[], 365⟩ noTables plainYear = .ok summary ∧
      summary.completeness = .complete ∧ summary.interestLines = [] ∧ summary.dividendLines = [] ∧
      summary.taxPaymentLines = [] ∧ summary.unclassifiedTransactions = [] := by
  intro db
  obtain ⟨hI, hone⟩ : Integrity db ∧ Shaped OneEntry db := run_oneEntry _ _ _
  refine ⟨fun hcovered => ?_, exists_ok_of_check (by decide +kernel)⟩
  have hsigns := (all_covered_iff hI hone).1 hcovered
  exact absurd hsigns (by decide +kernel)

end Vault67.Tax
