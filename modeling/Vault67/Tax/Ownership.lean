/-
A summary depends on its own data only.

Two databases that agree on the records of one owner up to the end of a tax year (`SameForOwner`), on the exchange rates
up to that day and on the active items and rules of the year give the same summary, or fail in the same way. The eight
queries behind a summary reach the owner in three ways: through the transaction, through the account, and through the
item.

- `interestEntries_congr`, …, `unclassified_congr`: each query.
- `calculateRealizedGainEvents_congr`: the replay of an account over its whole history.
- `collect_congr`, `summarize_congr`: the stages.
- `summary_depends_on_own_data`: the whole summary.
-/
import Mathlib.Tactic
import Vault67.Lib.Rows
import Vault67.Ledger.Currency
import Vault67.Investments.ReplayAgreement
import Vault67.Tax.Coverage

namespace Vault67.Tax

open Fallible Investments Ledger Machine OrderBy Rows

/-! ## What belongs to an owner -/

section Own

variable (db : Db) (owner : ℕ) (d : Date)

def ownAccounts : List (ℕ × FinancialAccount) :=
  (db.accountIds.filter fun a => (db.account a).owner = owner).map fun a => (a, db.account a)

def ownTransactions : List Transaction := db.transactions.filter fun t => t.owner = owner ∧ t.transactionDate ≤ d

def ownEntries : List TransactionEntry :=
  db.entries.filter fun e => e.transaction.owner = owner ∧ e.transaction.transactionDate ≤ d

/-- through the account or through the transaction -/
def ownInvestments : List InvestmentTransaction :=
  db.investments.filter fun i => ((db.account i.account).owner = owner ∨ i.transaction.owner = owner) ∧ i.tradeDate ≤ d

end Own

/-- the databases agree on what the owner has up to the date -/
structure SameForOwner (owner : ℕ) (d : Date) (db₁ db₂ : Db) : Prop where
  accounts : ownAccounts db₁ owner = ownAccounts db₂ owner
  transactions : ownTransactions db₁ owner d = ownTransactions db₂ owner d
  entries : ownEntries db₁ owner d = ownEntries db₂ owner d
  investments : ownInvestments db₁ owner d = ownInvestments db₂ owner d
  symbols : ∀ i ∈ ownInvestments db₁ owner d, (db₁.security i.security).symbol = (db₂.security i.security).symbol

/-- foreign keys: a detail's account is stored, and so is its transaction -/
structure References (db : Db) : Prop where
  account : ∀ i ∈ db.investments, i.account ∈ db.accountIds
  transaction : ∀ i ∈ db.investments, ∀ t ∈ db.transactions, i.transaction.pk = t.pk → i.transaction = t

theorem references_of_integrity {db : Db} (h : Integrity db) : References db := by
  refine ⟨h.detail_account, fun i hi t ht hk => ?_⟩
  exact List.inj_on_of_nodup_map h.transaction_nodup (h.detail_transaction i hi) ht hk

/-- the tables agree on the active items and rules of the year -/
structure SameItems (y : TaxYear) (tables₁ tables₂ : TaxTables) : Prop where
  deductions : (tables₁.deductions.filter fun i => i.Counts y) = tables₂.deductions.filter fun i => i.Counts y
  allowances : (tables₁.allowances.filter fun i => i.Counts y) = tables₂.allowances.filter fun i => i.Counts y
  adjustments : (tables₁.adjustments.filter fun i => i.Counts y) = tables₂.adjustments.filter fun i => i.Counts y
  rules : (tables₁.rules.filter fun r => r.owner = some y.owner ∧ r.taxYear = some y.pk ∧ r.active) =
    tables₂.rules.filter fun r => r.owner = some y.owner ∧ r.taxYear = some y.pk ∧ r.active

/-- the dated items that the summary counts are dated by the end of the year -/
structure ItemsDated (y : TaxYear) (tables : TaxTables) : Prop where
  deductions : ∀ i ∈ activeDeductions tables y, i.date ≤ y.endDate
  adjustments : ∀ i ∈ activeAdjustments tables y, i.date ≤ y.endDate

variable {db₁ db₂ : Db} {fx₁ fx₂ : Fx} {tables₁ tables₂ : TaxTables} {y : TaxYear} {owner : ℕ} {d : Date}

/-! ## Accounts -/

theorem SameForOwner.account_eq (h : SameForOwner owner d db₁ db₂) {a : ℕ} (ha : a ∈ db₁.accountIds)
    (howner : (db₁.account a).owner = owner) : db₁.account a = db₂.account a := by
  have hmem : (a, db₁.account a) ∈ ownAccounts db₂ owner := by
    rw [← h.accounts]
    exact List.mem_map.2 ⟨a, List.mem_filter.2 ⟨ha, decide_eq_true howner⟩, rfl⟩
  obtain ⟨b, -, hb⟩ := List.mem_map.1 hmem
  obtain ⟨rfl, hrow⟩ := Prod.mk.inj hb
  exact hrow.symm

theorem SameForOwner.account_eq' (h : SameForOwner owner d db₁ db₂) {a : ℕ} (ha : a ∈ db₂.accountIds)
    (howner : (db₂.account a).owner = owner) : db₁.account a = db₂.account a := by
  have hmem : (a, db₂.account a) ∈ ownAccounts db₁ owner := by
    rw [h.accounts]
    exact List.mem_map.2 ⟨a, List.mem_filter.2 ⟨ha, decide_eq_true howner⟩, rfl⟩
  obtain ⟨b, -, hb⟩ := List.mem_map.1 hmem
  obtain ⟨rfl, hrow⟩ := Prod.mk.inj hb
  exact hrow

/-- an account that is stored in both is the owner's in both or in none -/
theorem SameForOwner.owner_iff (h : SameForOwner owner d db₁ db₂) {a : ℕ} (h₁ : a ∈ db₁.accountIds)
    (h₂ : a ∈ db₂.accountIds) : (db₁.account a).owner = owner ↔ (db₂.account a).owner = owner := by
  refine ⟨?_, ?_⟩
  · intro ho
    rw [← h.account_eq h₁ ho]
    exact ho
  · intro ho
    rw [h.account_eq' h₂ ho]
    exact ho

theorem brokerageAccounts_own (db : Db) (y : TaxYear) :
    (db.accountIds.filter fun a => (db.account a).owner = y.owner ∧ (db.account a).accountType = .brokerage) =
      ((ownAccounts db y.owner).filter fun p => p.2.accountType = .brokerage).map Prod.fst := by
  rw [ownAccounts, List.filter_map, List.map_map, List.filter_filter]
  simp only [Function.comp_def, List.map_id']
  apply List.filter_congr
  intro a _
  rw [Bool.decide_and, Bool.and_comm]

theorem brokerageAccounts_eq (h : SameForOwner y.owner d db₁ db₂) : brokerageAccounts db₁ y = brokerageAccounts db₂ y := by
  rw [brokerageAccounts, brokerageAccounts, brokerageAccounts_own, brokerageAccounts_own, h.accounts]
  apply orderBy_congr
  intro a ha
  rw [← h.accounts, ← brokerageAccounts_own, List.mem_filter] at ha
  rw [h.account_eq ha.1 (of_decide_eq_true ha.2).1]

theorem mem_brokerageAccounts {db : Db} {a : ℕ} (ha : a ∈ brokerageAccounts db y) :
    a ∈ db.accountIds ∧ (db.account a).owner = y.owner := by
  rw [brokerageAccounts, mem_orderBy, List.mem_filter] at ha
  exact ⟨ha.1, (of_decide_eq_true ha.2).1⟩

/-! ## Queries -/

theorem interestEntries_congr (h : SameForOwner y.owner y.endDate db₁ db₂) :
    interestEntries db₁ y = interestEntries db₂ y := by
  rw [interestEntries, interestEntries, filter_agree_of_imp h.entries]
  rintro e ⟨ho, -, -, hdate⟩
  exact ⟨ho, hdate.2⟩

theorem taxEntries_congr (h : SameForOwner y.owner y.endDate db₁ db₂) : taxEntries db₁ y = taxEntries db₂ y := by
  rw [taxEntries, taxEntries, filter_agree_of_imp h.entries]
  rintro e ⟨ho, -, -, hdate⟩
  exact ⟨ho, hdate.2⟩

/-- an own detail is stored in both databases -/
theorem SameForOwner.mem_investments (h : SameForOwner owner d db₁ db₂) {i : InvestmentTransaction}
    (hi : i ∈ ownInvestments db₁ owner d) : i ∈ db₁.investments ∧ i ∈ db₂.investments := by
  have hi' := hi
  rw [h.investments] at hi'
  exact ⟨(List.mem_filter.1 hi).1, (List.mem_filter.1 hi').1⟩

theorem dividends_congr (h : SameForOwner y.owner y.endDate db₁ db₂) (h₁ : References db₁) (h₂ : References db₂) :
    dividends db₁ y = dividends db₂ y := by
  have hown : ∀ (db : Db) (i : InvestmentTransaction), decide ((db.account i.account).owner = y.owner ∧
      i.transactionType = .dividend ∧ y.Contains i.tradeDate) = true →
      decide (((db.account i.account).owner = y.owner ∨ i.transaction.owner = y.owner) ∧ i.tradeDate ≤ y.endDate) =
        true := by
    intro db i hi
    obtain ⟨ho, -, hdate⟩ := of_decide_eq_true hi
    exact decide_eq_true ⟨.inl ho, hdate.2⟩
  rw [dividends, dividends, filter_agree h.investments (fun i _ => hown db₁ i) (fun i _ => hown db₂ i)]
  intro i hi
  obtain ⟨hi₁, hi₂⟩ := h.mem_investments hi
  rw [decide_eq_decide, h.owner_iff (h₁.account i hi₁) (h₂.account i hi₂)]

theorem unclassifiedIncome_congr (h : SameForOwner y.owner y.endDate db₁ db₂) :
    unclassifiedIncome db₁ y = unclassifiedIncome db₂ y := by
  rw [unclassifiedIncome, unclassifiedIncome, filter_agree_of_imp h.transactions]
  rintro t ⟨ho, hdate, -⟩
  exact ⟨ho, hdate.2⟩

/-- whether an own transaction has a detail -/
theorem hasInvestmentDetail_iff {db : Db} (hdb : References db) {t : Transaction} (ht : t ∈ ownTransactions db owner d) :
    db.hasInvestmentDetail t ↔ ∃ i ∈ ownInvestments db owner d, i.transaction = t := by
  obtain ⟨hmem, hown⟩ := List.mem_filter.1 ht
  obtain ⟨ho, hdate⟩ := of_decide_eq_true hown
  refine ⟨?_, ?_⟩
  · intro h
    obtain ⟨i, hi, hk⟩ := h
    obtain rfl := hdb.transaction i hi t hmem hk
    exact ⟨i, List.mem_filter.2 ⟨hi, decide_eq_true ⟨.inr ho, hdate⟩⟩, rfl⟩
  · intro h
    obtain ⟨i, hi, rfl⟩ := h
    exact ⟨i, (List.mem_filter.1 hi).1, rfl⟩

theorem genericDividends_congr (h : SameForOwner y.owner y.endDate db₁ db₂) (h₁ : References db₁) (h₂ : References db₂) :
    genericDividends db₁ y = genericDividends db₂ y := by
  have hown : ∀ (db : Db) (t : Transaction), decide (t.owner = y.owner ∧ y.Contains t.transactionDate ∧
      t.transactionType = .dividend ∧ ¬db.hasInvestmentDetail t) = true →
      decide (t.owner = y.owner ∧ t.transactionDate ≤ y.endDate) = true := by
    intro db t ht
    obtain ⟨ho, hdate, -⟩ := of_decide_eq_true ht
    exact decide_eq_true ⟨ho, hdate.2⟩
  rw [genericDividends, genericDividends, filter_agree h.transactions (fun t _ => hown db₁ t) (fun t _ => hown db₂ t)]
  intro t ht
  have ht₂ : t ∈ ownTransactions db₂ y.owner y.endDate := by
    rw [← h.transactions]
    exact ht
  rw [decide_eq_decide, hasInvestmentDetail_iff h₁ ht, hasInvestmentDetail_iff h₂ ht₂, h.investments]

theorem unclassified_congr (h : SameForOwner y.owner y.endDate db₁ db₂) (h₁ : References db₁) (h₂ : References db₂) :
    unclassified db₁ y = unclassified db₂ y := by
  rw [unclassified, unclassified, unclassifiedIncome_congr h, genericDividends_congr h h₁ h₂]

/-! ## Sales -/

theorem trades_congr (h : SameForOwner owner d db₁ db₂) {a : ℕ} (ha : a ∈ db₁.accountIds)
    (howner : (db₁.account a).owner = owner) : trades db₁ a (some d) = trades db₂ a (some d) := by
  have hrow := h.account_eq ha howner
  have hown : ∀ (db : Db), (db.account a).owner = owner → ∀ i : InvestmentTransaction,
      decide (i.account = a ∧ isTrade i ∧ onOrBefore (some d) i) = true →
      decide (((db.account i.account).owner = owner ∨ i.transaction.owner = owner) ∧ i.tradeDate ≤ d) = true := by
    intro db hdb i hi
    obtain ⟨rfl, -, hdate⟩ := of_decide_eq_true hi
    exact decide_eq_true ⟨.inl hdb, hdate d rfl⟩
  rw [trades, trades, filter_agree h.investments (fun i _ => hown db₁ howner i)
    (fun i _ => hown db₂ (hrow ▸ howner) i) fun _ _ => rfl]

theorem mem_trades_own {db : Db} {a : ℕ} (howner : (db.account a).owner = owner) {i : InvestmentTransaction}
    (hi : i ∈ trades db a (some d)) : i ∈ ownInvestments db owner d := by
  obtain ⟨hmem, rfl, -, hdate⟩ := mem_trades.1 hi
  exact List.mem_filter.2 ⟨hmem, decide_eq_true ⟨.inl howner, hdate d rfl⟩⟩

theorem calculateRealizedGainEvents_congr (h : SameForOwner owner d db₁ db₂) {a : ℕ} (ha : a ∈ db₁.accountIds)
    (howner : (db₁.account a).owner = owner) :
    calculateRealizedGainEvents db₁ a (some d) = calculateRealizedGainEvents db₂ a (some d) := by
  rw [calculateRealizedGainEvents, calculateRealizedGainEvents, ← trades_congr h ha howner]
  have hitems : ∀ i ∈ trades db₁ a (some d), ∀ s, gainItem db₁ a s i = gainItem db₂ a s i := by
    intro i hi s
    simp only [gainItem, h.account_eq ha howner, h.symbols i (mem_trades_own howner hi)]
  rw [foldlM_congr hitems]

/-! ## Conversions -/

theorem convert_congr (hfx : SameRates d fx₁ fx₂) {date : Date} (hdate : date ≤ d) (amount : ℚ) (currency : ℕ)
    (y : TaxYear) (reasons : List Message) :
    convert fx₁ amount currency y date reasons = convert fx₂ amount currency y date reasons := by
  rw [convert, convert, convertCurrency_congr hfx hdate]

theorem interestEntry_congr (hfx : SameRates d fx₁ fx₂) {e : TransactionEntry}
    (hdate : e.transaction.transactionDate ≤ d) (y : TaxYear) (s : Collected) :
    interestEntry fx₁ y s e = interestEntry fx₂ y s e := by
  rw [interestEntry, interestEntry, convert_congr hfx hdate]

theorem taxEntry_congr (hfx : SameRates d fx₁ fx₂) {e : TransactionEntry}
    (hdate : e.transaction.transactionDate ≤ d) (y : TaxYear) (s : Collected) :
    taxEntry fx₁ y s e = taxEntry fx₂ y s e := by
  rw [taxEntry, taxEntry, convert_congr hfx hdate]

theorem dividendItem_congr (hfx : SameRates d fx₁ fx₂) {i : InvestmentTransaction} (hdate : i.tradeDate ≤ d)
    (hrow : db₁.account i.account = db₂.account i.account) (y : TaxYear) (s : Collected) :
    dividendItem db₁ fx₁ y s i = dividendItem db₂ fx₂ y s i := by
  have hconvert : ∀ amount reasons,
      convertInvestment db₁ fx₁ amount i y reasons = convertInvestment db₂ fx₂ amount i y reasons := by
    intro amount reasons
    simp only [convertInvestment, convert_congr hfx hdate, hrow]
  simp only [dividendItem, hconvert]

theorem gainEvent_congr (hfx : SameRates d fx₁ fx₂) {event : RealizedGainEvent}
    (hdate : event.investmentTransaction.tradeDate ≤ d) (y : TaxYear) (currency : ℕ) (s : Collected) :
    gainEvent fx₁ y currency s event = gainEvent fx₂ y currency s event := by
  simp only [gainEvent, convert_congr hfx hdate]

/-! ## Stages -/

theorem brokerageAccount_congr (h : SameForOwner y.owner y.endDate db₁ db₂) (hfx : SameRates y.endDate fx₁ fx₂) {a : ℕ}
    (ha : a ∈ db₁.accountIds) (howner : (db₁.account a).owner = y.owner) (s : Collected) :
    brokerageAccount db₁ fx₁ y s a = brokerageAccount db₂ fx₂ y s a := by
  rw [brokerageAccount, brokerageAccount, ← calculateRealizedGainEvents_congr h ha howner, ← h.account_eq ha howner]
  cases hevents : calculateRealizedGainEvents db₁ a (some y.endDate) with
  | error e => cases e <;> rfl
  | ok events =>
    obtain ⟨earlier, later, hearlier, hsplit, hold, -⟩ := calculateRealizedGainEvents_split le_rfl hevents
    rw [hevents] at hearlier
    have hdates : ∀ e ∈ events, e.investmentTransaction.tradeDate ≤ y.endDate := fun e he =>
      hold e (Except.ok.inj hearlier ▸ he)
    exact congrArg Except.ok (List.foldl_ext _ _ _ fun s e he => gainEvent_congr hfx (hdates e he) y _ s)

theorem collectEvents_congr (h : SameForOwner y.owner y.endDate db₁ db₂) (hfx : SameRates y.endDate fx₁ fx₂)
    (h₁ : References db₁) (h₂ : References db₂) : collectEvents db₁ fx₁ y = collectEvents db₂ fx₂ y := by
  have hinterest : ∀ s, (interestEntries db₁ y).foldl (interestEntry fx₁ y) s =
      (interestEntries db₂ y).foldl (interestEntry fx₂ y) s := by
    intro s
    rw [← interestEntries_congr h]
    refine List.foldl_ext _ _ _ fun s e he => interestEntry_congr hfx ?_ y s
    rw [interestEntries, mem_orderBy, List.mem_filter] at he
    exact (of_decide_eq_true he.2).2.2.2.2
  have htax : ∀ s, (taxEntries db₁ y).foldl (taxEntry fx₁ y) s = (taxEntries db₂ y).foldl (taxEntry fx₂ y) s := by
    intro s
    rw [← taxEntries_congr h]
    refine List.foldl_ext _ _ _ fun s e he => taxEntry_congr hfx ?_ y s
    rw [taxEntries, mem_orderBy, List.mem_filter] at he
    exact (of_decide_eq_true he.2).2.2.2.2
  have hdividends : ∀ s, (dividends db₁ y).foldl (dividendItem db₁ fx₁ y) s =
      (dividends db₂ y).foldl (dividendItem db₂ fx₂ y) s := by
    intro s
    rw [← dividends_congr h h₁ h₂]
    apply List.foldl_ext _ _ _
    intro s i hi
    rw [dividends, mem_orderBy, List.mem_filter] at hi
    obtain ⟨hmem, hi⟩ := hi
    obtain ⟨howner, -, hdate⟩ := of_decide_eq_true hi
    exact dividendItem_congr hfx hdate.2 (h.account_eq (h₁.account i hmem) howner) y s
  have hsales : ∀ s, (brokerageAccounts db₁ y).foldlM (brokerageAccount db₁ fx₁ y) s =
      (brokerageAccounts db₂ y).foldlM (brokerageAccount db₂ fx₂ y) s := by
    intro s
    rw [← brokerageAccounts_eq h]
    refine foldlM_congr (fun a ha s => ?_) s
    obtain ⟨hmem, howner⟩ := mem_brokerageAccounts ha
    exact brokerageAccount_congr h hfx hmem howner s
  simp only [collectEvents, hinterest, hdividends, hsales, htax]

theorem collectManual_congr (hfx : SameRates y.endDate fx₁ fx₂) (hitems : SameItems y tables₁ tables₂)
    (hdated : ItemsDated y tables₁) (s : Collected) :
    collectManual fx₁ tables₁ y s = collectManual fx₂ tables₂ y s := by
  have hallowances : ∀ s, (activeAllowances tables₁ y).foldl (allowanceItem fx₁ y) s =
      (activeAllowances tables₂ y).foldl (allowanceItem fx₂ y) s := by
    intro s
    rw [activeAllowances, activeAllowances, hitems.allowances]
    apply List.foldl_ext _ _ _
    intro s i _
    rw [allowanceItem, allowanceItem, convert_congr hfx y.dates_valid]
  have hdeductions : ∀ s, (activeDeductions tables₁ y).foldl (deductionItem fx₁ y) s =
      (activeDeductions tables₂ y).foldl (deductionItem fx₂ y) s := by
    intro s
    have hsame : activeDeductions tables₂ y = activeDeductions tables₁ y := by
      rw [activeDeductions, activeDeductions, hitems.deductions]
    rw [hsame]
    apply List.foldl_ext _ _ _
    intro s i hi
    rw [deductionItem, deductionItem, convert_congr hfx (hdated.deductions i hi)]
  have hadjustments : ∀ s, (activeAdjustments tables₁ y).foldl (adjustmentItem fx₁ y) s =
      (activeAdjustments tables₂ y).foldl (adjustmentItem fx₂ y) s := by
    intro s
    have hsame : activeAdjustments tables₂ y = activeAdjustments tables₁ y := by
      rw [activeAdjustments, activeAdjustments, hitems.adjustments]
    rw [hsame]
    apply List.foldl_ext _ _ _
    intro s i hi
    simp only [adjustmentItem, convert_congr hfx (hdated.adjustments i hi)]
  simp only [collectManual, hallowances, hdeductions, hadjustments]

theorem collect_congr (h : SameForOwner y.owner y.endDate db₁ db₂) (hfx : SameRates y.endDate fx₁ fx₂)
    (hitems : SameItems y tables₁ tables₂) (hdated : ItemsDated y tables₁) (h₁ : References db₁) (h₂ : References db₂) :
    collect db₁ fx₁ tables₁ y = collect db₂ fx₂ tables₂ y := by
  rw [collect, collect, collectEvents_congr h hfx h₁ h₂]
  exact bind_congr fun s => by rw [collectManual_congr hfx hitems hdated]

theorem applyRules_congr (hitems : SameItems y tables₁ tables₂) (b : Breakdowns) :
    applyRules tables₁ y b = applyRules tables₂ y b := by
  have hrules : activeRules tables₁ y = activeRules tables₂ y := by rw [activeRules, activeRules, hitems.rules]
  rw [applyRules, applyRules, flatRateRules, flatRateRules, reductionRules, reductionRules, hrules]

theorem summarize_congr (h : SameForOwner y.owner y.endDate db₁ db₂) (h₁ : References db₁) (h₂ : References db₂)
    (s : Collected) (b : Breakdowns) : summarize db₁ y s b = summarize db₂ y s b := by
  simp only [summarize, reviewReasons, unclassified_congr h h₁ h₂]

/-- **Own data only.** The summary of a year is the same in two databases that hold the same records of its owner up to the
end of the year, with the same rates up to then, the same items of the year and any records of other users. -/
theorem summary_depends_on_own_data (h₁ : References db₁) (h₂ : References db₂)
    (h : SameForOwner y.owner y.endDate db₁ db₂) (hfx : SameRates y.endDate fx₁ fx₂)
    (hitems : SameItems y tables₁ tables₂) (hdated : ItemsDated y tables₁) :
    buildTaxYearSummary db₁ fx₁ tables₁ y = buildTaxYearSummary db₂ fx₂ tables₂ y := by
  rw [buildTaxYearSummary, buildTaxYearSummary, collect_congr h hfx hitems hdated h₁ h₂]
  apply bind_congr
  intro s
  rw [applyRules_congr hitems]
  exact bind_congr fun b => by rw [summarize_congr h h₁ h₂]

/-- interest, a purchase and a sale of the first user -/
def ownRecords : List Op :=
  [.createAccount 1 (plainForm .brokerage 1), .createDeposit 1 0 20 30 "Interest" .interest "",
    .createInvestmentTransaction (tradeAtTen .buy 10 10), .createInvestmentTransaction (tradeAtTen .sell 4 50)]

/-- records of a second user, and a deposit and a sale of the first user after the year -/
def otherRecords : List Op :=
  [.createAccount 2 (plainForm .brokerage 1), .createDeposit 2 1 20 30 "Interest" .interest "",
    .createDeposit 1 0 7 400 "Interest" .interest "", .createInvestmentTransaction (tradeAtTen .sell 4 500)]

/-- a rate after the year -/
def laterRate : ExchangeRate := ⟨400, 1, 3, 7 / 5, "", 0, by decide, by norm_num⟩

/-- an archived deduction of the year, and a deduction of another year -/
def otherDeductions : List TaxDeduction :=
  [⟨⟨1, 1, 1, false⟩, "Fees", .overall, 10, 1, 100, "", by decide +kernel⟩,
    ⟨⟨2, 1, 2, true⟩, "Fees", .overall, 10, 1, 100, "", by decide +kernel⟩]

theorem summary_depends_on_own_data_otherRecords :
    let db := run step (Db.init (fun _ => "EUR") fun _ => ⟨"ETF", 1, true⟩) ownRecords
    let db' := run step db otherRecords
    db.transactions.length = 3 ∧ db'.transactions.length = 6 ∧
      buildTaxYearSummary db ⟨[], 365⟩ noTables plainYear =
        buildTaxYearSummary db' ⟨[laterRate], 500⟩ ⟨otherDeductions, [], [], []⟩ plainYear := by
  intro db db'
  have hintegrity : Integrity db := run_integrity (init_integrity _ _) _
  have hown : SameForOwner plainYear.owner plainYear.endDate db db' :=
    ⟨by decide +kernel, by decide +kernel, by decide +kernel, by decide +kernel, by decide +kernel⟩
  refine ⟨by decide +kernel, by decide +kernel, ?_⟩
  exact summary_depends_on_own_data (references_of_integrity hintegrity)
    (references_of_integrity (run_integrity hintegrity _)) hown rfl
    ⟨by decide, rfl, rfl, rfl⟩ ⟨by decide, by decide⟩

end Vault67.Tax
