/-
A valuation never looks ahead.

The value of an account as of a date depends on what is dated on or before that date only. Four queries read dated rows:
trades, cash entries, prices, and rates in both directions.

- `calculateHoldings_congr`, `accountBalance_congr`, `getLatestPrice_congr`, `valueHolding_congr`: the parts.
- `run_later`: requests dated after a day leave everything dated on or before it.
- `valuation_never_looks_ahead`: the whole valuation.
-/
import Mathlib.Tactic
import Vault67.Investments.PortfolioTotals
import Vault67.Lib.Rows

namespace Vault67.Investments

open Accounts Fallible Ledger Machine OrderBy Rows

/-- the databases agree on the trades and the cash up to the day, on the account's currency and on the securities -/
structure SameUpTo (d : Date) (account : ℕ) (db₁ db₂ : Db) : Prop where
  investments : (db₁.investments.filter fun i => i.tradeDate ≤ d) = db₂.investments.filter fun i => i.tradeDate ≤ d
  entries : (db₁.entries.filter fun e => e.transaction.transactionDate ≤ d) =
    db₂.entries.filter fun e => e.transaction.transactionDate ≤ d
  currency : (db₁.account account).currency = (db₂.account account).currency
  security : ∀ s, db₁.security s = db₂.security s

/-- the markets agree on the prices up to the day, and on the types of the securities -/
structure SamePrices (d : Date) (market₁ market₂ : Market) : Prop where
  prices : (market₁.prices.filter fun p => p.date ≤ d) = market₂.prices.filter fun p => p.date ≤ d
  securityType : ∀ s, market₁.securityType s = market₂.securityType s

variable {d : Date} {account : ℕ} {db₁ db₂ : Db} {fx₁ fx₂ : Fx} {market₁ market₂ : Market}

/-! ## Trades -/

theorem transactions_congr (h : SameUpTo d account db₁ db₂) (security : Option ℕ) :
    transactions db₁ account security (some d) = transactions db₂ account security (some d) := by
  rw [transactions, transactions, filter_agree_of_imp h.investments]
  rintro i ⟨-, -, hdate⟩
  exact hdate d rfl

theorem replayItem_congr (h : SameUpTo d account db₁ db₂) {i : InvestmentTransaction} (hi : i.account = account)
    (symbol : String) (s : Replay) : replayItem db₁ symbol s i = replayItem db₂ symbol s i := by
  have hrate : rateToAccount db₁ i = rateToAccount db₂ i := by
    rw [rateToAccount, rateToAccount, hi, h.currency]
  rw [replayItem, replayItem, hrate]

theorem calculateFromItems_congr (h : SameUpTo d account db₁ db₂) (security : ℕ) {items : List InvestmentTransaction}
    (hitems : ∀ i ∈ items, i.account = account) :
    calculateFromItems db₁ security items = calculateFromItems db₂ security items := by
  rw [calculateFromItems, calculateFromItems, replay, replay, h.security,
    foldlM_congr fun i hi s => replayItem_congr h (hitems i hi) _ s]
  apply bind_congr
  intro s
  rw [snapshot, snapshot, h.security]

theorem calculateHoldings_congr (h : SameUpTo d account db₁ db₂) (includeClosed : Bool) :
    calculateHoldings db₁ account (some d) includeClosed = calculateHoldings db₂ account (some d) includeClosed := by
  have hitems : ∀ i ∈ transactions db₂ account none (some d), i.account = account := by
    intro i hi
    rw [transactions, mem_orderBy, List.mem_filter] at hi
    exact (of_decide_eq_true hi.2).1
  have hgroup : ∀ s, calculateFromItems db₁ s
      ((transactions db₂ account none (some d)).filter fun i => i.security = s) =
        calculateFromItems db₂ s ((transactions db₂ account none (some d)).filter fun i => i.security = s) :=
    fun s => calculateFromItems_congr h s fun i hi => hitems i (List.mem_filter.1 hi).1
  simp only [calculateHoldings, transactions_congr h, h.security, hgroup]

/-! ## Cash, prices and rates -/

theorem accountBalance_congr (h : SameUpTo d account db₁ db₂) :
    accountBalance db₁ account (some d) = accountBalance db₂ account (some d) := by
  rw [accountBalance, accountBalance, filter_agree_of_imp h.entries]
  rintro e ⟨-, hdate⟩
  exact hdate d rfl

theorem getLatestPrice_congr (h : SamePrices d market₁ market₂) (today₁ today₂ : Date) (security : ℕ) :
    getLatestPrice market₁ today₁ security (some d) = getLatestPrice market₂ today₂ security (some d) := by
  rw [getLatestPrice, getLatestPrice, Option.getD_some, Option.getD_some, filter_agree_of_imp h.prices]
  rintro p ⟨-, hdate⟩
  exact hdate

variable {reportingCurrency : ℕ}

theorem valueHolding_congr (h : SameUpTo d account db₁ db₂) (hfx : SameRates d fx₁ fx₂)
    (hmarket : SamePrices d market₁ market₂) (s : Totals) (holding : HoldingSnapshot) :
    valueHolding db₁ fx₁ market₁ account (some d) reportingCurrency s holding =
      valueHolding db₂ fx₂ market₂ account (some d) reportingCurrency s holding := by
  simp only [valueHolding, convertHolding, getLatestPrice_congr hmarket fx₁.today fx₂.today, h.security, h.currency,
    convertCurrency_congr hfx le_rfl]

theorem convertAccount_congr (h : SameUpTo d account db₁ db₂) (hfx : SameRates d fx₁ fx₂) (cash cost realized : ℚ) :
    convertAccount db₁ fx₁ account (some d) reportingCurrency cash cost realized =
      convertAccount db₂ fx₂ account (some d) reportingCurrency cash cost realized := by
  simp only [convertAccount, h.currency, convertCurrency_congr hfx le_rfl]

theorem portfolioOf_congr (hmarket : SamePrices d market₁ market₂) (s : Totals)
    (converted : Except MissingExchangeRate (ℚ × ℚ × ℚ)) :
    portfolioOf market₁ account reportingCurrency s converted =
      portfolioOf market₂ account reportingCurrency s converted := by
  have hcategory : ∀ values row, addCategory market₁ values row = addCategory market₂ values row := fun values row => by
    rw [addCategory, addCategory, hmarket.securityType]
  have hvalues : ∀ complete rows cash,
      allocationValues market₁ complete rows cash = allocationValues market₂ complete rows cash := by
    intro complete rows cash
    simp only [allocationValues, foldlM_congr fun row _ values => hcategory values row]
  simp only [portfolioOf, hvalues]

/-- two databases that agree up to a day give the account the same value on that day, or fail in the same way -/
theorem calculatePortfolioValue_congr (h : SameUpTo d account db₁ db₂) (hfx : SameRates d fx₁ fx₂)
    (hmarket : SamePrices d market₁ market₂) (reporting : Option ℕ) :
    calculatePortfolioValue db₁ fx₁ market₁ account (some d) reporting =
      calculatePortfolioValue db₂ fx₂ market₂ account (some d) reporting := by
  simp only [calculatePortfolioValue, calculatePortfolioValueIn, calculateHoldings_congr h, accountBalance_congr h,
    h.currency]
  apply bind_congr
  intro all
  rw [List.foldl_ext _ _ _ fun s holding _ => valueHolding_congr h hfx hmarket s holding, convertAccount_congr h hfx,
    portfolioOf_congr hmarket]

/-! ## Later requests -/

/-- the request adds records dated after the day -/
def Op.After (d : Date) : Op → Prop
  | .createDeposit _ _ _ date _ _ _ => d < date
  | .createWithdrawal _ _ _ date _ _ _ => d < date
  | .createTransfer _ _ _ _ date _ _ => d < date
  | .importTransactions _ _ rows => ∀ row ∈ rows, d < row.transactionDate
  | .createInvestmentTransaction p => d < p.tradeDate
  | _ => False

theorem SameUpTo.refl (d : Date) (account : ℕ) (db : Db) : SameUpTo d account db db := ⟨rfl, rfl, rfl, fun _ => rfl⟩

theorem SameUpTo.trans {db₃ : Db} (h : SameUpTo d account db₁ db₂) (h' : SameUpTo d account db₂ db₃) :
    SameUpTo d account db₁ db₃ :=
  ⟨h.investments.trans h'.investments, h.entries.trans h'.entries, h.currency.trans h'.currency,
    fun s => (h.security s).trans (h'.security s)⟩

variable {db db' : Db}

theorem sameUpTo_post {t : Transaction} {es : List TransactionEntry} {is : List InvestmentTransaction}
    (ht : d < t.transactionDate) (hes : ∀ e ∈ es, e.transaction = t) (his : ∀ i ∈ is, i.transaction = t) :
    SameUpTo d account db (db.post t es is) := by
  have hnone : is.filter (fun i => decide (i.tradeDate ≤ d)) = [] := by
    apply List.filter_eq_nil_iff.2
    intro i hi hd
    have hle : i.tradeDate ≤ d := of_decide_eq_true hd
    rw [InvestmentDraft.tradeDate, his i hi] at hle
    exact absurd hle (not_le.2 ht)
  have hno_entry : es.filter (fun e => decide (e.transaction.transactionDate ≤ d)) = [] := by
    apply List.filter_eq_nil_iff.2
    intro e he hd
    have hle : e.transaction.transactionDate ≤ d := of_decide_eq_true hd
    rw [hes e he] at hle
    exact absurd hle (not_le.2 ht)
  refine ⟨?_, ?_, rfl, fun _ => rfl⟩
  · rw [Db.post_investments, List.filter_append, hnone, List.append_nil]
  · rw [Db.post_entries, List.filter_append, hno_entry, List.append_nil]

theorem create_later {owner a : ℕ} {amount : ℚ} {type : TransactionType} {date : Date}
    {description notes reference : String} (hdate : d < date)
    (h : create db owner a amount type date description notes reference = .ok db') : SameUpTo d account db db' := by
  simp only [create, ite_error_eq_ok, bind_eq_ok] at h
  obtain ⟨-, -, ⟨t, db₁⟩, ht, he⟩ := h
  obtain ⟨-, -, htd, -, rfl⟩ := createTransaction_ok ht
  obtain ⟨e, -, -, het, -, -, -, -, rfl⟩ := createEntry_ok he
  rw [Db.addEntry_addTransaction]
  exact sameUpTo_post (htd ▸ hdate) (by simpa using het) (by simp)

theorem createTransfer_later {owner source destination : ℕ} {amount : ℚ} {date : Date} {description notes : String}
    (hdate : d < date) (h : createTransfer db owner source destination amount date description notes = .ok db') :
    SameUpTo d account db db' := by
  simp only [createTransfer, ite_error_eq_ok, bind_eq_ok] at h
  obtain ⟨-, -, -, -, ⟨t, db₁⟩, ht, db₂, hs, hd⟩ := h
  obtain ⟨-, -, htd, -, rfl⟩ := createTransaction_ok ht
  obtain ⟨e, -, -, het, -, -, -, -, rfl⟩ := createEntry_ok hs
  obtain ⟨e', -, -, het', -, -, -, -, rfl⟩ := createEntry_ok hd
  rw [Db.addEntry_addEntry]
  exact sameUpTo_post (htd ▸ hdate) (by simpa using ⟨het, het'⟩) (by simp)

theorem step_later {op : Op} (hop : Op.After d op) (h : step db op = .ok db') : SameUpTo d account db db' := by
  cases op with
  | createDeposit owner a amount date description type notes => exact create_later hop h
  | createWithdrawal owner a amount date description type notes =>
    simp only [step, createWithdrawal] at h
    split_ifs at h
    exact create_later hop h
  | createTransfer owner source destination amount date description notes => exact createTransfer_later hop h
  | importTransactions owner a rows =>
    obtain ⟨⟨n, db₁⟩, himport, h⟩ := bind_eq_ok.1 h
    cases h
    simp only [importTransactions, ite_error_eq_ok, bind_eq_ok, Except.ok.injEq, Prod.mk.injEq] at himport
    obtain ⟨-, -, db₂, hrows, -, rfl⟩ := himport
    exact foldlM_inv (I := SameUpTo d account db)
      (fun _ _ row hrow hI hstep => hI.trans (create_later (hop row hrow) hstep)) (SameUpTo.refl d account db) hrows
  | createInvestmentTransaction p =>
    obtain ⟨i, e, hp, -, -, hdate, rfl⟩ := createInvestmentTransaction_ok h
    have hlater : d < i.transaction.transactionDate := lt_of_lt_of_eq hop hdate.symm
    exact sameUpTo_post hlater (by simpa using hp.entry_transaction) (by simp)
  | _ => exact absurd hop id

/-- **Later requests.** Whatever is requested with dates after the day, accepted or refused, leaves everything dated on
or before the day as it was. -/
theorem run_later {ops : List Op} (hops : ∀ op ∈ ops, Op.After d op) : SameUpTo d account db (run step db ops) :=
  run_inv (I := SameUpTo d account db) (Op.After d) (fun _ _ _ hI hop hs => hI.trans (step_later hop hs)) hops
    (SameUpTo.refl d account db)

/-- **No lookahead.** Databases, markets and rates that agree up to a day give the account the same value on that day,
or fail in the same way; in particular after any requests dated after that day. -/
theorem valuation_never_looks_ahead (account : ℕ) (reporting : Option ℕ) (hfx : SameRates d fx₁ fx₂)
    (hmarket : SamePrices d market₁ market₂) :
    (∀ db₁ db₂, SameUpTo d account db₁ db₂ →
      calculatePortfolioValue db₁ fx₁ market₁ account (some d) reporting =
        calculatePortfolioValue db₂ fx₂ market₂ account (some d) reporting) ∧
    ∀ db ops, (∀ op ∈ ops, Op.After d op) →
      calculatePortfolioValue db fx₁ market₁ account (some d) reporting =
        calculatePortfolioValue (run step db ops) fx₂ market₂ account (some d) reporting := by
  refine ⟨?_, ?_⟩
  · intro db₁ db₂ h
    exact calculatePortfolioValue_congr h hfx hmarket reporting
  · intro db ops hops
    exact calculatePortfolioValue_congr (run_later hops) hfx hmarket reporting

/-- after day 32: a sale, a deposit, another price and another rate -/
def laterRecords : List Op :=
  [.createInvestmentTransaction { tradeAtTen .sell 40 33 with currency := 2, exchangeRate := some (1 / 2) },
    .createDeposit 1 0 7 40 "Bonus" .income ""]

def laterPrice : Market := ⟨sharePrice.prices ++ [⟨0, 33, 99, 2, "MANUAL", 1⟩], fun _ => .stock⟩

def laterDollarRate : Fx := ⟨dollarRate.rates ++ [dollarsOn 33 (9 / 8) (by norm_num)], 50⟩

theorem valuation_never_looks_ahead_laterRecords :
    let db := run step (Db.init (fun _ => "EUR") fun _ => ⟨"ACME", 2, true⟩) foreignShares
    (run step db laterRecords).transactions.length = 4 ∧
      calculatePortfolioValue db dollarRate sharePrice 0 (some 32) none =
        calculatePortfolioValue (run step db laterRecords) laterDollarRate laterPrice 0 (some 32) none := by
  intro db
  have hfx : SameRates 32 dollarRate laterDollarRate := rfl
  have hmarket : SamePrices 32 sharePrice laterPrice := ⟨rfl, fun _ => rfl⟩
  have hops : ∀ op ∈ laterRecords, Op.After 32 op := by
    intro op hop
    simp only [laterRecords, List.mem_cons, List.not_mem_nil, or_false] at hop
    rcases hop with rfl | rfl
    · exact Nat.lt_succ_self 32
    · exact show 32 < 40 by decide
  exact ⟨by decide +kernel, (valuation_never_looks_ahead 0 none hfx hmarket).2 db laterRecords hops⟩

end Vault67.Investments
