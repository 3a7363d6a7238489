/-
`InvestmentTransaction.clean` and `full_clean`, and `create_investment_transaction`.

`fullClean` turns a draft into an `InvestmentTransaction`: field validators, the model's own `clean`, then the check
constraints. `createInvestmentTransaction` posts the ledger transaction, the detail and the one cash entry, or raises.
-/
import Mathlib.Tactic
import Vault67.Ledger.Services
import Vault67.Investments.Holdings

namespace Vault67.Investments

open Ledger Fallible

/-! ## Validation -/

/-- field validators: (digits, places) of each decimal column, and the lower bound of the rate -/
def cleanFields (d : InvestmentDraft) : Errors :=
  errorsOf [
    (decide (∃ q ∈ d.quantity, ¬FitsDecimal 28 8 q), "quantity", .badDecimal 28 8),
    (decide (∃ p ∈ d.pricePerUnit, ¬FitsDecimal 28 8 p), "price_per_unit", .badDecimal 28 8),
    (decide (¬FitsDecimal 20 4 d.grossAmount), "gross_amount", .badDecimal 20 4),
    (decide (¬FitsDecimal 20 4 d.fees), "fees", .badDecimal 20 4),
    (decide (¬FitsDecimal 20 4 d.taxes), "taxes", .badDecimal 20 4),
    (decide (∃ r ∈ d.exchangeRate, r < 1 / 10 ^ 12), "exchange_rate", .outOfBounds),
    (decide (∃ r ∈ d.exchangeRate, ¬FitsDecimal 24 12 r), "exchange_rate", .badDecimal 24 12)]

/-- `(quantity * price_per_unit).quantize(...)`, when both are given -/
def expectedGross (d : InvestmentDraft) : Except Error (Option ℚ) :=
  match d.quantity, d.pricePerUnit with
  | some q, some p => do
    let expected ← quantize (q * p)
    .ok (some expected)
  | _, _ => .ok none

/-- the checks of `clean` that depend on the transaction type -/
def cleanQuantities (d : InvestmentDraft) : Except Error (List (Bool × String × Message)) :=
  if d.transactionType = .buy ∨ d.transactionType = .sell then do
    let expected ← expectedGross d
    .ok [
      (decide (∀ q ∈ d.quantity, q ≤ 0), "quantity", .text "Quantity must be positive."),
      (decide (∀ p ∈ d.pricePerUnit, p < 0), "price_per_unit", .text "Price per unit must be non-negative."),
      (decide (∃ e ∈ expected, d.grossAmount ≠ e), "gross_amount", .grossMismatch (expected.getD 0))]
  else .ok [
    (decide (d.quantity ≠ none ∨ d.pricePerUnit ≠ none), "quantity",
      .text "Quantity and price are only used for buy and sell transactions.")]

def clean (db : Db) (d : InvestmentDraft) : Except Error Errors := do
  let quantities ← cleanQuantities d
  .ok (errorsOf ([
    (decide ((db.account d.account).accountType ≠ .brokerage), "account",
      .text "Investment transactions require a brokerage account."),
    (decide (d.transaction.owner ≠ (db.account d.account).owner), "account",
      .text "Transaction and account owners must match."),
    (decide (¬(db.security d.security).active), "security", .text "Security must be active."),
    (decide ((db.security d.security).currency ≠ d.currency), "currency",
      .text "Transaction currency must match the security currency."),
    (decide (∃ s ∈ d.settlementDate, s < d.tradeDate), "settlement_date",
      .text "Settlement date cannot be before the trade date.")] ++ quantities ++ [
    (decide (d.currency ≠ (db.account d.account).currency ∧ d.exchangeRate = none), "exchange_rate",
      .text "An exchange rate is required when transaction and account currencies differ."),
    (decide (d.currency = (db.account d.account).currency ∧ d.exchangeRate ≠ none ∧ d.exchangeRate ≠ some 1),
      "exchange_rate", .text "Same-currency transactions must use an exchange rate of 1.")]))

/-- a constraint is not checked when its field is in error already -/
def constraintErrors (d : InvestmentDraft) (errors : Errors) : Errors :=
  raised [
    (decide ((∃ q ∈ d.quantity, q ≤ 0) ∧ ∀ e ∈ errors, e.1 ≠ "quantity"), nonField,
      .constraint "investment_quantity_positive"),
    (decide ((∃ p ∈ d.pricePerUnit, p < 0) ∧ ∀ e ∈ errors, e.1 ≠ "price_per_unit"), nonField,
      .constraint "investment_price_nonnegative"),
    (decide (d.grossAmount < 0 ∧ ∀ e ∈ errors, e.1 ≠ "gross_amount"), nonField,
      .constraint "investment_gross_nonnegative"),
    (decide (d.fees < 0 ∧ ∀ e ∈ errors, e.1 ≠ "fees"), nonField, .constraint "investment_fees_nonnegative"),
    (decide (d.taxes < 0 ∧ ∀ e ∈ errors, e.1 ≠ "taxes"), nonField, .constraint "investment_taxes_nonnegative")]

def fullClean (db : Db) (d : InvestmentDraft) : Except Error InvestmentTransaction := do
  let own ← clean db d
  let errors := cleanFields d ++ own
  if h : errors = [] ∧ d.Constraints then .ok ⟨d, h.2⟩ else .error (.validation (errors ++ constraintErrors d errors))

/-! ## Posting -/

/-- the arguments of `create_investment_transaction` -/
structure InvestmentPosting where
  owner : ℕ
  account : ℕ
  security : ℕ
  transactionType : TransactionType
  tradeDate : Date
  grossAmount : ℚ
  currency : ℕ
  quantity : Option ℚ := none
  pricePerUnit : Option ℚ := none
  fees : ℚ := 0
  taxes : ℚ := 0
  settlementDate : Option Date := none
  exchangeRate : Option ℚ := none
  reference : String := ""
  notes : String := ""
deriving DecidableEq, Repr

/-- q shares at 10 each, of security 0 on account 0 of user 1 -/
def tradeAtTen (type : TransactionType) (q : ℚ) (date : Date) : InvestmentPosting where
  owner := 1
  account := 0
  security := 0
  transactionType := type
  tradeDate := date
  grossAmount := 10 * q
  currency := 1
  quantity := some q
  pricePerUnit := some 10

/-- `transaction_type.title()` for the supported types -/
def title : TransactionType → String
  | .buy => "Buy"
  | .sell => "Sell"
  | .dividend => "Dividend"
  | .fee => "Fee"
  | .tax => "Tax"
  | t => TransactionType.value t

def supported (t : TransactionType) : Prop := t ∈ [TransactionType.buy, .sell, .dividend, .fee, .tax]

instance (t : TransactionType) : Decidable (supported t) := inferInstanceAs (Decidable (_ ∈ _))

/-- the holding check of a sale -/
def checkHolding (db : Db) (p : InvestmentPosting) : Except Error Unit :=
  if p.transactionType = .sell then do
    let held ← calculateHoldingQuantity db p.account p.security (some p.tradeDate)
    if ∀ q ∈ p.quantity, held < q then .error (.message (.insufficientHoldings p.quantity held)) else .ok ()
  else .ok ()

def InvestmentPosting.draft (p : InvestmentPosting) (t : Transaction) : InvestmentDraft where
  transaction := t
  account := p.account
  security := p.security
  settlementDate := p.settlementDate
  quantity := p.quantity
  pricePerUnit := p.pricePerUnit
  grossAmount := p.grossAmount
  fees := p.fees
  taxes := p.taxes
  currency := p.currency
  exchangeRate := p.exchangeRate

def createInvestmentTransaction (db : Db) (p : InvestmentPosting) : Except Error Db :=
  if (db.account p.account).owner ≠ p.owner then .error (.message (.text "Account does not belong to user."))
  else if (db.account p.account).accountType ≠ .brokerage then
    .error (.message (.text "Investment transactions require a brokerage account."))
  else if ¬supported p.transactionType then .error (.message (.text "Unsupported investment transaction type."))
  else do
    let name := title p.transactionType
    let symbol := (db.security p.security).symbol
    checkHolding db p
    let (t, db') ← createTransaction db p.owner p.tradeDate s!"{name} {symbol}" p.transactionType p.reference p.notes
    let detail ← fullClean db' (p.draft t)
    let rate ← notNone (if p.currency = (db.account p.account).currency then some 1 else p.exchangeRate)
    let cashAmount ← quantize (detail.netCashImpactNative * rate)
    if cashAmount = 0 then .error (.message (.text "Net cash impact must not be zero."))
    else
      createEntry (db'.addInvestment detail) t p.account cashAmount
        (db.account p.account).currency (some rate) (some cashAmount) (TransactionType.value p.transactionType)

/-! ## What an accepted posting has written -/

/-- the detail i and the cash entry e, in terms of the database they were added to -/
structure Posted (db : Db) (i : InvestmentTransaction) (e : TransactionEntry) : Prop where
  pk : i.transaction.pk = db.nextTransaction
  account_mem : i.account ∈ db.accountIds
  account_owner : (db.account i.account).owner = i.transaction.owner
  account_type : (db.account i.account).accountType = .brokerage
  supported : supported i.transactionType
  trade_quantity : isTrade i → ∃ q, i.quantity = some q ∧ 0 < q
  amounts : HasPlaces 4 i.grossAmount ∧ HasPlaces 4 i.fees ∧ HasPlaces 4 i.taxes
  /-- a sale is covered by the holding as of its own date -/
  holding : i.transactionType = .sell → ∃ held,
    calculateHoldingQuantity db i.account i.security (some i.tradeDate) = .ok held ∧ ∃ q ∈ i.quantity, q ≤ held
  cash : ∃ rate, rateToAccount db i = some rate ∧ quantize (i.netCashImpactNative * rate) = .ok e.amount
  entry_pk : e.pk = db.nextEntry
  entry_transaction : e.transaction = i.transaction
  entry_account : e.account = i.account
  entry_currency : e.currency = (db.account i.account).currency
  entry_rate : e.exchangeRate = rateToAccount db i

theorem Posted.rate_ne_none {db : Db} {i : InvestmentTransaction} {e : TransactionEntry} (h : Posted db i e)
    (hc : i.currency ≠ (db.account i.account).currency) : i.exchangeRate ≠ none := by
  obtain ⟨rate, hr, -⟩ := h.cash
  rw [rateToAccount, if_neg hc] at hr
  simp [hr]

theorem checkHolding_ok {db : Db} {p : InvestmentPosting} (h : checkHolding db p = .ok ()) :
    p.transactionType = .sell → ∃ held,
      calculateHoldingQuantity db p.account p.security (some p.tradeDate) = .ok held ∧ ∃ q ∈ p.quantity, q ≤ held := by
  intro hsell
  rw [checkHolding, if_pos hsell] at h
  obtain ⟨held, hheld, h⟩ := bind_eq_ok.1 h
  obtain ⟨hq, -⟩ := ite_error_eq_ok.1 h
  push Not at hq
  exact ⟨held, hheld, hq⟩

theorem errorsOf_mem_eq_nil {checks : List (Bool × String × Message)} (h : errorsOf checks = []) {p : Prop} [Decidable p]
    (field : String) (m : Message) (hm : (decide p, field, m) ∈ checks) : ¬p := by
  simpa using errorsOf_eq_nil.1 h _ hm

theorem clean_quantity {db : Db} {d : InvestmentDraft} (h : clean db d = .ok [])
    (hd : d.transactionType = .buy ∨ d.transactionType = .sell) : ∃ q, d.quantity = some q ∧ 0 < q := by
  obtain ⟨checks, hc, h⟩ := bind_eq_ok.1 h
  rw [cleanQuantities, if_pos hd] at hc
  obtain ⟨expected, -, hc⟩ := bind_eq_ok.1 hc
  cases hc
  have hq := errorsOf_mem_eq_nil (Except.ok.inj h) (p := ∀ q ∈ d.quantity, q ≤ 0) "quantity"
    (.text "Quantity must be positive.") (by simp)
  push Not at hq
  exact hq

theorem fullClean_ok {db : Db} {d : InvestmentDraft} {i : InvestmentTransaction} (h : fullClean db d = .ok i) :
    i.toInvestmentDraft = d ∧ cleanFields d = [] ∧ clean db d = .ok [] := by
  obtain ⟨own, ho, h⟩ := bind_eq_ok.1 h
  dsimp only at h
  split_ifs at h with hc
  cases h
  obtain ⟨hfields, hown⟩ := List.append_eq_nil_iff.1 hc.1
  exact ⟨rfl, hfields, by rw [ho, hown]⟩

/-- the amounts of a clean detail have at most 4 decimals -/
theorem cleanFields_amounts {d : InvestmentDraft} (h : cleanFields d = []) :
    HasPlaces 4 d.grossAmount ∧ HasPlaces 4 d.fees ∧ HasPlaces 4 d.taxes := by
  have hgross := errorsOf_mem_eq_nil h (p := ¬FitsDecimal 20 4 d.grossAmount) "gross_amount" (.badDecimal 20 4) (by simp)
  have hfees := errorsOf_mem_eq_nil h (p := ¬FitsDecimal 20 4 d.fees) "fees" (.badDecimal 20 4) (by simp)
  have htaxes := errorsOf_mem_eq_nil h (p := ¬FitsDecimal 20 4 d.taxes) "taxes" (.badDecimal 20 4) (by simp)
  exact ⟨(not_not.1 hgross).1, (not_not.1 hfees).1, (not_not.1 htaxes).1⟩

/-- **What an accepted posting wrote.** One transaction with one detail, made of the arguments, and with one cash entry,
under the next numbers. -/
theorem createInvestmentTransaction_ok {db db' : Db} {p : InvestmentPosting}
    (h : createInvestmentTransaction db p = .ok db') :
    ∃ i e, Posted db i e ∧ i.toInvestmentDraft = p.draft i.transaction ∧ i.transactionType = p.transactionType ∧
      i.tradeDate = p.tradeDate ∧ db' = db.post i.transaction [e] [i] := by
  simp only [createInvestmentTransaction, ite_error_eq_ok, bind_eq_ok, not_not] at h
  obtain ⟨howner, hbrokerage, hsupported, ⟨⟩, hhold, ⟨t, db₁⟩, ht, i, hi, rate, hrate, cash, hcash, -, he⟩ := h
  obtain ⟨hpk, hto, htd, htt, rfl⟩ := createTransaction_ok ht
  dsimp only at hi he
  obtain ⟨e, hacc, hepk, het, hea, hstore, hecur, herate, rfl⟩ := createEntry_ok he
  obtain ⟨hdraft, hfields, hclean⟩ := fullClean_ok hi
  have hit : i.transaction = t := congrArg InvestmentDraft.transaction hdraft
  have hia : i.account = p.account := congrArg InvestmentDraft.account hdraft
  have htype : i.transactionType = p.transactionType := by
    rw [InvestmentDraft.transactionType, hit, htt]
  have hdate : i.tradeDate = p.tradeDate := by
    rw [InvestmentDraft.tradeDate, hit, htd]
  have hamount : e.amount = cash := storeMoney_exact hstore (quantize_places hcash)
  have hrateAt : rateToAccount db i = some rate := by
    rw [rateToAccount, hia, show i.currency = p.currency from congrArg InvestmentDraft.currency hdraft,
      show i.exchangeRate = p.exchangeRate from congrArg InvestmentDraft.exchangeRate hdraft]
    exact notNone_eq_ok.1 hrate
  refine ⟨i, e, ?_, by rw [hit, hdraft], htype, hdate, by rw [hit, Db.addEntry_addInvestment]⟩
  constructor
  case pk => rw [hit, hpk]
  case account_mem => rw [hia]; exact hacc
  case account_owner => rw [hia, hit, hto, howner]
  case account_type => rw [hia]; exact hbrokerage
  case supported => rw [htype]; exact hsupported
  case trade_quantity =>
    intro htrade
    rw [show i.quantity = (p.draft t).quantity from congrArg InvestmentDraft.quantity hdraft]
    refine clean_quantity hclean ?_
    rw [← hdraft]
    exact htrade
  case amounts => exact hdraft ▸ cleanFields_amounts hfields
  case holding =>
    rw [htype, hia, hdate, show i.security = p.security from congrArg InvestmentDraft.security hdraft,
      show i.quantity = p.quantity from congrArg InvestmentDraft.quantity hdraft]
    exact checkHolding_ok hhold
  case cash => exact ⟨rate, hrateAt, by rw [hamount]; exact hcash⟩
  case entry_pk => exact hepk
  case entry_transaction => rw [het, hit]
  case entry_account => rw [hea, hia]
  case entry_currency => rw [hecur, hia]
  case entry_rate => rw [herate, hrateAt]

end Vault67.Investments
