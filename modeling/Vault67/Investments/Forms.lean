/-
`investments/forms.py`: `InvestmentTransactionForm`, and `create_investment_transaction` with the data it has cleaned.

The products are those of the decimal context: `product` keeps 28 digits. `InContext` is `InvestmentTransaction.clean`,
`full_clean` and `create_investment_transaction` over any multiplication; with the exact one they are the definitions of
`Posting` (`createInvestmentTransaction_exact`).

A submission holds the value of each field as its field class parses it, none when it is blank. An invalid submission is
rejected with its errors and changes nothing; here it is an error, as an exception is. The initial choice of an account
plays no part in it.
-/
import Mathlib.Tactic
import Vault67.Investments.Posting
import Vault67.Ledger.Csv
import Vault67.Lib.Precision

namespace Vault67.Investments

open Fallible

/-- `x * y` in the default context -/
def product (x y : ℚ) : ℚ := Ledger.decimalContext.keep (x * y)

/-! ## Validation and posting over a multiplication -/

namespace InContext

open Ledger

variable (times : ℚ → ℚ → ℚ)

/-- `(quantity * price_per_unit).quantize(...)`, when both are given -/
def expectedGross (d : InvestmentDraft) : Except Error (Option ℚ) :=
  match d.quantity, d.pricePerUnit with
  | some q, some p => do
    let expected ← quantize (times q p)
    .ok (some expected)
  | _, _ => .ok none

def cleanQuantities (d : InvestmentDraft) : Except Error (List (Bool × String × Message)) :=
  if d.transactionType = .buy ∨ d.transactionType = .sell then do
    let expected ← expectedGross times d
    .ok [
      (decide (∀ q ∈ d.quantity, q ≤ 0), "quantity", .text "Quantity must be positive."),
      (decide (∀ p ∈ d.pricePerUnit, p < 0), "price_per_unit", .text "Price per unit must be non-negative."),
      (decide (∃ e ∈ expected, d.grossAmount ≠ e), "gross_amount", .grossMismatch (expected.getD 0))]
  else .ok [
    (decide (d.quantity ≠ none ∨ d.pricePerUnit ≠ none), "quantity",
      .text "Quantity and price are only used for buy and sell transactions.")]

def clean (db : Db) (d : InvestmentDraft) : Except Error Errors := do
  let quantities ← cleanQuantities times d
  .ok (errorsOf ([
    (decide ((db.account d.account).accountType ≠ .brokerage), "account",
      .text "Investment transactions require a brokerage account."),
    (decide (d.transaction.owner ≠ (db.account d.account).owner), "account",
      .text "Transaction and account owners must match."),
    (decide (¬(db.security d.security).active), "security", .text "Security must be active."),
    (decide ((db.security d.security).currency ≠ d.currency), "currency",
      .text "Transaction currency must match the security currency."),
    (decide (∃ s ∈ d.settlementDate, s < d.tradeDate), "settlement_date",
      .text "Settlement date cannot be before the trade date.")] ++ quantities ++ [
    (decide (d.currency ≠ (db.account d.account).currency ∧ d.exchangeRate = none), "exchange_rate",
      .text "An exchange rate is required when transaction and account currencies differ."),
    (decide (d.currency = (db.account d.account).currency ∧ d.exchangeRate ≠ none ∧ d.exchangeRate ≠ some 1),
      "exchange_rate", .text "Same-currency transactions must use an exchange rate of 1.")]))

def fullClean (db : Db) (d : InvestmentDraft) : Except Error InvestmentTransaction := do
  let own ← clean times db d
  let errors := cleanFields d ++ own
  if h : d.Constraints ∧ errors = [] then .ok ⟨d, h.1⟩ else .error (.validation (errors ++ constraintErrors d errors))

def createInvestmentTransaction (db : Db) (p : InvestmentPosting) : Except Error Db :=
  if (db.account p.account).owner ≠ p.owner then .error (.message (.text "Account does not belong to user."))
  else if (db.account p.account).accountType ≠ .brokerage then
    .error (.message (.text "Investment transactions require a brokerage account."))
  else if ¬supported p.transactionType then .error (.message (.text "Unsupported investment transaction type."))
  else do
    let name := title p.transactionType
    let symbol := (db.security p.security).symbol
    checkHolding db p
    let (t, db') ← createTransaction db p.owner p.tradeDate s!"{name} {symbol}" p.transactionType p.reference p.notes
    let detail ← fullClean times db' (p.draft t)
    let rate ← notNone (if p.currency = (db.account p.account).currency then some 1 else p.exchangeRate)
    let cashAmount ← quantize (times detail.netCashImpactNative rate)
    if cashAmount = 0 then .error (.message (.text "Net cash impact must not be zero."))
    else
      createEntry (db'.addInvestment detail) t p.account cashAmount
        (db.account p.account).currency (some rate) (some cashAmount) (TransactionType.value p.transactionType)

theorem fullClean_exact : fullClean (· * ·) = Investments.fullClean := by
  funext db d
  apply bind_congr
  intro own
  by_cases h : d.Constraints ∧ cleanFields d ++ own = []
  · have hc : cleanFields d ++ own = [] ∧ d.Constraints := h.symm
    rw [dif_pos h, dif_pos hc]
  · have hc : ¬(cleanFields d ++ own = [] ∧ d.Constraints) := fun hc => h hc.symm
    rw [dif_neg h, dif_neg hc]

theorem createInvestmentTransaction_exact :
    createInvestmentTransaction (· * ·) = Investments.createInvestmentTransaction := by
  unfold createInvestmentTransaction
  rw [fullClean_exact]
  rfl

end InContext

/-! ## `InvestmentTransactionForm` -/

/-- the transaction types of the URLs -/
inductive InvestmentOperation where
  | buy | sell | dividend | fee | tax
deriving DecidableEq, Repr

def InvestmentOperation.transactionType : InvestmentOperation → TransactionType
  | .buy => .buy
  | .sell => .sell
  | .dividend => .dividend
  | .fee => .fee
  | .tax => .tax

structure InvestmentData where
  account : Option ℕ
  security : Option ℕ
  tradeDate : Option Date
  settlementDate : Option Date
  quantity : Option ℚ
  pricePerUnit : Option ℚ
  grossAmount : Option ℚ
  fees : Option ℚ
  taxes : Option ℚ
  currency : Option ℕ
  exchangeRate : Option ℚ
  reference : String
  notes : String
deriving DecidableEq, Repr

/-- `InvestmentTransactionForm(data, user=user, transaction_type=...)` -/
structure InvestmentTransactionForm where
  user : ℕ
  operation : InvestmentOperation
  data : InvestmentData
deriving DecidableEq, Repr

namespace InvestmentTransactionForm

variable (db : Db) (f : InvestmentTransactionForm)

/-- a purchase or a sale -/
def Trades : Prop := f.operation = .buy ∨ f.operation = .sell

instance : Decidable f.Trades := inferInstanceAs (Decidable (_ ∨ _))

/-- the fields that are left after `__init__` -/
def fields : InvestmentData :=
  { f.data with
    quantity := if f.Trades then f.data.quantity else none
    pricePerUnit := if f.Trades then f.data.pricePerUnit else none
    grossAmount := if f.Trades then none else f.data.grossAmount
    settlementDate := if f.Trades then f.data.settlementDate else none }

/-- the user's active brokerage accounts -/
def accountChoice (i : ℕ) : Prop :=
  i ∈ db.accountIds ∧ (db.account i).owner = f.user ∧ (db.account i).active ∧ (db.account i).accountType = .brokerage

instance (i : ℕ) : Decidable (f.accountChoice db i) := inferInstanceAs (Decidable (_ ∧ _ ∧ _ ∧ _))

/-- a DecimalField with `min_value`, `max_digits` and `decimal_places` refuses the number -/
def badNumber (minValue : ℚ) (maxDigits decimalPlaces : ℕ) (x : ℚ) : Prop :=
  x < minValue ∨ ¬FitsDecimal maxDigits decimalPlaces x

instance (minValue : ℚ) (maxDigits decimalPlaces : ℕ) (x : ℚ) :
    Decidable (badNumber minValue maxDigits decimalPlaces x) :=
  inferInstanceAs (Decidable (_ ∨ _))

def badQuantity : ℚ → Prop := badNumber (1 / 10 ^ 8) 28 8
def badPrice : ℚ → Prop := badNumber 0 28 8
def badMoney : ℚ → Prop := badNumber 0 20 4
def badRate : ℚ → Prop := badNumber (1 / 10 ^ 12) 24 12

instance : DecidablePred badQuantity := fun x => inferInstanceAs (Decidable (badNumber _ _ _ x))
instance : DecidablePred badPrice := fun x => inferInstanceAs (Decidable (badNumber _ _ _ x))
instance : DecidablePred badMoney := fun x => inferInstanceAs (Decidable (badNumber _ _ _ x))
instance : DecidablePred badRate := fun x => inferInstanceAs (Decidable (badNumber _ _ _ x))

def fieldErrors : Errors :=
  raised [
    (decide (f.fields.account = none), "account", .text "This field is required."),
    (decide (∃ i ∈ f.fields.account, ¬f.accountChoice db i), "account",
      .text "Select a valid choice. That choice is not one of the available choices."),
    (decide (f.fields.security = none), "security", .text "This field is required."),
    (decide (∃ s ∈ f.fields.security, ¬(db.security s).active), "security",
      .text "Select a valid choice. That choice is not one of the available choices."),
    (decide (f.fields.tradeDate = none), "trade_date", .text "This field is required."),
    (decide (∃ q ∈ f.fields.quantity, badQuantity q), "quantity", .outOfBounds),
    (decide (∃ p ∈ f.fields.pricePerUnit, badPrice p), "price_per_unit", .outOfBounds),
    (decide (¬f.Trades ∧ f.fields.grossAmount = none), "gross_amount", .text "This field is required."),
    (decide (∃ x ∈ f.fields.grossAmount, badMoney x), "gross_amount", .outOfBounds),
    (decide (f.fields.fees = none), "fees", .text "This field is required."),
    (decide (∃ x ∈ f.fields.fees, badMoney x), "fees", .outOfBounds),
    (decide (f.fields.taxes = none), "taxes", .text "This field is required."),
    (decide (∃ x ∈ f.fields.taxes, badMoney x), "taxes", .outOfBounds),
    (decide (f.fields.currency = none), "currency", .text "This field is required."),
    (decide (∃ r ∈ f.fields.exchangeRate, badRate r), "exchange_rate", .outOfBounds),
    (decide (100 < f.fields.reference.length), "reference", .outOfBounds)]

/-- `cleaned_data` after the field checks -/
def cleanedFields : InvestmentData :=
  { f.fields with
    account := f.fields.account.filter fun i => f.accountChoice db i
    security := f.fields.security.filter fun s => (db.security s).active
    quantity := f.fields.quantity.filter fun q => ¬badQuantity q
    pricePerUnit := f.fields.pricePerUnit.filter fun p => ¬badPrice p
    grossAmount := f.fields.grossAmount.filter fun x => ¬badMoney x
    fees := f.fields.fees.filter fun x => ¬badMoney x
    taxes := f.fields.taxes.filter fun x => ¬badMoney x
    exchangeRate := f.fields.exchangeRate.filter fun r => ¬badRate r }

/-! ## `InvestmentTransactionForm.clean` -/

def cleanErrors : Errors :=
  let c := f.cleanedFields db
  raised [
    (decide (∃ a ∈ c.account, (db.account a).owner ≠ f.user), "account", .text "Select a valid brokerage account."),
    (decide (∃ s ∈ c.security, ∃ k ∈ c.currency, (db.security s).currency ≠ k), "currency",
      .text "Transaction currency must match the security currency."),
    (decide (∃ a ∈ c.account, ∃ k ∈ c.currency, (db.account a).currency ≠ k ∧ c.exchangeRate.getD 0 = 0),
      "exchange_rate", .text "An exchange rate is required for this foreign-currency transaction."),
    (decide (∃ a ∈ c.account, ∃ k ∈ c.currency,
        (db.account a).currency = k ∧ c.exchangeRate ≠ none ∧ c.exchangeRate ≠ some 1),
      "exchange_rate", .text "Same-currency transactions must use a rate of 1.")]

/-- `cleaned["gross_amount"]` -/
def cleanGross : Except Error (Option ℚ) :=
  let c := f.cleanedFields db
  if f.Trades then
    match c.quantity, c.pricePerUnit with
    | some q, some p => do
      let gross ← quantize (product q p)
      .ok (some gross)
    | _, _ => .ok c.grossAmount
  else .ok c.grossAmount

/-- the check of a sale against the holding; a ValidationError that `clean` raises is an error of the form -/
def holdingErrors : Except Error Errors :=
  let c := f.cleanedFields db
  if f.operation = .sell then
    match c.account, c.security, c.quantity with
    | some a, some s, some q =>
      match calculateHolding db a s c.tradeDate with
      | .ok holding => .ok (raised [
          (decide (holding.quantity < q), "quantity", .insufficientHoldings (some q) holding.quantity)])
      | .error (.validation es) => .ok es
      | .error e => .error e
    | _, _, _ => .ok []
  else .ok []

def cleanData : Except Error InvestmentData := do
  let gross ← f.cleanGross db
  let holding ← f.holdingErrors db
  let errors := f.fieldErrors db ++ f.cleanErrors db ++ holding
  if errors ≠ [] then .error (.validation errors) else .ok { f.cleanedFields db with grossAmount := gross }

end InvestmentTransactionForm

/-- the form is cleaned, and `create_investment_transaction` is called with `**cleaned_data`, which lacks an argument when
there is no gross amount -/
def cleanAndPost (db : Db) (f : InvestmentTransactionForm) : Except Error Db := do
  let c ← f.cleanData db
  let account ← notNone c.account
  let security ← notNone c.security
  let tradeDate ← notNone c.tradeDate
  let grossAmount ← notNone c.grossAmount
  let fees ← notNone c.fees
  let taxes ← notNone c.taxes
  let currency ← notNone c.currency
  InContext.createInvestmentTransaction product db {
    owner := f.user
    account := account
    security := security
    transactionType := f.operation.transactionType
    tradeDate := tradeDate
    grossAmount := grossAmount
    currency := currency
    quantity := c.quantity
    pricePerUnit := c.pricePerUnit
    fees := fees
    taxes := taxes
    settlementDate := c.settlementDate
    exchangeRate := c.exchangeRate
    reference := c.reference
    notes := c.notes }

end Vault67.Investments
