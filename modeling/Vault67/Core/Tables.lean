/-
The tables behind the ledger: accounts, securities, transactions, entries and investment details.

A row that is never changed after it was written (a transaction) is embedded in the rows that refer to it; a row that
can be edited (an account) is referred to by primary key. A check constraint of the database is a field of the row's
structure, so a row that violates it cannot be built. Currencies, users and securities are their primary keys.

- `TransactionEntry.amount_ne`: `entry_amount_nonzero`;
- `InvestmentDraft.Constraints`: the five constraints of `InvestmentTransaction`;
- `FixedTermDraft.Constraints`: `fixed_principal_gt_zero`, `fixed_rate_nonnegative`, `fixed_maturity_after_start`.
-/
import Mathlib.Tactic
import Vault67.Core.Errors

namespace Vault67

/-! ## Accounts -/

inductive AccountType where
  | checking | savings | fixedTerm | cash | brokerage | creditCard | loan | mortgage | crypto | other
deriving DecidableEq, Repr

structure FinancialAccount where
  owner : ℕ
  name : String
  accountType : AccountType
  currency : ℕ
  active : Bool
  savingsAnnualInterestRate : Option ℚ
deriving DecidableEq, Repr

inductive InterestMethod where
  | simple | compound
deriving DecidableEq, Repr

inductive CompoundingFrequency where
  | daily | monthly | quarterly | annually
deriving DecidableEq, Repr

inductive PaymentMethod where
  | atMaturity | monthly | quarterly | annually
deriving DecidableEq, Repr

inductive InterestDestination where
  | capitalized | paidOut
deriving DecidableEq, Repr

inductive MaturityInstruction where
  | returnToAccount | renewPrincipal | renewPrincipalAndInterest | undecided
deriving DecidableEq, Repr

/-- a `FixedTermDetails` instance that has not been saved; a blank choice is none -/
structure FixedTermDraft where
  principal : ℚ
  startDate : Date
  maturityDate : Date
  annualInterestRate : ℚ
  interestMethod : InterestMethod
  compoundingFrequency : Option CompoundingFrequency
  interestPaymentMethod : PaymentMethod
  interestDestination : InterestDestination
  interestDestinationAccount : Option ℕ
  earlyWithdrawalAllowed : Bool
  earlyWithdrawalPenaltyNotes : String
  maturityInstruction : MaturityInstruction
  maturityDestinationAccount : Option ℕ
deriving DecidableEq, Repr

structure FixedTermDraft.Constraints (d : FixedTermDraft) : Prop where
  principal_pos : 0 < d.principal
  rate_nonneg : 0 ≤ d.annualInterestRate
  maturity_after_start : d.startDate < d.maturityDate

instance (d : FixedTermDraft) : Decidable d.Constraints :=
  decidable_of_iff (0 < d.principal ∧ 0 ≤ d.annualInterestRate ∧ d.startDate < d.maturityDate)
    ⟨fun ⟨h1, h2, h3⟩ => ⟨h1, h2, h3⟩, fun ⟨h1, h2, h3⟩ => ⟨h1, h2, h3⟩⟩

/-- the contract terms of a fixed-term account -/
structure FixedTermDetails extends FixedTermDraft where
  constraints : toFixedTermDraft.Constraints
deriving DecidableEq, Repr

/-! ## The cash ledger -/

inductive TransactionType where
  | deposit | withdrawal | transfer | income | expense | interest | dividend | buy | sell | fee | tax | adjustment
deriving DecidableEq, Repr

structure Transaction where
  pk : ℕ
  owner : ℕ
  transactionDate : Date
  description : String
  transactionType : TransactionType
  reference : String
  notes : String
deriving DecidableEq, Repr

/-- a signed ledger entry: positive amounts increase the account's balance -/
structure TransactionEntry where
  pk : ℕ
  transaction : Transaction
  account : ℕ
  amount : ℚ
  currency : ℕ
  exchangeRate : Option ℚ
  baseCurrencyAmount : Option ℚ
  entryType : String
  amount_ne : amount ≠ 0
deriving DecidableEq, Repr

/-! ## Investments -/

structure Security where
  symbol : String
  currency : ℕ
  active : Bool
deriving DecidableEq, Repr

/-- an `InvestmentTransaction` instance that has not been saved -/
structure InvestmentDraft where
  transaction : Transaction
  account : ℕ
  security : ℕ
  settlementDate : Option Date
  quantity : Option ℚ
  pricePerUnit : Option ℚ
  grossAmount : ℚ
  fees : ℚ
  taxes : ℚ
  currency : ℕ
  exchangeRate : Option ℚ
deriving DecidableEq, Repr

structure InvestmentDraft.Constraints (d : InvestmentDraft) : Prop where
  quantity_pos : ∀ q ∈ d.quantity, 0 < q
  price_nonneg : ∀ p ∈ d.pricePerUnit, 0 ≤ p
  gross_nonneg : 0 ≤ d.grossAmount
  fees_nonneg : 0 ≤ d.fees
  taxes_nonneg : 0 ≤ d.taxes

instance (d : InvestmentDraft) : Decidable d.Constraints :=
  decidable_of_iff ((∀ q ∈ d.quantity, 0 < q) ∧ (∀ p ∈ d.pricePerUnit, 0 ≤ p) ∧ 0 ≤ d.grossAmount ∧ 0 ≤ d.fees ∧
      0 ≤ d.taxes)
    ⟨fun ⟨h1, h2, h3, h4, h5⟩ => ⟨h1, h2, h3, h4, h5⟩, fun ⟨h1, h2, h3, h4, h5⟩ => ⟨h1, h2, h3, h4, h5⟩⟩

/-- investment metadata attached to one ledger transaction -/
structure InvestmentTransaction extends InvestmentDraft where
  constraints : toInvestmentDraft.Constraints
deriving DecidableEq, Repr

def InvestmentDraft.transactionType (d : InvestmentDraft) : TransactionType := d.transaction.transactionType

def InvestmentDraft.tradeDate (d : InvestmentDraft) : Date := d.transaction.transactionDate

def InvestmentDraft.netCashImpactNative (d : InvestmentDraft) : ℚ :=
  match d.transactionType with
  | .buy => -(d.grossAmount + d.fees + d.taxes)
  | .sell => d.grossAmount - d.fees - d.taxes
  | .dividend => d.grossAmount - d.fees - d.taxes
  | _ => -d.grossAmount

/-! ## The database -/

/-- `account i` is the row with primary key i when i is in `accountIds` -/
structure Db where
  currencyCode : ℕ → String
  security : ℕ → Security
  account : ℕ → FinancialAccount
  accountIds : List ℕ
  fixedTerm : ℕ → Option FixedTermDetails
  transactions : List Transaction
  entries : List TransactionEntry
  investments : List InvestmentTransaction
  nextAccount : ℕ
  nextTransaction : ℕ
  nextEntry : ℕ

def FinancialAccount.none : FinancialAccount := ⟨0, "", .other, 0, false, Option.none⟩

/-- currencies and securities only -/
def Db.init (currencyCode : ℕ → String) (security : ℕ → Security) : Db :=
  ⟨currencyCode, security, fun _ => .none, [], fun _ => Option.none, [], [], [], 0, 0, 0⟩

def Db.addTransaction (db : Db) (t : Transaction) : Db :=
  { db with transactions := db.transactions ++ [t], nextTransaction := db.nextTransaction + 1 }

def Db.addEntry (db : Db) (e : TransactionEntry) : Db :=
  { db with entries := db.entries ++ [e], nextEntry := db.nextEntry + 1 }

def Db.addInvestment (db : Db) (i : InvestmentTransaction) : Db := { db with investments := db.investments ++ [i] }

/-- the database after a transaction, its entries and its investment detail, if it has one, were added -/
@[simps] def Db.post (db : Db) (t : Transaction) (es : List TransactionEntry) (is : List InvestmentTransaction) : Db :=
  { db with
    transactions := db.transactions ++ [t]
    entries := db.entries ++ es
    investments := db.investments ++ is
    nextTransaction := db.nextTransaction + 1
    nextEntry := db.nextEntry + es.length }

theorem Db.addEntry_addTransaction (db : Db) (t : Transaction) (e : TransactionEntry) :
    (db.addTransaction t).addEntry e = db.post t [e] [] := by
  simp [Db.addEntry, Db.addTransaction, Db.post]

theorem Db.addEntry_addEntry (db : Db) (t : Transaction) (e e' : TransactionEntry) :
    ((db.addTransaction t).addEntry e).addEntry e' = db.post t [e, e'] [] := by
  simp [Db.addEntry, Db.addTransaction, Db.post]

theorem Db.addEntry_addInvestment (db : Db) (t : Transaction) (e : TransactionEntry) (i : InvestmentTransaction) :
    ((db.addTransaction t).addInvestment i).addEntry e = db.post t [e] [i] := by
  simp [Db.addEntry, Db.addTransaction, Db.addInvestment, Db.post]

/-- `transaction.entries.all()` -/
def Db.entriesOf (db : Db) (t : Transaction) : List TransactionEntry :=
  db.entries.filter fun e => e.transaction.pk = t.pk

/-- `hasattr(transaction, "investment_detail")` -/
def Db.hasInvestmentDetail (db : Db) (t : Transaction) : Prop := ∃ i ∈ db.investments, i.transaction.pk = t.pk

instance (db : Db) (t : Transaction) : Decidable (db.hasInvestmentDetail t) :=
  inferInstanceAs (Decidable (∃ i ∈ db.investments, i.transaction.pk = t.pk))

end Vault67
