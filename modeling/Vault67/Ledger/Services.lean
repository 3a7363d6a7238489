/-
`ledger/services.py`: deposits, withdrawals, transfers, balances and deletions.

A service takes the primary keys of the model instances it is called with and reads their rows. `Transaction` and
`TransactionEntry` rows are written by `createTransaction` and `createEntry`; a service that raises after the first
write returns no state at all, as its `atomic` block is rolled back.
-/
import Mathlib.Tactic
import Vault67.Core.Money
import Vault67.Core.Tables
import Vault67.Lib.Fallible

namespace Vault67.Ledger

open Fallible

/-- `Transaction.objects.create` -/
def createTransaction (db : Db) (owner : ℕ) (date : Date) (description : String) (transactionType : TransactionType)
    (reference notes : String) : Except Error (Transaction × Db) := do
  let description ← storeText 255 description
  let reference ← storeText 100 reference
  let t : Transaction := ⟨db.nextTransaction, owner, date, description, transactionType, reference, notes⟩
  .ok (t, db.addTransaction t)

/-- `TransactionEntry.objects.create`: the amount is what the numeric(20, 4) column keeps of it, the account must exist
and the stored amount must not be zero -/
def createEntry (db : Db) (t : Transaction) (account : ℕ) (amount : ℚ) (currency : ℕ)
    (exchangeRate baseCurrencyAmount : Option ℚ) (entryType : String) : Except Error Db := do
  let stored ← storeMoney amount
  if h : account ∈ db.accountIds ∧ stored ≠ 0 then
    .ok (db.addEntry
      ⟨db.nextEntry, t, account, stored, currency, exchangeRate, baseCurrencyAmount, entryType, h.2⟩)
  else .error .database

theorem createTransaction_ok {db db' : Db} {owner : ℕ} {date : Date} {description reference notes : String}
    {type : TransactionType} {t : Transaction}
    (h : createTransaction db owner date description type reference notes = .ok (t, db')) :
    t.pk = db.nextTransaction ∧ t.owner = owner ∧ t.transactionDate = date ∧ t.transactionType = type ∧
      db' = db.addTransaction t := by
  simp only [createTransaction, bind_eq_ok, Except.ok.injEq, Prod.mk.injEq] at h
  obtain ⟨d, -, r, -, rfl, rfl⟩ := h
  exact ⟨rfl, rfl, rfl, rfl, rfl⟩

theorem createEntry_ok {db db' : Db} {t : Transaction} {account currency : ℕ} {amount : ℚ} {rate base : Option ℚ}
    {type : String} (h : createEntry db t account amount currency rate base type = .ok db') :
    ∃ e : TransactionEntry, account ∈ db.accountIds ∧ e.pk = db.nextEntry ∧ e.transaction = t ∧ e.account = account ∧
      storeMoney amount = .ok e.amount ∧ e.currency = currency ∧ e.exchangeRate = rate ∧ db' = db.addEntry e := by
  obtain ⟨stored, hs, h⟩ := bind_eq_ok.1 h
  split_ifs at h with hc
  cases h
  exact ⟨_, hc.1, rfl, rfl, rfl, hs, rfl, rfl, rfl⟩

/-- the value of `Transaction.Type` -/
def TransactionType.value : TransactionType → String
  | .deposit => "DEPOSIT"
  | .withdrawal => "WITHDRAWAL"
  | .transfer => "TRANSFER"
  | .income => "INCOME"
  | .expense => "EXPENSE"
  | .interest => "INTEREST"
  | .dividend => "DIVIDEND"
  | .buy => "BUY"
  | .sell => "SELL"
  | .fee => "FEE"
  | .tax => "TAX"
  | .adjustment => "ADJUSTMENT"

/-- `_create` -/
def create (db : Db) (owner account : ℕ) (amount : ℚ) (transactionType : TransactionType) (date : Date)
    (description notes reference : String) : Except Error Db :=
  if amount = 0 then .error (.message (.text "Amount must not be zero."))
  else if (db.account account).owner ≠ owner then .error (.message (.text "Account does not belong to user."))
  else do
    let (t, db') ← createTransaction db owner date description transactionType reference notes
    createEntry db' t account amount (db.account account).currency none none (TransactionType.value transactionType)

def createDeposit (db : Db) (owner account : ℕ) (amount : ℚ) (date : Date) (description : String)
    (transactionType : TransactionType) (notes : String) : Except Error Db :=
  create db owner account amount transactionType date description notes ""

def createWithdrawal (db : Db) (owner account : ℕ) (amount : ℚ) (date : Date) (description : String)
    (transactionType : TransactionType) (notes : String) : Except Error Db :=
  if 0 < amount then create db owner account (-amount) transactionType date description notes ""
  else .error (.message (.text "Amount must be positive."))

def createTransfer (db : Db) (owner source destination : ℕ) (amount : ℚ) (date : Date) (description : String)
    (notes : String) : Except Error Db :=
  if amount ≤ 0 then .error (.message (.text "Amount must be positive."))
  else if source = destination then .error (.message (.text "Source and destination must differ."))
  else if (db.account source).owner ≠ owner ∨ (db.account destination).owner ≠ owner then
    .error (.message (.text "Accounts must belong to user."))
  else if (db.account source).currency ≠ (db.account destination).currency then
    .error (.message (.text "Cross-currency transfers need an explicit FX rate."))
  else do
    let (t, db') ← createTransaction db owner date description .transfer "" notes
    let db'' ← createEntry db' t source (-amount) (db.account source).currency none none "TRANSFER_OUT"
    createEntry db'' t destination amount (db.account destination).currency none none "TRANSFER_IN"

def accountBalance (db : Db) (account : ℕ) (asOfDate : Option Date) : ℚ :=
  ((db.entries.filter fun e => e.account = account ∧ ∀ d ∈ asOfDate, e.transaction.transactionDate ≤ d).map
    TransactionEntry.amount).sum

/-- rows of the given transactions go, entries first -/
@[simps] def deleteRows (db : Db) (ids : List ℕ) : Db :=
  { db with
    entries := db.entries.filter fun e => e.transaction.pk ∉ ids
    transactions := db.transactions.filter fun t => t.pk ∉ ids }

def deleteTransaction (db : Db) (owner : ℕ) (t : Transaction) : Except Error Db :=
  if t.owner ≠ owner then .error (.message (.text "Transaction does not belong to user."))
  else if db.hasInvestmentDetail t then
    .error (.message
      (.text "Investment transactions are immutable. Record a correcting transaction instead."))
  else .ok (deleteRows db [t.pk])

/-- `Transaction.objects.filter(owner=owner, entries__account=account).distinct()` -/
def accountTransactions (db : Db) (owner account : ℕ) : List Transaction :=
  db.transactions.filter fun t => t.owner = owner ∧ ∃ e ∈ db.entriesOf t, e.account = account

/-- the number of transactions removed, and the new state; a detail protects its transaction -/
def deleteAccountTransactions (db : Db) (owner account : ℕ) : Except Error (ℕ × Db) :=
  if (db.account account).owner ≠ owner then .error (.message (.text "Account does not belong to user."))
  else if ∃ i ∈ db.investments, i.account = account then
    .error (.message (.text "Investment transactions are immutable and cannot be bulk deleted."))
  else
    let ts := accountTransactions db owner account
    if ts = [] then .ok (0, db)
    else if ∃ t ∈ ts, db.hasInvestmentDetail t then .error .database
    else .ok (ts.length, deleteRows db (ts.map Transaction.pk))

end Vault67.Ledger
