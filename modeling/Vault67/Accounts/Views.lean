/-
`accounts/views.py`: creating, editing and archiving an account.

An invalid submission is shown again with its errors and changes nothing; here it is an error, as an exception is.
-/
import Mathlib.Tactic
import Vault67.Ledger.Services
import Vault67.Accounts.Forms

namespace Vault67.Accounts

open Ledger

/-- the new row, under the next primary key -/
@[simps] def insertAccount (db : Db) (row : FinancialAccount) : Db :=
  { db with
    account := Function.update db.account db.nextAccount row
    accountIds := db.accountIds ++ [db.nextAccount]
    nextAccount := db.nextAccount + 1 }

@[simps] def updateAccount (db : Db) (account : ℕ) (row : FinancialAccount) : Db :=
  { db with account := Function.update db.account account row }

/-- the opening entry of a fixed-term account: a transfer from the funding account, or a deposit -/
def fundFixedTerm (db : Db) (user account : ℕ) (details : FixedTermDetails) (funding : Option ℕ) : Except Error Db :=
  let name := (db.account account).name
  match funding with
  | some source => createTransfer db user source account details.principal details.startDate s!"Fund {name}" ""
  | none =>
    createDeposit db user account details.principal details.startDate s!"Opening principal: {name}" .deposit ""

/-- `AccountCreateView` -/
def accountCreateView (db : Db) (user : ℕ) (data : FormData) : Except Error Db := do
  let c ← FinancialAccountForm.cleanData db ⟨user, none, data⟩
  let row ← saveAccount c user true
  let account := db.nextAccount
  let (details, db') ← saveFixedTermDetails (insertAccount db row) c account
  match details with
  | none => .ok db'
  | some details => fundFixedTerm db' user account details c.fundingAccount

/-- `AccountUpdateView` -/
def accountUpdateView (db : Db) (user account : ℕ) (data : FormData) : Except Error Db :=
  if account ∈ db.accountIds ∧ (db.account account).owner = user then do
    let c ← FinancialAccountForm.cleanData db ⟨user, some account, data⟩
    let row ← saveAccount c (db.account account).owner (db.account account).active
    let (_, db') ← saveFixedTermDetails (updateAccount db account row) c account
    .ok db'
  else .error .notFound

/-- `archive_account` -/
def archiveAccount (db : Db) (user account : ℕ) : Except Error Db :=
  if account ∈ db.accountIds ∧ (db.account account).owner = user then
    .ok (updateAccount db account { db.account account with active := false })
  else .error .notFound

end Vault67.Accounts
