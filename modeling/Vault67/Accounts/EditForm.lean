/-
The edit view of an account with every field of its form, and the initial values that its form presents.

`FormData` leaves out the columns that nothing else here reads; they are the `AccountColumns`. The choices of an
institution and of a return tax treatment are the user's own, so the checks of `clean` that a treatment belongs to the
user never fail after them.

- `initialData`: `FinancialAccountForm.__init__`, what the form of a stored account presents.
- `FormData.parsed`: what a CharField makes of the text it is sent back.
- `accountEditView`: `AccountUpdateView`.
- `submitInitial`: the edit view on exactly the initial values of its form.
-/
import Mathlib.Tactic
import Vault67.Accounts.Contracts
import Vault67.Accounts.Views
import Vault67.Lib.Text

namespace Vault67.Accounts

open Fallible Rounding

/-! ## The other columns -/

structure AccountColumns where
  institution : Option ℕ
  accountNumberLast4 : String
  openingDate : Option Date
  notes : String
  returnTaxTreatment : Option ℕ
deriving DecidableEq, Repr

/-- what a choice field reads of a row: its owner and whether it is active -/
structure ChoiceRow where
  owner : ℕ
  active : Bool
deriving DecidableEq, Repr

/-- the institutions and the return tax treatments, by primary key -/
structure ChoiceTables where
  institution : ℕ → Option ChoiceRow
  returnTaxTreatment : ℕ → Option ChoiceRow

/-- `Institution.objects.filter(owner=user, active=True)` -/
def ChoiceTables.institutionChoice (tables : ChoiceTables) (user i : ℕ) : Prop :=
  ∃ row ∈ tables.institution i, row.owner = user ∧ row.active

/-- the user's active treatments, and the account's own -/
def ChoiceTables.treatmentChoice (tables : ChoiceTables) (user : ℕ) (own : Option ℕ) (i : ℕ) : Prop :=
  ∃ row ∈ tables.returnTaxTreatment i, row.owner = user ∧ (row.active ∨ own = some i)

instance (tables : ChoiceTables) (user i : ℕ) : Decidable (tables.institutionChoice user i) :=
  inferInstanceAs (Decidable (∃ row ∈ tables.institution i, _))

instance (tables : ChoiceTables) (user : ℕ) (own : Option ℕ) (i : ℕ) : Decidable (tables.treatmentChoice user own i) :=
  inferInstanceAs (Decidable (∃ row ∈ tables.returnTaxTreatment i, _))

def columnErrors (tables : ChoiceTables) (user : ℕ) (stored submitted : AccountColumns) : Errors :=
  raised [
    (decide (∃ i ∈ submitted.institution, ¬tables.institutionChoice user i), "institution",
      .text "Select a valid choice. That choice is not one of the available choices."),
    (decide (4 < submitted.accountNumberLast4.length), "account_number_last4", .outOfBounds),
    (decide (∃ i ∈ submitted.returnTaxTreatment, ¬tables.treatmentChoice user stored.returnTaxTreatment i),
      "return_tax_treatment", .text "Select a valid choice. That choice is not one of the available choices.")]

/-! ## The initial values -/

/-- `.quantize(Decimal("0.01"))` -/
def quantizePercent (x : ℚ) : Except Error ℚ :=
  if |toPlaces halfEven 2 x| < 10 ^ 26 then .ok (toPlaces halfEven 2 x) else .error .decimal

/-- the fields that every account has -/
def FormData.ofAccount (row : FinancialAccount) (savingsPercent : Option ℚ) : FormData where
  name := row.name
  accountType := some row.accountType
  currency := some row.currency
  savingsAnnualInterestRatePercent := savingsPercent
  fixedPrincipal := none
  fixedStartDate := none
  fixedMaturityDate := none
  fixedAnnualRatePercent := none
  fixedInterestMethod := none
  fixedCompoundingFrequency := none
  fixedInterestPaymentMethod := none
  fixedInterestDestination := none
  fixedInterestDestinationAccount := none
  fixedEarlyWithdrawalAllowed := false
  fixedEarlyWithdrawalPenaltyNotes := ""
  fixedMaturityInstruction := none
  fixedMaturityDestinationAccount := none
  fundingAccount := none

/-- `initial.update(...)` -/
def FormData.withContract (data : FormData) (details : FixedTermDraft) (percent : ℚ) : FormData :=
  { data with
    fixedPrincipal := some details.principal
    fixedStartDate := some details.startDate
    fixedMaturityDate := some details.maturityDate
    fixedAnnualRatePercent := some percent
    fixedInterestMethod := some details.interestMethod
    fixedCompoundingFrequency := details.compoundingFrequency
    fixedInterestPaymentMethod := some details.interestPaymentMethod
    fixedInterestDestination := some details.interestDestination
    fixedInterestDestinationAccount := details.interestDestinationAccount
    fixedEarlyWithdrawalAllowed := details.earlyWithdrawalAllowed
    fixedEarlyWithdrawalPenaltyNotes := details.earlyWithdrawalPenaltyNotes
    fixedMaturityInstruction := some details.maturityInstruction
    fixedMaturityDestinationAccount := details.maturityDestinationAccount }

/-- the rate of a savings account, if it has one -/
def initialSavingsPercent (row : FinancialAccount) : Except Error (Option ℚ) :=
  match row.savingsAnnualInterestRate with
  | none => .ok none
  | some rate => (quantizePercent (rate * 100)).map some

/-- `form.initial` of the edit form -/
def initialData (db : Db) (account : ℕ) : Except Error FormData := do
  let row := db.account account
  let savingsPercent ← initialSavingsPercent row
  let data := FormData.ofAccount row savingsPercent
  match if row.accountType = .fixedTerm then db.fixedTerm account else none with
  | none => .ok data
  | some details => do
    let percent ← quantizePercent (details.annualInterestRate * 100)
    .ok (data.withContract details.toFixedTermDraft percent)

/-! ## Submitting them -/

/-- `str.strip` -/
def strip (s : String) : String := String.ofList (Text.strip s.toList)

/-- a CharField strips what it is sent; the other fields read back the values they show -/
def FormData.parsed (data : FormData) : FormData :=
  { data with
    name := strip data.name
    fixedEarlyWithdrawalPenaltyNotes := strip data.fixedEarlyWithdrawalPenaltyNotes }

def AccountColumns.parsed (columns : AccountColumns) : AccountColumns :=
  { columns with
    accountNumberLast4 := strip columns.accountNumberLast4
    notes := strip columns.notes }

/-- `AccountUpdateView`; the errors of the other columns come after those of the field checks -/
def accountEditView (tables : ChoiceTables) (db : Db) (stored : AccountColumns) (user account : ℕ) (data : FormData)
    (columns : AccountColumns) : Except Error (Db × AccountColumns) :=
  if account ∈ db.accountIds ∧ (db.account account).owner = user then
    let f : FinancialAccountForm := ⟨user, some account, data⟩
    let errors := f.fieldErrors db ++ columnErrors tables user stored columns ++ (f.clean db).2
    if errors ≠ [] then .error (.validation errors)
    else do
      let c := (f.clean db).1
      let row ← saveAccount c (db.account account).owner (db.account account).active
      let (_, db') ← saveFixedTermDetails (updateAccount db account row) c account
      .ok (db', columns)
  else .error .notFound

/-- the owner submits exactly the initial values -/
def submitInitial (tables : ChoiceTables) (db : Db) (stored : AccountColumns) (account : ℕ) :
    Except Error (Db × AccountColumns) := do
  let data ← initialData db account
  accountEditView tables db stored (db.account account).owner account data.parsed stored.parsed

/-- the view returns when the other columns are valid and the view of the remaining fields returns -/
theorem accountEditView_ok {tables : ChoiceTables} {db db' : Db} {stored columns columns' : AccountColumns}
    {user account : ℕ} {data : FormData} :
    accountEditView tables db stored user account data columns = .ok (db', columns') ↔
      columnErrors tables user stored columns = [] ∧ accountUpdateView db user account data = .ok db' ∧
        columns' = columns := by
  unfold accountEditView accountUpdateView FinancialAccountForm.cleanData
  by_cases huser : account ∈ db.accountIds ∧ (db.account account).owner = user
  · rw [if_pos huser, if_pos huser]
    dsimp only
    by_cases hcolumns : columnErrors tables user stored columns = []
    · rw [hcolumns, List.append_nil, ite_not]
      split_ifs with hnone
      · simp only [bind_eq_ok, Except.ok.injEq, Prod.mk.injEq, exists_eq_left', true_and]
        refine ⟨?_, ?_⟩
        · rintro ⟨row, hrow, saved, hsaved, hdb, hsame⟩
          exact ⟨⟨row, hrow, saved, hsaved, hdb⟩, hsame.symm⟩
        · rintro ⟨⟨row, hrow, saved, hsaved, hdb⟩, hsame⟩
          exact ⟨row, hrow, saved, hsaved, hdb, hsame.symm⟩
      · simp [Bind.bind, Except.bind]
    · rw [if_pos (by simp [hcolumns])]
      simp [hcolumns]
  · rw [if_neg huser, if_neg huser]
    simp

end Vault67.Accounts
