/-
`ledger/forms.py` and the views that record what it accepts: `EntryForm`, `TransferForm`, `EntryCreateView` and
`TransferCreateView`.

A submission holds the value of each field as its field class parses it, none when it is blank. An invalid submission is
shown again with its errors and changes nothing; here it is an error, as an exception is.
-/
import Mathlib.Tactic
import Vault67.Accounts.Forms
import Vault67.Ledger.Services

namespace Vault67.Ledger

open Fallible

/-! ## Field checks -/

/-- `user.financial_accounts.filter(active=True)` -/
def activeAccount (db : Db) (user i : ℕ) : Prop :=
  i ∈ db.accountIds ∧ (db.account i).owner = user ∧ (db.account i).active

instance (db : Db) (user i : ℕ) : Decidable (activeAccount db user i) := inferInstanceAs (Decidable (_ ∧ _ ∧ _))

def choiceChecks (db : Db) (user : ℕ) (field : String) (choice : Option ℕ) : List (Bool × String × Message) := [
  (decide (choice = none), field, .text "This field is required."),
  (decide (∃ i ∈ choice, ¬activeAccount db user i), field,
    .text "Select a valid choice. That choice is not one of the available choices.")]

/-- `min_value=0.0001` is compared as the double it is, as the validator of a contract's principal is -/
def badAmount (x : ℚ) : Prop := x < Accounts.principalBound ∨ ¬FitsDecimal 20 4 x

instance (x : ℚ) : Decidable (badAmount x) := inferInstanceAs (Decidable (_ ∨ _))

/-- the checks of `amount`, `transaction_date` and `description` -/
def recordChecks (amount : Option ℚ) (transactionDate : Option Date) (description : String) :
    List (Bool × String × Message) := [
  (decide (amount = none), "amount", .text "This field is required."),
  (decide (∃ x ∈ amount, badAmount x), "amount", .outOfBounds),
  (decide (transactionDate = none), "transaction_date", .text "This field is required."),
  (decide (description = ""), "description", .text "This field is required."),
  (decide (255 < description.length), "description", .outOfBounds)]

/-! ## `EntryForm` -/

structure EntryData where
  account : Option ℕ
  amount : Option ℚ
  transactionDate : Option Date
  description : String
deriving DecidableEq, Repr

/-- `cleaned_data` of a valid `EntryForm` -/
structure CleanedEntry where
  account : ℕ
  amount : ℚ
  transactionDate : Date
  description : String
deriving DecidableEq, Repr

def EntryData.errors (db : Db) (user : ℕ) (data : EntryData) : Errors :=
  raised (choiceChecks db user "account" data.account ++
    recordChecks data.amount data.transactionDate data.description)

def EntryData.cleanData (db : Db) (user : ℕ) (data : EntryData) : Except Error CleanedEntry :=
  if data.errors db user ≠ [] then .error (.validation (data.errors db user))
  else do
    let account ← notNone data.account
    let amount ← notNone data.amount
    let transactionDate ← notNone data.transactionDate
    .ok ⟨account, amount, transactionDate, data.description⟩

/-- `operation` of an `EntryCreateView` -/
inductive EntryOperation where
  | deposit | income | withdrawal | expense
deriving DecidableEq, Repr

/-- `EntryCreateView` -/
def entryCreateView (db : Db) (user : ℕ) (operation : EntryOperation) (data : EntryData) : Except Error Db := do
  let c ← data.cleanData db user
  match operation with
  | .deposit => createDeposit db user c.account c.amount c.transactionDate c.description .deposit ""
  | .income => createDeposit db user c.account c.amount c.transactionDate c.description .income ""
  | .withdrawal => createWithdrawal db user c.account c.amount c.transactionDate c.description .withdrawal ""
  | .expense => createWithdrawal db user c.account c.amount c.transactionDate c.description .expense ""

/-! ## `TransferForm` -/

structure TransferData where
  source : Option ℕ
  destination : Option ℕ
  amount : Option ℚ
  transactionDate : Option Date
  description : String
deriving DecidableEq, Repr

/-- `cleaned_data` of a valid `TransferForm` -/
structure CleanedTransfer where
  source : ℕ
  destination : ℕ
  amount : ℚ
  transactionDate : Date
  description : String
deriving DecidableEq, Repr

/-- the field checks, and `clean`; a choice that is not valid is blank there -/
def TransferData.errors (db : Db) (user : ℕ) (data : TransferData) : Errors :=
  raised (recordChecks data.amount data.transactionDate data.description ++
    choiceChecks db user "source" data.source ++ choiceChecks db user "destination" data.destination ++ [
      (decide (data.source.filter (fun i => activeAccount db user i) =
        data.destination.filter fun i => activeAccount db user i), "destination",
        .text "Choose a different destination account.")])

def TransferData.cleanData (db : Db) (user : ℕ) (data : TransferData) : Except Error CleanedTransfer :=
  if data.errors db user ≠ [] then .error (.validation (data.errors db user))
  else do
    let source ← notNone data.source
    let destination ← notNone data.destination
    let amount ← notNone data.amount
    let transactionDate ← notNone data.transactionDate
    .ok ⟨source, destination, amount, transactionDate, data.description⟩

/-- `TransferCreateView` -/
def transferCreateView (db : Db) (user : ℕ) (data : TransferData) : Except Error Db := do
  let c ← data.cleanData db user
  createTransfer db user c.source c.destination c.amount c.transactionDate c.description ""

/-! ## What a valid form says -/

theorem principalBound_pos : 0 < Accounts.principalBound := by
  unfold Accounts.principalBound
  positivity

/-- amount, date and description of a valid form -/
theorem recordChecks_valid {amount : Option ℚ} {transactionDate : Option Date} {description : String}
    (h : ∀ c ∈ recordChecks amount transactionDate description, c.1 = false) : ∀ x ∈ amount, 0 < x := by
  intro x hx
  have hbad : ¬∃ x ∈ amount, badAmount x := by
    have hcheck := h (decide (∃ x ∈ amount, badAmount x), "amount", .outOfBounds) (by simp [recordChecks])
    exact of_decide_eq_false hcheck
  by_contra hneg
  exact hbad ⟨x, hx, .inl ((not_lt.1 hneg).trans_lt principalBound_pos)⟩

theorem choiceChecks_valid {db : Db} {user : ℕ} {field : String} {choice : Option ℕ}
    (h : ∀ c ∈ choiceChecks db user field choice, c.1 = false) : ∀ i ∈ choice, activeAccount db user i := by
  intro i hi
  have hcheck := h (decide (∃ i ∈ choice, ¬activeAccount db user i), field,
    .text "Select a valid choice. That choice is not one of the available choices.") (by simp [choiceChecks])
  by_contra hbad
  exact of_decide_eq_false hcheck ⟨i, hi, hbad⟩

theorem EntryData.cleanData_ok {db : Db} {user : ℕ} {data : EntryData} {c : CleanedEntry}
    (h : data.cleanData db user = .ok c) :
    data = ⟨some c.account, some c.amount, some c.transactionDate, c.description⟩ ∧ activeAccount db user c.account ∧
      0 < c.amount := by
  simp only [cleanData, ite_error_eq_ok, not_not, bind_eq_ok, notNone_eq_ok] at h
  obtain ⟨hvalid, account, haccount, amount, hamount, date, hdate, h⟩ := h
  cases h
  have hchecks := raised_eq_nil.1 hvalid
  refine ⟨?_, choiceChecks_valid (fun c hc => hchecks c (List.mem_append_left _ hc)) account haccount,
    recordChecks_valid (fun c hc => hchecks c (List.mem_append_right _ hc)) amount hamount⟩
  cases data
  simp only at haccount hamount hdate
  rw [haccount, hamount, hdate]

theorem TransferData.cleanData_ok {db : Db} {user : ℕ} {data : TransferData} {c : CleanedTransfer}
    (h : data.cleanData db user = .ok c) :
    data = ⟨some c.source, some c.destination, some c.amount, some c.transactionDate, c.description⟩ ∧
      activeAccount db user c.source ∧ activeAccount db user c.destination ∧ c.source ≠ c.destination ∧ 0 < c.amount := by
  simp only [cleanData, ite_error_eq_ok, not_not, bind_eq_ok, notNone_eq_ok] at h
  obtain ⟨hvalid, source, hsource, destination, hdestination, amount, hamount, date, hdate, h⟩ := h
  cases h
  have hchecks := raised_eq_nil.1 hvalid
  simp only [List.mem_append] at hchecks
  have hfrom := choiceChecks_valid (fun c hc => hchecks c (.inl (.inl (.inr hc)))) source hsource
  have hto := choiceChecks_valid (fun c hc => hchecks c (.inl (.inr hc))) destination hdestination
  have hamountPos := recordChecks_valid (fun c hc => hchecks c (.inl (.inl (.inl hc)))) amount hamount
  refine ⟨?_, hfrom, hto, fun heq => ?_, hamountPos⟩
  · cases data
    simp only at hsource hdestination hamount hdate
    rw [hsource, hdestination, hamount, hdate]
  · have hclean := of_decide_eq_false (hchecks _ (.inr (List.mem_singleton_self _)))
    dsimp only at heq
    rw [hsource, hdestination, heq] at hclean
    exact hclean rfl

end Vault67.Ledger
