/-
Submitted forms and the views that write what they accept.

A view does not catch a ValidationError of the service or the model it calls, so every check of these has to be made by
its form. Each rule is written twice.

- `entry_served`, `transfer_served_iff`, `createAccount_served_iff`, `updateAccount_served_iff`: view by view.
- `accepted_served_iff`: exactly which accepted submissions are written without a ValidationError.
- `crossCurrency_refused`: a transfer between two currencies is accepted by its form and refused by its service.
-/
import Mathlib.Tactic
import Vault67.Accounts.Contracts
import Vault67.Accounts.Views
import Vault67.Ledger.Currency
import Vault67.Ledger.Forms

namespace Vault67

open Accounts Fallible Ledger Machine

inductive Submission where
  | entry (operation : EntryOperation) (data : EntryData)
  | transfer (data : TransferData)
  | createAccount (data : FormData)
  | updateAccount (account : ℕ) (data : FormData)
deriving DecidableEq, Repr

/-- the form is valid; the form of an existing account is the owner's -/
def Submission.Accepted (db : Db) (user : ℕ) : Submission → Prop
  | .entry _ data => ∃ c, data.cleanData db user = .ok c
  | .transfer data => ∃ c, data.cleanData db user = .ok c
  | .createAccount data => ∃ c, FinancialAccountForm.cleanData db ⟨user, none, data⟩ = .ok c
  | .updateAccount account data => (account ∈ db.accountIds ∧ (db.account account).owner = user) ∧
    ∃ c, FinancialAccountForm.cleanData db ⟨user, some account, data⟩ = .ok c

def Submission.view (db : Db) (user : ℕ) : Submission → Except Error Db
  | .entry operation data => entryCreateView db user operation data
  | .transfer data => transferCreateView db user data
  | .createAccount data => accountCreateView db user data
  | .updateAccount account data => accountUpdateView db user account data

/-- no ValidationError leaves the view -/
def Submission.Served (db : Db) (user : ℕ) (s : Submission) : Prop := ¬Raises Error.isValidation (s.view db user)

/-- a transfer stays in one currency, and contract terms are within the contract's own bounds -/
def Submission.Fits (db : Db) : Submission → Prop
  | .entry _ _ => True
  | .transfer data =>
    ∀ i ∈ data.source, ∀ j ∈ data.destination, (db.account i).currency = (db.account j).currency
  | .createAccount data => ContractFits db db.nextAccount data
  | .updateAccount account data => ContractFits db account data

variable {db : Db} {user : ℕ}

/-! ## Services -/

theorem not_raises_createTransaction {owner : ℕ} {date : Date} {description reference notes : String}
    {type : TransactionType} :
    ¬Raises Error.isValidation (createTransaction db owner date description type reference notes) := by
  have htext : ∀ n s, ¬Raises Error.isValidation (storeText n s) := by
    intro n s
    unfold storeText
    split_ifs <;> simp [Error.isValidation]
  simp [createTransaction, raises_bind, htext]

theorem not_raises_createEntry {t : Transaction} {account currency : ℕ} {amount : ℚ} {rate base : Option ℚ}
    {type : String} : ¬Raises Error.isValidation (createEntry db t account amount currency rate base type) := by
  have hstore : ¬Raises Error.isValidation (storeMoney amount) := by
    unfold storeMoney
    split_ifs <;> simp [Error.isValidation]
  rw [createEntry, raises_bind, not_or]
  refine ⟨hstore, fun h => ?_⟩
  obtain ⟨stored, -, h⟩ := h
  split_ifs at h <;> simp [Error.isValidation] at h

theorem create_served {owner account : ℕ} {amount : ℚ} {type : TransactionType} {date : Date}
    {description notes reference : String} (hamount : amount ≠ 0) (howner : (db.account account).owner = owner) :
    ¬Raises Error.isValidation (create db owner account amount type date description notes reference) := by
  rw [create, if_neg hamount, if_neg (not_not.2 howner), raises_bind]
  simp only [not_raises_createTransaction, not_raises_createEntry, and_false, exists_false, or_false,
    not_false_eq_true]

/-- a transfer between two accounts of its owner raises a ValidationError for their currencies only -/
theorem createTransfer_served_iff {owner source destination : ℕ} {amount : ℚ} {date : Date} {description notes : String}
    (hamount : 0 < amount) (hne : source ≠ destination) (hsource : (db.account source).owner = owner)
    (hdestination : (db.account destination).owner = owner) :
    ¬Raises Error.isValidation (createTransfer db owner source destination amount date description notes) ↔
      (db.account source).currency = (db.account destination).currency := by
  rw [createTransfer, if_neg (not_le.2 hamount), if_neg hne, if_neg (by simp [hsource, hdestination])]
  split_ifs with hcurrency
  · exact iff_of_false (not_not.2 (raises_error.2 trivial)) hcurrency
  · refine iff_of_true ?_ (not_not.1 hcurrency)
    simp only [raises_bind, not_raises_createTransaction, not_raises_createEntry, and_false, exists_false, or_false,
      not_false_eq_true]

/-! ## Views -/

theorem entry_served {operation : EntryOperation} {data : EntryData}
    (h : (Submission.entry operation data).Accepted db user) : (Submission.entry operation data).Served db user := by
  obtain ⟨c, hc⟩ := h
  obtain ⟨-, ⟨-, howner, -⟩, hamount⟩ := EntryData.cleanData_ok hc
  have hdeposit : ∀ type date description, ¬Raises Error.isValidation
      (createDeposit db user c.account c.amount date description type "") :=
    fun type date description => create_served hamount.ne' howner
  have hwithdrawal : ∀ type date description, ¬Raises Error.isValidation
      (createWithdrawal db user c.account c.amount date description type "") := by
    intro type date description
    rw [createWithdrawal, if_pos hamount]
    exact create_served (neg_ne_zero.2 hamount.ne') howner
  simp only [Submission.Served, Submission.view, entryCreateView]
  rw [hc, raises_ok_bind]
  cases operation with
  | deposit => exact hdeposit _ _ _
  | income => exact hdeposit _ _ _
  | withdrawal => exact hwithdrawal _ _ _
  | expense => exact hwithdrawal _ _ _

theorem transfer_served_iff {data : TransferData} (h : (Submission.transfer data).Accepted db user) :
    (Submission.transfer data).Served db user ↔ (Submission.transfer data).Fits db := by
  obtain ⟨c, hc⟩ := h
  obtain ⟨hdata, ⟨-, hsource, -⟩, ⟨-, hdestination, -⟩, hne, hamount⟩ := TransferData.cleanData_ok hc
  simp only [Submission.Served, Submission.view, transferCreateView, Submission.Fits]
  rw [hc, raises_ok_bind, hdata]
  simp only [Option.mem_def, Option.some.injEq, forall_eq']
  exact createTransfer_served_iff hamount hne hsource hdestination

/-- a new contract's opening entry passes the checks of its service -/
theorem fundFixedTerm_served {account : ℕ} {details : FixedTermDetails} {funding : Option ℕ}
    (hprincipal : 0 < details.principal) (howner : (db.account account).owner = user)
    (hfunding : ∀ i ∈ funding, i ≠ account ∧ (db.account i).owner = user ∧
      (db.account i).currency = (db.account account).currency) :
    ¬Raises Error.isValidation (fundFixedTerm db user account details funding) := by
  cases funding with
  | none => exact create_served hprincipal.ne' howner
  | some source =>
    obtain ⟨hne, hsource, hcurrency⟩ := hfunding source rfl
    exact (createTransfer_served_iff hprincipal hne hsource howner).2 hcurrency

/-- an account that is not a fixed-term one has no contract to validate -/
theorem contractFits_of_ne {account : ℕ} {data : FormData} {type : AccountType} (htype : data.accountType = some type)
    (hne : type ≠ .fixedTerm) : ContractFits db account data := by
  intro hfixed
  rw [htype] at hfixed
  exact absurd (Option.some.inj hfixed) hne

theorem createAccount_served_iff {data : FormData} (hfresh : db.nextAccount ∉ db.accountIds)
    (h : (Submission.createAccount data).Accepted db user) :
    (Submission.createAccount data).Served db user ↔ (Submission.createAccount data).Fits db := by
  obtain ⟨c, hc⟩ := h
  obtain ⟨row, hrow, htype⟩ := saveAccount_returns hc user true
  obtain ⟨howner, hcurrency, -⟩ := saveAccount_ok hrow
  have hself : (insertAccount db row).account db.nextAccount = row := Function.update_self _ _ _
  simp only [Submission.Served, Submission.view, accountCreateView, Submission.Fits]
  rw [hc, raises_ok_bind, hrow, raises_ok_bind]
  by_cases hfixed : row.accountType = .fixedTerm
  · rw [hfixed] at htype
    obtain ⟨terms, hterms⟩ := validContract_of_cleanData hc htype
    have hother : ∀ i, FinancialAccountForm.choice db ⟨user, none, data⟩ i → i ≠ db.nextAccount :=
      fun i hi heq => hfresh (heq ▸ hi.1)
    have hrest : ∀ i, FinancialAccountForm.choice db ⟨user, none, data⟩ i →
        (insertAccount db row).account i = db.account i := fun i hi => Function.update_of_ne (hother i hi) _ _
    have hown : OwnChoices db (insertAccount db row) ⟨user, none, data⟩ db.nextAccount := by
      constructor
      case account_type => rw [hself, hfixed]
      case owner => exact fun i hi => by rw [hself, hrest i hi, howner, hi.2.1]
      case other => exact hother
    obtain ⟨hsave, hsaved⟩ := hterms.saveFixedTermDetails hown rfl htype
    rw [raises_bind, not_or, hsave]
    apply and_iff_left
    intro hraises
    obtain ⟨saved, hok, hraises⟩ := hraises
    obtain ⟨details, hdetails, hdraft, haccount⟩ := hsaved saved hok
    rw [hdetails] at hraises
    have hprincipal : 0 < details.principal := hdraft ▸ hterms.constraints.principal_pos
    refine fundFixedTerm_served hprincipal ?_ (fun i hi => ?_) hraises
    · rw [haccount, hself, howner]
    · obtain ⟨hchoice, hsame⟩ := hterms.funding i hi
      rw [haccount, hself, hrest i hchoice]
      exact ⟨hother i hchoice, hchoice.2.1, hsame row.currency hcurrency⟩
  · refine iff_of_true ?_ (contractFits_of_ne htype hfixed)
    rw [saveFixedTermDetails, if_pos (by rw [hself]; exact hfixed), raises_ok_bind]
    exact not_raises_ok _ _

theorem updateAccount_served_iff {account : ℕ} {data : FormData}
    (h : (Submission.updateAccount account data).Accepted db user) :
    (Submission.updateAccount account data).Served db user ↔ (Submission.updateAccount account data).Fits db := by
  obtain ⟨hfound, c, hc⟩ := h
  obtain ⟨row, hrow, htype⟩ := saveAccount_returns hc (db.account account).owner (db.account account).active
  obtain ⟨howner, -, -⟩ := saveAccount_ok hrow
  have hself : (updateAccount db account row).account account = row := Function.update_self _ _ _
  simp only [Submission.Served, Submission.view, accountUpdateView, Submission.Fits]
  rw [if_pos hfound, hc, raises_ok_bind, hrow, raises_ok_bind]
  by_cases hfixed : row.accountType = .fixedTerm
  · rw [hfixed] at htype
    obtain ⟨terms, hterms⟩ := validContract_of_cleanData hc htype
    have hother : ∀ i, FinancialAccountForm.choice db ⟨user, some account, data⟩ i → i ≠ account :=
      fun i hi heq => hi.2.2.2 (congrArg some heq.symm)
    have hown : OwnChoices db (updateAccount db account row) ⟨user, some account, data⟩ account := by
      constructor
      case account_type => rw [hself, hfixed]
      case owner =>
        intro i hi
        have hrest : (updateAccount db account row).account i = db.account i := Function.update_of_ne (hother i hi) _ _
        rw [hself, hrest, howner, hi.2.1, hfound.2]
      case other => exact hother
    obtain ⟨hsave, -⟩ := hterms.saveFixedTermDetails hown rfl htype
    rw [raises_bind, not_or, hsave]
    exact and_iff_left (by simp)
  · refine iff_of_true ?_ (contractFits_of_ne htype hfixed)
    rw [saveFixedTermDetails, if_pos (by rw [hself]; exact hfixed), raises_ok_bind]
    exact not_raises_ok _ _

/-! ## All submissions -/

/-- **What a form accepts, its view writes** without a ValidationError, exactly when a transfer stays in one currency and
contract terms are within the contract's own bounds. -/
theorem accepted_served_iff (db : Db) (hfresh : db.nextAccount ∉ db.accountIds) (user : ℕ) (s : Submission)
    (h : s.Accepted db user) : s.Served db user ↔ s.Fits db := by
  cases s with
  | entry operation data => exact iff_of_true (entry_served h) trivial
  | transfer data => exact transfer_served_iff h
  | createAccount data => exact createAccount_served_iff hfresh h
  | updateAccount account data => exact updateAccount_served_iff h

/-- the smallest principal that the form takes -/
def smallestPrincipal : FormData :=
  { plainForm .fixedTerm 1 with
    fixedPrincipal := some (1 / 10000)
    fixedStartDate := some 1
    fixedMaturityDate := some 366
    fixedAnnualRatePercent := some 3
    fixedInterestMethod := some .simple
    fixedInterestPaymentMethod := some .atMaturity
    fixedInterestDestination := some .capitalized
    fixedMaturityInstruction := some .undecided }

/-- a contract with the smallest principal is accepted by the form and refused by its own validation -/
theorem accepted_served_iff_smallestPrincipal :
    let db := Db.init (fun _ => "EUR") fun _ => ⟨"ETF", 1, true⟩
    (Submission.createAccount smallestPrincipal).Accepted db 1 ∧
      ¬(Submission.createAccount smallestPrincipal).Served db 1 := by
  intro db
  have haccepted : (Submission.createAccount smallestPrincipal).Accepted db 1 :=
    exists_ok_of_isOk (x := FinancialAccountForm.cleanData db ⟨1, none, smallestPrincipal⟩) (by decide +kernel)
  refine ⟨haccepted, fun hserved => ?_⟩
  have hfits := (accepted_served_iff db (by decide) 1 _ haccepted).1 hserved
  exact hfits rfl (1 / 10000) rfl 3 rfl (by norm_num) rfl

/-- two accounts of user 1, in currencies 1 and 2 -/
def twoCurrencies : List Op := [.createAccount 1 (plainForm .checking 1), .createAccount 1 (plainForm .savings 2)]

/-- **A transfer between two currencies** is accepted by its form, and `create_transfer` raises a ValidationError. -/
theorem crossCurrency_refused :
    let db := run step (Db.init (fun _ => "EUR") fun _ => ⟨"ETF", 1, true⟩) twoCurrencies
    (Submission.transfer ⟨some 0, some 1, some 10, some 5, "Rent"⟩).Accepted db 1 ∧
      ¬(Submission.transfer ⟨some 0, some 1, some 10, some 5, "Rent"⟩).Served db 1 := by
  intro db
  have haccepted : (Submission.transfer ⟨some 0, some 1, some 10, some 5, "Rent"⟩).Accepted db 1 :=
    exists_ok_of_isOk (x := TransferData.cleanData db 1 ⟨some 0, some 1, some 10, some 5, "Rent"⟩) (by decide +kernel)
  have hraises : transferCreateView db 1 ⟨some 0, some 1, some 10, some 5, "Rent"⟩ =
      .error (.message (.text "Cross-currency transfers need an explicit FX rate.")) :=
    eq_error_of_check (by decide +kernel)
  exact ⟨haccepted, not_not.2 ⟨_, hraises, trivial⟩⟩

end Vault67
