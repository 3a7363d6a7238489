/-
`accounts/forms.py` and the validation of `accounts/models.py`: from a submitted `FinancialAccountForm` to saved rows.

A submission holds the value of each field as its field class parses it, none when it is blank. A field that fails its
own check, or is named in an `add_error`, is blank in the cleaned data.

- `cleanData`: the field checks and `clean`; the cleaned data when no error was added.
- `saveFixedTermDetails`: `get_or_create`, then `full_clean` and `save` of the contract terms.
-/
import Mathlib.Tactic
import Vault67.Core.Money
import Vault67.Core.Tables
import Vault67.Lib.Fallible

namespace Vault67.Accounts

open Fallible

structure FormData where
  name : String
  accountType : Option AccountType
  currency : Option ℕ
  savingsAnnualInterestRatePercent : Option ℚ
  fixedPrincipal : Option ℚ
  fixedStartDate : Option Date
  fixedMaturityDate : Option Date
  fixedAnnualRatePercent : Option ℚ
  fixedInterestMethod : Option InterestMethod
  fixedCompoundingFrequency : Option CompoundingFrequency
  fixedInterestPaymentMethod : Option PaymentMethod
  fixedInterestDestination : Option InterestDestination
  fixedInterestDestinationAccount : Option ℕ
  fixedEarlyWithdrawalAllowed : Bool
  fixedEarlyWithdrawalPenaltyNotes : String
  fixedMaturityInstruction : Option MaturityInstruction
  fixedMaturityDestinationAccount : Option ℕ
  fundingAccount : Option ℕ
deriving DecidableEq, Repr

/-- `FinancialAccountForm(data, user=user, instance=...)`; none is the form of a new account -/
structure FinancialAccountForm where
  user : ℕ
  editing : Option ℕ
  data : FormData
deriving DecidableEq, Repr

/-! ## Field checks -/

/-- the user's active accounts, without the one being edited -/
def FinancialAccountForm.choice (db : Db) (f : FinancialAccountForm) (i : ℕ) : Prop :=
  i ∈ db.accountIds ∧ (db.account i).owner = f.user ∧ (db.account i).active ∧ f.editing ≠ some i

instance (db : Db) (f : FinancialAccountForm) (i : ℕ) : Decidable (f.choice db i) :=
  inferInstanceAs (Decidable (_ ∧ _ ∧ _ ∧ _))

def badSavingsRate (x : ℚ) : Prop := x < 0 ∨ 100 < x ∨ ¬FitsDecimal 5 2 x

def badPrincipal (x : ℚ) : Prop := x < 1 / 10000 ∨ ¬FitsDecimal 20 4 x

def badFixedRate (x : ℚ) : Prop := x < 0 ∨ ¬FitsDecimal 10 2 x

instance (x : ℚ) : Decidable (badSavingsRate x) := inferInstanceAs (Decidable (_ ∨ _ ∨ _))
instance (x : ℚ) : Decidable (badPrincipal x) := inferInstanceAs (Decidable (_ ∨ _))
instance (x : ℚ) : Decidable (badFixedRate x) := inferInstanceAs (Decidable (_ ∨ _))

/-- `funding_account` is not a field of the edit form -/
def FinancialAccountForm.funding (f : FinancialAccountForm) : Option ℕ :=
  if f.editing = none then f.data.fundingAccount else none

def FinancialAccountForm.fieldErrors (db : Db) (f : FinancialAccountForm) : Errors :=
  raised [
    (decide (f.data.name = ""), "name", .text "This field is required."),
    (decide (120 < f.data.name.length), "name", .outOfBounds),
    (decide (f.data.accountType = none), "account_type", .text "This field is required."),
    (decide (f.data.currency = none), "currency", .text "This field is required."),
    (decide (∃ x ∈ f.data.savingsAnnualInterestRatePercent, badSavingsRate x),
      "savings_annual_interest_rate_percent", .outOfBounds),
    (decide (∃ x ∈ f.data.fixedPrincipal, badPrincipal x), "fixed_principal", .outOfBounds),
    (decide (∃ x ∈ f.data.fixedAnnualRatePercent, badFixedRate x), "fixed_annual_rate_percent", .outOfBounds),
    (decide (∃ i ∈ f.data.fixedInterestDestinationAccount, ¬f.choice db i), "fixed_interest_destination_account",
      .text "Select a valid choice. That choice is not one of the available choices."),
    (decide (∃ i ∈ f.data.fixedMaturityDestinationAccount, ¬f.choice db i), "fixed_maturity_destination_account",
      .text "Select a valid choice. That choice is not one of the available choices."),
    (decide (∃ i ∈ f.funding, ¬f.choice db i), "funding_account",
      .text "Select a valid choice. That choice is not one of the available choices.")]

/-- `cleaned_data` after the field checks -/
def FinancialAccountForm.cleanedFields (db : Db) (f : FinancialAccountForm) : FormData :=
  { f.data with
    savingsAnnualInterestRatePercent := f.data.savingsAnnualInterestRatePercent.filter fun x => ¬badSavingsRate x
    fixedPrincipal := f.data.fixedPrincipal.filter fun x => ¬badPrincipal x
    fixedAnnualRatePercent := f.data.fixedAnnualRatePercent.filter fun x => ¬badFixedRate x
    fixedInterestDestinationAccount := f.data.fixedInterestDestinationAccount.filter fun i => f.choice db i
    fixedMaturityDestinationAccount := f.data.fixedMaturityDestinationAccount.filter fun i => f.choice db i
    fundingAccount := f.funding.filter fun i => f.choice db i }

/-! ## `FinancialAccountForm.clean` -/

def FinancialAccountForm.typeChanged (db : Db) (f : FinancialAccountForm) (c : FormData) : Prop :=
  ∃ i ∈ f.editing, ∃ t ∈ c.accountType, t ≠ (db.account i).accountType

instance (db : Db) (f : FinancialAccountForm) (c : FormData) : Decidable (f.typeChanged db c) :=
  inferInstanceAs (Decidable (∃ i ∈ f.editing, ∃ t ∈ c.accountType, _))

/-- the checks of the contract fields -/
def fixedTermErrors (db : Db) (c : FormData) : Errors :=
  raised [
    (decide (c.fixedPrincipal = none), "fixed_principal", .text "Principal is required."),
    (decide (c.fixedStartDate = none), "fixed_start_date", .text "Start date is required."),
    (decide (c.fixedMaturityDate = none), "fixed_maturity_date", .text "Maturity date is required."),
    (decide (c.fixedAnnualRatePercent = none), "fixed_annual_rate_percent", .text "Annual interest rate is required."),
    (decide (c.fixedInterestMethod = none), "fixed_interest_method", .text "Interest method is required."),
    (decide (c.fixedInterestPaymentMethod = none), "fixed_interest_payment_method",
      .text "Interest payment method is required."),
    (decide (c.fixedInterestDestination = none), "fixed_interest_destination",
      .text "Interest destination is required."),
    (decide (c.fixedMaturityInstruction = none), "fixed_maturity_instruction",
      .text "Maturity instruction is required."),
    (decide (∃ s ∈ c.fixedStartDate, ∃ m ∈ c.fixedMaturityDate, m ≤ s), "fixed_maturity_date",
      .text "Maturity date must be after the start date."),
    (decide (c.fixedInterestMethod = some .compound ∧ c.fixedCompoundingFrequency = none),
      "fixed_compounding_frequency", .text "Compound interest requires a frequency."),
    (decide (c.fixedInterestDestination = some .paidOut ∧ c.fixedInterestDestinationAccount = none),
      "fixed_interest_destination_account", .text "Select a payout account."),
    (decide (∃ i ∈ c.fundingAccount, ∃ cur ∈ c.currency, (db.account i).currency ≠ cur), "funding_account",
      .text "Funding account currency must match.")]

/-- a field named in an error loses its value -/
def FinancialAccountForm.dropType (db : Db) (f : FinancialAccountForm) (c : FormData) : FormData :=
  if f.typeChanged db c then { c with accountType := none } else c

/-- only a savings account has a rate -/
def FormData.dropSavingsRate (c : FormData) : FormData :=
  if c.accountType = some .savings then c else { c with savingsAnnualInterestRatePercent := none }

/-- the cleaned data and the errors `clean` adds -/
def FinancialAccountForm.clean (db : Db) (f : FinancialAccountForm) : FormData × Errors :=
  let typeErrors := raised [(decide (f.typeChanged db (f.cleanedFields db)), "account_type",
    .text "Account type cannot be changed after creation.")]
  let c := (f.dropType db (f.cleanedFields db)).dropSavingsRate
  (c, if c.accountType = some .fixedTerm then typeErrors ++ fixedTermErrors db c else typeErrors)

/-- `cleaned_data` of a valid form -/
def FinancialAccountForm.cleanData (db : Db) (f : FinancialAccountForm) : Except Error FormData :=
  let errors := f.fieldErrors db ++ (f.clean db).2
  if errors = [] then .ok (f.clean db).1 else .error (.validation errors)

/-! ## Saving -/

/-- `form.save()`: the account row -/
def saveAccount (c : FormData) (owner : ℕ) (active : Bool) : Except Error FinancialAccount := do
  let accountType ← notNone c.accountType
  let currency ← notNone c.currency
  .ok {
    owner := owner
    name := c.name
    accountType := accountType
    currency := currency
    active := active
    savingsAnnualInterestRate :=
      if accountType = .savings then c.savingsAnnualInterestRatePercent.map (· / 100) else none }

/-- the contract terms in the cleaned data -/
def FormData.terms (c : FormData) : Except Error FixedTermDraft := do
  let principal ← notNone c.fixedPrincipal
  let startDate ← notNone c.fixedStartDate
  let maturityDate ← notNone c.fixedMaturityDate
  let percent ← notNone c.fixedAnnualRatePercent
  let method ← notNone c.fixedInterestMethod
  let payment ← notNone c.fixedInterestPaymentMethod
  let destination ← notNone c.fixedInterestDestination
  let instruction ← notNone c.fixedMaturityInstruction
  .ok {
    principal := principal
    startDate := startDate
    maturityDate := maturityDate
    annualInterestRate := percent / 100
    interestMethod := method
    compoundingFrequency := c.fixedCompoundingFrequency
    interestPaymentMethod := payment
    interestDestination := destination
    interestDestinationAccount := c.fixedInterestDestinationAccount
    earlyWithdrawalAllowed := c.fixedEarlyWithdrawalAllowed
    earlyWithdrawalPenaltyNotes := c.fixedEarlyWithdrawalPenaltyNotes
    maturityInstruction := instruction
    maturityDestinationAccount := c.fixedMaturityDestinationAccount }

/-- what the columns numeric(20, 4) and numeric(12, 8) and the check constraints let in -/
def FixedTermDraft.insertable (d : FixedTermDraft) : Prop :=
  |Rounding.toPlaces Rounding.halfAway 4 d.principal| < 10 ^ 16 ∧
    |Rounding.toPlaces Rounding.halfAway 8 d.annualInterestRate| < 10 ^ 4 ∧ d.Constraints

instance (d : FixedTermDraft) : Decidable (FixedTermDraft.insertable d) := inferInstanceAs (Decidable (_ ∧ _ ∧ _))

/-- the double nearest to 0.0001, which `MinValueValidator(0.0001)` compares with -/
def principalBound : ℚ := 7378697629483821 / 2 ^ 66

def FixedTermDraft.cleanFields (d : FixedTermDraft) : Errors :=
  raised [
    (decide (d.principal < principalBound), "principal", .outOfBounds),
    (decide (¬FitsDecimal 20 4 d.principal), "principal", .badDecimal 20 4),
    (decide (d.annualInterestRate < 0), "annual_interest_rate", .outOfBounds),
    (decide (¬FitsDecimal 12 8 d.annualInterestRate), "annual_interest_rate", .badDecimal 12 8)]

/-- a destination account of another user, or the contract's own account -/
def destinationChecks (db : Db) (account : ℕ) (field : String) (destination : Option ℕ) :
    List (Bool × String × Message) :=
  [(decide (∃ i ∈ destination, (db.account i).owner ≠ (db.account account).owner), field,
      .text "Destination account must belong to the same user."),
    (decide (∃ i ∈ destination, (db.account i).owner = (db.account account).owner ∧ i = account), field,
      .text "Choose an account other than this fixed-term account.")]

/-- `FixedTermDetails.clean` -/
def FixedTermDraft.clean (db : Db) (account : ℕ) (d : FixedTermDraft) : Errors :=
  errorsOf ([
    (decide ((db.account account).accountType ≠ .fixedTerm), "account",
      .text "Fixed-term details require a Fixed Term Deposit account."),
    (decide (d.maturityDate ≤ d.startDate), "maturity_date", .text "Maturity date must be after the start date."),
    (decide (d.interestMethod = .compound ∧ d.compoundingFrequency = none), "compounding_frequency",
      .text "Compound interest requires a frequency.")] ++
    destinationChecks db account "interest_destination_account" d.interestDestinationAccount ++
    destinationChecks db account "maturity_destination_account" d.maturityDestinationAccount ++ [
    (decide (d.interestDestination = .paidOut ∧ d.interestDestinationAccount = none), "interest_destination_account",
      .text "Select where paid-out interest should go.")])

/-- a constraint is not checked when one of its fields is in error already -/
def FixedTermDraft.constraintErrors (d : FixedTermDraft) (errors : Errors) : Errors :=
  raised [
    (decide (d.principal ≤ 0 ∧ ∀ e ∈ errors, e.1 ≠ "principal"), nonField, .constraint "fixed_principal_gt_zero"),
    (decide (d.annualInterestRate < 0 ∧ ∀ e ∈ errors, e.1 ≠ "annual_interest_rate"), nonField,
      .constraint "fixed_rate_nonnegative"),
    (decide (d.maturityDate ≤ d.startDate ∧ ∀ e ∈ errors, e.1 ≠ "start_date" ∧ e.1 ≠ "maturity_date"), nonField,
      .constraint "fixed_maturity_after_start")]

def FixedTermDraft.fullClean (db : Db) (account : ℕ) (d : FixedTermDraft) : Except Error FixedTermDetails :=
  let errors := cleanFields d ++ clean db account d
  if h : errors = [] ∧ d.Constraints then .ok ⟨d, h.2⟩ else .error (.validation (errors ++ constraintErrors d errors))

/-- `save_fixed_term_details`; a new row is inserted before it is cleaned -/
def saveFixedTermDetails (db : Db) (c : FormData) (account : ℕ) : Except Error (Option FixedTermDetails × Db) :=
  if (db.account account).accountType ≠ .fixedTerm then
    .ok (none, { db with fixedTerm := Function.update db.fixedTerm account none })
  else do
    let terms ← c.terms
    if db.fixedTerm account = none ∧ ¬FixedTermDraft.insertable terms then .error .database
    else do
      let details ← FixedTermDraft.fullClean db account terms
      .ok (some details, { db with fixedTerm := Function.update db.fixedTerm account (some details) })

theorem fullClean_eq_ok {db : Db} {account : ℕ} {d : FixedTermDraft} {details : FixedTermDetails} :
    FixedTermDraft.fullClean db account d = .ok details ↔
      FixedTermDraft.cleanFields d = [] ∧ FixedTermDraft.clean db account d = [] ∧ details.toFixedTermDraft = d := by
  unfold FixedTermDraft.fullClean
  dsimp only
  split_ifs with hvalid
  · obtain ⟨hfields, hclean⟩ := List.append_eq_nil_iff.1 hvalid.1
    refine ⟨?_, ?_⟩
    · rintro ⟨⟩
      exact ⟨hfields, hclean, rfl⟩
    · rintro ⟨-, -, rfl⟩
      rfl
  · refine ⟨(nomatch ·), ?_⟩
    rintro ⟨hfields, hclean, rfl⟩
    exact absurd ⟨List.append_eq_nil_iff.2 ⟨hfields, hclean⟩, details.constraints⟩ hvalid

theorem saveAccount_ok {c : FormData} {owner : ℕ} {active : Bool} {row : FinancialAccount}
    (h : saveAccount c owner active = .ok row) :
    row.owner = owner ∧ c.currency = some row.currency ∧ c.accountType = some row.accountType := by
  simp only [saveAccount, bind_eq_ok, notNone_eq_ok] at h
  obtain ⟨type, ht, currency, hc, h⟩ := h
  cases h
  exact ⟨rfl, hc, ht⟩

/-- no other field is dropped with the savings rate -/
theorem dropSavingsRate_congr {γ : Type} (g : FormData → γ)
    (hg : ∀ c : FormData, g { c with savingsAnnualInterestRatePercent := none } = g c) (c : FormData) :
    g c.dropSavingsRate = g c := by
  unfold FormData.dropSavingsRate
  split_ifs
  · rfl
  · exact hg c

theorem dropSavingsRate_accountType (c : FormData) : c.dropSavingsRate.accountType = c.accountType :=
  dropSavingsRate_congr FormData.accountType (fun _ => rfl) c

theorem dropSavingsRate_currency (c : FormData) : c.dropSavingsRate.currency = c.currency :=
  dropSavingsRate_congr FormData.currency (fun _ => rfl) c

theorem FinancialAccountForm.cleanData_currency {db : Db} {f : FinancialAccountForm} {c : FormData}
    (h : f.cleanData db = .ok c) : c.currency = f.data.currency := by
  have hkept : ∀ c, (f.dropType db c).currency = c.currency := fun c => by
    unfold FinancialAccountForm.dropType
    split_ifs <;> rfl
  simp only [FinancialAccountForm.cleanData] at h
  split_ifs at h
  cases h
  rw [FinancialAccountForm.clean, dropSavingsRate_currency, hkept]
  rfl

/-- another type is an error -/
theorem FinancialAccountForm.not_typeChanged {db : Db} {f : FinancialAccountForm} (h : (f.clean db).2 = []) :
    ¬f.typeChanged db (f.cleanedFields db) := by
  intro hchanged
  rw [clean] at h
  dsimp only at h
  split_ifs at h with hfixed
  · simp [raised, hchanged] at h
  · simp [raised, hchanged] at h

/-- the form of an existing account keeps its type -/
theorem FinancialAccountForm.cleanData_accountType {db : Db} {f : FinancialAccountForm} {c : FormData} {account : ℕ}
    {type : AccountType} (h : f.cleanData db = .ok c) (hedit : f.editing = some account)
    (hc : c.accountType = some type) : type = (db.account account).accountType := by
  simp only [cleanData] at h
  split_ifs at h with hnone
  cases h
  have hsame := not_typeChanged (List.append_eq_nil_iff.1 hnone).2
  rw [clean, dropSavingsRate_accountType, dropType, if_neg hsame] at hc
  by_contra hne
  exact hsame ⟨account, hedit, type, hc, hne⟩

theorem saveFixedTermDetails_ok {db db' : Db} {c : FormData} {account : ℕ} {details : Option FixedTermDetails}
    (h : saveFixedTermDetails db c account = .ok (details, db')) :
    db' = { db with fixedTerm := Function.update db.fixedTerm account details } := by
  unfold saveFixedTermDetails at h
  split_ifs at h
  · cases h
    rfl
  · simp only [bind_eq_ok, ite_error_eq_ok] at h
    obtain ⟨terms, -, -, d, -, h⟩ := h
    cases h
    rfl

end Vault67.Accounts
