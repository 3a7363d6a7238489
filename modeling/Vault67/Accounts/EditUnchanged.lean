/-
Editing an account without changing anything: the owner opens the edit form of a stored account and sends it back as it
is.

A stored rate may have eight decimals, the form shows it in percent with two; what it shows is saved. The form strips the
notes of a contract. Every other field comes back as it was.

- `shownPercent_div_iff`: a rate survives being shown exactly when it has at most four decimals.
- `accountUpdateView_ok_iff`: when the view accepts what it is sent, and what it saves.
- `edit_unchanged_iff`: exactly when an unchanged edit keeps the account's rate and its contract.
-/
import Mathlib.Tactic
import Vault67.Accounts.EditForm

namespace Vault67.Accounts

open Fallible Rounding

/-! ## Rates as the form shows them -/

/-- the rate in percent, with two decimals -/
def shownPercent (rate : ℚ) : ℚ := toPlaces halfEven 2 (rate * 100)

theorem shownPercent_eq (rate : ℚ) : shownPercent rate = halfEven (rate * 10 ^ 4) / 100 := by
  rw [shownPercent, toPlaces]
  norm_num [mul_assoc]

theorem shownPercent_nonneg {rate : ℚ} (h : 0 ≤ rate) : 0 ≤ shownPercent rate := by
  rw [shownPercent_eq]
  have hround : 0 ≤ halfEven (rate * 10 ^ 4) := halfEven_nonneg (by positivity)
  exact div_nonneg (by exact_mod_cast hround) (by norm_num)

theorem shownPercent_le {rate : ℚ} {n : ℤ} (h : rate ≤ n) : shownPercent rate ≤ n * 100 := by
  have hround : halfEven (rate * 10 ^ 4) ≤ n * 10000 := halfEven_le (by push_cast; linarith)
  have hcast : (halfEven (rate * 10 ^ 4) : ℚ) ≤ n * 10000 := by exact_mod_cast hround
  rw [shownPercent_eq, div_le_iff₀ (by norm_num)]
  linarith

theorem shownPercent_places (rate : ℚ) : HasPlaces 2 (shownPercent rate) := by
  refine hasPlaces_iff.2 ⟨halfEven (rate * 10 ^ 4), ?_⟩
  rw [shownPercent_eq]
  norm_num

/-- a rate survives exactly with four decimals -/
theorem shownPercent_div_iff (rate : ℚ) : shownPercent rate / 100 = rate ↔ HasPlaces 4 rate := by
  have hshown : shownPercent rate / 100 * 10 ^ 4 = halfEven (rate * 10 ^ 4) := by
    rw [shownPercent_eq]
    ring
  refine ⟨fun h => ?_, fun h => ?_⟩
  · rw [h] at hshown
    exact hasPlaces_iff.2 ⟨_, hshown⟩
  · obtain ⟨n, hn⟩ := hasPlaces_iff.1 h
    rw [hn, halfEven_intCast, ← hn] at hshown
    linarith

theorem shownPercent_lt_iff (rate : ℚ) : shownPercent rate < 10 ^ 6 ↔ rate < 9999.99995 := by
  have hround := halfEven_lt_iff (x := rate * 10 ^ 4) (n := 10 ^ 8) (by decide)
  calc shownPercent rate < 10 ^ 6
      ↔ (halfEven (rate * 10 ^ 4) : ℚ) < (10 ^ 8 : ℤ) := by
        rw [shownPercent_eq, div_lt_iff₀ (by norm_num)]
        norm_num
    _ ↔ rate * 10 ^ 4 < (10 ^ 8 : ℤ) - 1 / 2 := by rw [Int.cast_lt, hround]
    _ ↔ rate < 9999.99995 := by
        rw [← lt_div_iff₀ (by norm_num)]
        norm_num

theorem quantizePercent_stored {rate : ℚ} (h0 : 0 ≤ rate) (h : FitsDecimal 12 8 rate) :
    quantizePercent (rate * 100) = .ok (shownPercent rate) := by
  have hle : shownPercent rate ≤ 10000 * 100 :=
    shownPercent_le (n := 10000) (by exact_mod_cast (abs_lt.1 h.2).2.le)
  refine if_pos ?_
  rw [← shownPercent, abs_of_nonneg (shownPercent_nonneg h0)]
  linarith

/-! ## Stored accounts -/

/-- `FinancialAccount.full_clean` accepts the row and `FixedTermDetails.full_clean` its contract -/
structure Stored (tables : ChoiceTables) (db : Db) (columns : AccountColumns) (account : ℕ) : Prop where
  account_mem : account ∈ db.accountIds
  name_ne : (db.account account).name ≠ ""
  name_length : (db.account account).name.length ≤ 120
  savings_rate : ∀ rate ∈ (db.account account).savingsAnnualInterestRate,
    (db.account account).accountType = .savings ∧ 0 ≤ rate ∧ rate ≤ 1 ∧ FitsDecimal 12 8 rate
  last4_length : columns.accountNumberLast4.length ≤ 4
  treatment : ∀ i ∈ columns.returnTaxTreatment, ∃ row ∈ tables.returnTaxTreatment i,
    row.owner = (db.account account).owner
  contract : ∀ details ∈ db.fixedTerm account, FixedTermDraft.fullClean db account details.toFixedTermDraft = .ok details

/-- the form shows the rates and the notes as they are stored -/
structure ShowsAll (db : Db) (account : ℕ) : Prop where
  savings_rate : ∀ rate ∈ (db.account account).savingsAnnualInterestRate, HasPlaces 4 rate
  rate : ∀ details ∈ db.fixedTerm account, HasPlaces 4 details.annualInterestRate
  notes : ∀ details ∈ db.fixedTerm account,
    strip details.earlyWithdrawalPenaltyNotes = details.earlyWithdrawalPenaltyNotes

/-- an active account of the table -/
def activeAccount (db : Db) (i : ℕ) : Prop := i ∈ db.accountIds ∧ (db.account i).active

/-- the form accepts its own initial values: they are still among the choices, and the shown rate fits its column -/
structure TakesInitial (tables : ChoiceTables) (db : Db) (columns : AccountColumns) (account : ℕ) : Prop where
  name : strip (db.account account).name ≠ ""
  institution : ∀ i ∈ columns.institution, tables.institutionChoice (db.account account).owner i
  interest_destination : ∀ details ∈ db.fixedTerm account, ∀ i ∈ details.interestDestinationAccount, activeAccount db i
  maturity_destination : ∀ details ∈ db.fixedTerm account, ∀ i ∈ details.maturityDestinationAccount, activeAccount db i
  rate : ∀ details ∈ db.fixedTerm account, details.annualInterestRate < 9999.99995

/-- the savings rate and the contract are as they were -/
def KeepsTerms (db db' : Db) (account : ℕ) : Prop :=
  (db'.account account).savingsAnnualInterestRate = (db.account account).savingsAnnualInterestRate ∧
    db'.fixedTerm account = db.fixedTerm account

instance (db db' : Db) (account : ℕ) : Decidable (KeepsTerms db db' account) := inferInstanceAs (Decidable (_ ∧ _))

/-- an invalid form and an exception leave the database as it was -/
def afterEdit (tables : ChoiceTables) (db : Db) (columns : AccountColumns) (account : ℕ) : Db :=
  match submitInitial tables db columns account with
  | .ok (db', _) => db'
  | .error _ => db

variable {tables : ChoiceTables} {db db' : Db} {columns : AccountColumns} {account : ℕ}

theorem strip_length_le (s : String) : (strip s).length ≤ s.length := by
  rw [strip, String.length_ofList, ← String.length_toList]
  exact (Text.strip_sublist s.toList).length_le

/-- what a stored contract satisfies -/
theorem Stored.terms (h : Stored tables db columns account) {details : FixedTermDetails}
    (hdetails : db.fixedTerm account = some details) :
    FixedTermDraft.cleanFields details.toFixedTermDraft = [] ∧
      FixedTermDraft.clean db account details.toFixedTermDraft = [] := by
  obtain ⟨hfields, hclean, -⟩ := fullClean_eq_ok.1 (h.contract details hdetails)
  exact ⟨hfields, hclean⟩

/-! ## The form sent back -/

/-- the initial values of a form without a contract -/
def plainData (db : Db) (account : ℕ) : FormData :=
  .ofAccount (db.account account) ((db.account account).savingsAnnualInterestRate.map shownPercent)

/-- the initial values of a form with a contract -/
def contractData (db : Db) (account : ℕ) (details : FixedTermDetails) : FormData :=
  (plainData db account).withContract details.toFixedTermDraft (shownPercent details.annualInterestRate)

theorem Stored.savingsPercent (h : Stored tables db columns account) :
    initialSavingsPercent (db.account account) =
      .ok ((db.account account).savingsAnnualInterestRate.map shownPercent) := by
  unfold initialSavingsPercent
  cases hrate : (db.account account).savingsAnnualInterestRate with
  | none => rfl
  | some rate =>
    obtain ⟨-, h0, -, hfits⟩ := h.savings_rate rate hrate
    dsimp only
    rw [quantizePercent_stored h0 hfits]
    rfl

theorem Stored.initialData_plain (h : Stored tables db columns account)
    (hplain : (if (db.account account).accountType = .fixedTerm then db.fixedTerm account else none) = none) :
    initialData db account = .ok (plainData db account) := by
  unfold initialData
  simp only [h.savingsPercent, hplain, Bind.bind, Except.bind]
  rfl

/-- a stored contract belongs to a fixed-term account, within the form's own bounds -/
theorem Stored.contractBounds (h : Stored tables db columns account) {details : FixedTermDetails}
    (hdetails : db.fixedTerm account = some details) :
    (db.account account).accountType = .fixedTerm ∧ FitsDecimal 12 8 details.annualInterestRate ∧
      ¬badPrincipal details.principal ∧ details.principal ≠ 1 / 10000 := by
  obtain ⟨hfields, hclean⟩ := h.terms hdetails
  have hbounds := raised_eq_nil.1 hfields
  have hterms := errorsOf_eq_nil.1 hclean
  simp only [List.forall_mem_cons, decide_eq_false_iff_not, not_not] at hbounds
  obtain ⟨hprincipal, hprincipalFits, -, hrateFits, -⟩ := hbounds
  have htype := hterms (decide ((db.account account).accountType ≠ .fixedTerm), "account",
    .text "Fixed-term details require a Fixed Term Deposit account.") (by simp)
  have hbound : (1 : ℚ) / 10000 < principalBound := by
    unfold principalBound
    norm_num
  refine ⟨not_not.1 (of_decide_eq_false htype), hrateFits, not_or.2 ⟨?_, not_not.2 hprincipalFits⟩, ?_⟩
  · exact not_lt.2 (hbound.le.trans (not_lt.1 hprincipal))
  · exact (hbound.trans_le (not_lt.1 hprincipal)).ne'

theorem Stored.initialData_contract (h : Stored tables db columns account) {details : FixedTermDetails}
    (hdetails : db.fixedTerm account = some details) :
    initialData db account = .ok (contractData db account details) := by
  obtain ⟨htype, hrate, -⟩ := h.contractBounds hdetails
  unfold initialData
  simp only [h.savingsPercent, if_pos htype, hdetails, quantizePercent_stored details.constraints.rate_nonneg hrate,
    Bind.bind, Except.bind]
  rfl

/-- the form of the account's owner -/
def ownerForm (db : Db) (account : ℕ) (data : FormData) : FinancialAccountForm :=
  ⟨(db.account account).owner, some account, data⟩

theorem Stored.savings_ok (h : Stored tables db columns account) :
    ∀ percent ∈ (db.account account).savingsAnnualInterestRate.map shownPercent, ¬badSavingsRate percent := by
  intro percent hpercent
  obtain ⟨rate, hrate, rfl⟩ := Option.mem_map.1 hpercent
  obtain ⟨-, h0, h1, -⟩ := h.savings_rate rate hrate
  have hle := shownPercent_le (n := 1) (by exact_mod_cast h1)
  have hnonneg := shownPercent_nonneg h0
  push_cast at hle
  refine not_or.2 ⟨not_lt.2 hnonneg, not_or.2 ⟨not_lt.2 (by linarith), not_not.2 ⟨shownPercent_places rate, ?_⟩⟩⟩
  rw [abs_of_nonneg hnonneg]
  norm_num
  linarith

theorem Stored.rate_ok (h : Stored tables db columns account) {details : FixedTermDetails}
    (hdetails : db.fixedTerm account = some details) : ¬badFixedRate (shownPercent details.annualInterestRate) := by
  obtain ⟨-, hrate, -⟩ := h.contractBounds hdetails
  have hnonneg := shownPercent_nonneg details.constraints.rate_nonneg
  have hle : shownPercent details.annualInterestRate ≤ 10000 * 100 :=
    shownPercent_le (n := 10000) (by exact_mod_cast (abs_lt.1 hrate.2).2.le)
  refine not_or.2 ⟨not_lt.2 hnonneg, not_not.2 ⟨shownPercent_places _, ?_⟩⟩
  rw [abs_of_nonneg hnonneg]
  norm_num
  linarith

theorem Stored.fieldErrors_plain (h : Stored tables db columns account) :
    (ownerForm db account (plainData db account).parsed).fieldErrors db = [] ↔
      strip (db.account account).name ≠ "" := by
  have hlength := (strip_length_le (db.account account).name).trans h.name_length
  rw [fieldErrors_eq_nil_iff]
  refine ⟨fun hvalid => hvalid.1, fun hname => ⟨hname, hlength, ?_⟩⟩
  constructor
  case account_type => exact Option.some_ne_none _
  case currency => exact Option.some_ne_none _
  case savings_rate => exact h.savings_ok
  case principal => exact fun _ hx => nomatch hx
  case rate => exact fun _ hx => nomatch hx
  case interest_destination => exact fun _ hi => nomatch hi
  case maturity_destination => exact fun _ hi => nomatch hi
  case funding => exact fun _ hi => nomatch hi

/-- a destination of the stored contract is a choice of the form while it is active -/
theorem Stored.choice_iff (h : Stored tables db columns account) {details : FixedTermDetails}
    (hdetails : db.fixedTerm account = some details) (data : FormData) {i : ℕ}
    (hi : i ∈ details.interestDestinationAccount ∨ i ∈ details.maturityDestinationAccount) :
    (ownerForm db account data).choice db i ↔ activeAccount db i := by
  obtain ⟨-, hclean⟩ := h.terms hdetails
  have hchecks : ∀ field : String, ∀ destination : Option ℕ, i ∈ destination →
      (∀ check ∈ destinationChecks db account field destination, check.1 = false) →
      (db.account i).owner = (db.account account).owner ∧ i ≠ account := by
    intro field destination hmem hnone
    have howner := of_decide_eq_false (hnone _ List.mem_cons_self)
    have hself := of_decide_eq_false (hnone _ (List.mem_cons_of_mem _ List.mem_cons_self))
    push Not at howner hself
    exact ⟨howner i hmem, hself i hmem (howner i hmem)⟩
  have hall := errorsOf_eq_nil.1 hclean
  simp only [List.forall_mem_append] at hall
  obtain ⟨⟨⟨-, hinterest⟩, hmaturity⟩, -⟩ := hall
  have hown : (db.account i).owner = (db.account account).owner ∧ i ≠ account := by
    rcases hi with hi | hi
    · exact hchecks _ _ hi hinterest
    · exact hchecks _ _ hi hmaturity
  refine ⟨fun hchoice => ⟨hchoice.1, hchoice.2.2.1⟩, fun hactive => ⟨hactive.1, hown.1, hactive.2, ?_⟩⟩
  exact fun hsame => hown.2 (Option.some_inj.1 hsame).symm

theorem Stored.fieldErrors_contract (h : Stored tables db columns account) {details : FixedTermDetails}
    (hdetails : db.fixedTerm account = some details) :
    (ownerForm db account (contractData db account details).parsed).fieldErrors db = [] ↔
      strip (db.account account).name ≠ "" ∧ (∀ i ∈ details.interestDestinationAccount, activeAccount db i) ∧
        ∀ i ∈ details.maturityDestinationAccount, activeAccount db i := by
  have hlength := (strip_length_le (db.account account).name).trans h.name_length
  obtain ⟨-, -, hprincipal, -⟩ := h.contractBounds hdetails
  rw [fieldErrors_eq_nil_iff]
  refine ⟨?_, ?_⟩
  · rintro ⟨hname, -, hvalid⟩
    exact ⟨hname, fun i hi => (h.choice_iff hdetails _ (Or.inl hi)).1 (hvalid.interest_destination i hi),
      fun i hi => (h.choice_iff hdetails _ (Or.inr hi)).1 (hvalid.maturity_destination i hi)⟩
  · rintro ⟨hname, hinterest, hmaturity⟩
    refine ⟨hname, hlength, ?_⟩
    constructor
    case account_type => exact Option.some_ne_none _
    case currency => exact Option.some_ne_none _
    case savings_rate => exact h.savings_ok
    case principal => rintro _ ⟨⟩; exact hprincipal
    case rate => rintro _ ⟨⟩; exact h.rate_ok hdetails
    case interest_destination => exact fun i hi => (h.choice_iff hdetails _ (Or.inl hi)).2 (hinterest i hi)
    case maturity_destination => exact fun i hi => (h.choice_iff hdetails _ (Or.inr hi)).2 (hmaturity i hi)
    case funding => exact fun _ hi => nomatch hi

/-- the form of an account that keeps its type has the errors of its contract fields only -/
theorem cleanData_ownerForm {data c : FormData} (hvalid : (ownerForm db account data).fieldErrors db = [])
    (htype : data.accountType = some (db.account account).accountType) (hfunding : data.fundingAccount = none) :
    (ownerForm db account data).cleanData db = .ok c ↔
      (data.accountType = some .fixedTerm → fixedTermErrors db data.dropSavingsRate = []) ∧
        c = data.dropSavingsRate := by
  have hdata : (ownerForm db account data).cleanedFields db = data := by
    rw [(validFields_of_fieldErrors hvalid).cleanedFields]
    exact congrArg (fun funding => { data with fundingAccount := funding }) hfunding.symm
  have hsame : ¬(ownerForm db account data).typeChanged db data := by
    rintro ⟨i, hi, type, htypeMem, hne⟩
    obtain rfl : account = i := Option.some_inj.1 hi
    exact hne (Option.some_inj.1 (htypeMem.symm.trans htype))
  have hraised : raised [(decide ((ownerForm db account data).typeChanged db data), "account_type",
      Message.text "Account type cannot be changed after creation.")] = [] := by
    simp [raised, hsame]
  rw [FinancialAccountForm.cleanData, hvalid, List.nil_append, FinancialAccountForm.clean, hdata,
    FinancialAccountForm.dropType, if_neg hsame, hraised, List.nil_append]
  dsimp only
  rw [dropSavingsRate_accountType]
  by_cases hfixed : data.accountType = some .fixedTerm
  · rw [if_pos hfixed]
    by_cases hnone : fixedTermErrors db data.dropSavingsRate = []
    · simp [hfixed, hnone, eq_comm]
    · simp [hfixed, hnone]
  · rw [if_neg hfixed, if_pos rfl, Except.ok.injEq]
    exact ⟨fun hc => ⟨fun hf => absurd hf hfixed, hc.symm⟩, fun hc => hc.2.symm⟩

/-! ## What the view saves -/

/-- the row of an account that is sent back, with the savings rate of the cleaned data -/
def savedRow (db : Db) (account : ℕ) (c : FormData) : FinancialAccount :=
  { db.account account with
    name := c.name
    savingsAnnualInterestRate :=
      if (db.account account).accountType = .savings then c.savingsAnnualInterestRatePercent.map (· / 100) else none }

theorem saveAccount_savedRow {c : FormData} (htype : c.accountType = some (db.account account).accountType)
    (hcurrency : c.currency = some (db.account account).currency) :
    saveAccount c (db.account account).owner (db.account account).active = .ok (savedRow db account c) := by
  rw [saveAccount, htype, hcurrency]
  rfl

/-- the view of a form that is sent back returns when the form is valid and its contract can be saved -/
theorem accountUpdateView_ok_iff (hmem : account ∈ db.accountIds) {data : FormData}
    (htype : data.accountType = some (db.account account).accountType)
    (hcurrency : data.currency = some (db.account account).currency) (hfunding : data.fundingAccount = none) :
    accountUpdateView db (db.account account).owner account data = .ok db' ↔
      (ownerForm db account data).fieldErrors db = [] ∧
        (data.accountType = some .fixedTerm → fixedTermErrors db data.dropSavingsRate = []) ∧
        ∃ details, saveFixedTermDetails (updateAccount db account (savedRow db account data.dropSavingsRate))
          data.dropSavingsRate account = .ok (details, db') := by
  have htypeKept := (dropSavingsRate_accountType data).trans htype
  have hcurrencyKept := (dropSavingsRate_currency data).trans hcurrency
  rw [accountUpdateView, if_pos ⟨hmem, rfl⟩]
  simp only [bind_eq_ok, Except.ok.injEq]
  refine ⟨?_, ?_⟩
  · rintro ⟨c, hc, row, hrow, ⟨details, db₁⟩, hsave, hdb⟩
    have hvalid : (ownerForm db account data).fieldErrors db = [] := by
      simp only [FinancialAccountForm.cleanData] at hc
      split_ifs at hc with hnone
      exact (List.append_eq_nil_iff.1 hnone).1
    obtain ⟨hcontract, rfl⟩ := (cleanData_ownerForm hvalid htype hfunding).1 hc
    rw [saveAccount_savedRow htypeKept hcurrencyKept, Except.ok.injEq] at hrow
    obtain rfl : db₁ = db' := hdb
    subst hrow
    exact ⟨hvalid, hcontract, details, hsave⟩
  · rintro ⟨hvalid, hcontract, details, hsave⟩
    exact ⟨_, (cleanData_ownerForm hvalid htype hfunding).2 ⟨hcontract, rfl⟩, _,
      saveAccount_savedRow htypeKept hcurrencyKept, (details, db'), hsave, rfl⟩

/-- without a contract the view saves the shown savings rate, unless the name is blank -/
theorem Stored.update_plain (h : Stored tables db columns account)
    (hfixed : (db.account account).accountType ≠ .fixedTerm) :
    accountUpdateView db (db.account account).owner account (plainData db account).parsed = .ok db' ↔
      strip (db.account account).name ≠ "" ∧
        db' = { updateAccount db account (savedRow db account (plainData db account).parsed.dropSavingsRate) with
          fixedTerm := Function.update db.fixedTerm account none } := by
  have hrow : ((updateAccount db account
      (savedRow db account (plainData db account).parsed.dropSavingsRate)).account account).accountType ≠ .fixedTerm := by
    rw [updateAccount_account, Function.update_self]
    exact hfixed
  have hcontract : (plainData db account).parsed.accountType = some .fixedTerm →
      fixedTermErrors db (plainData db account).parsed.dropSavingsRate = [] :=
    fun htype => absurd (Option.some_inj.1 htype) hfixed
  rw [accountUpdateView_ok_iff h.account_mem rfl rfl rfl, h.fieldErrors_plain]
  simp only [saveFixedTermDetails, if_pos hrow, Except.ok.injEq, Prod.mk.injEq]
  refine ⟨?_, ?_⟩
  · rintro ⟨hname, -, details, -, rfl⟩
    exact ⟨hname, rfl⟩
  · rintro ⟨hname, rfl⟩
    exact ⟨hname, hcontract, none, rfl, rfl⟩

/-- a fixed-term account without a contract cannot be sent back -/
theorem update_plain_fixedTerm (hmem : account ∈ db.accountIds)
    (hfixed : (db.account account).accountType = .fixedTerm) :
    accountUpdateView db (db.account account).owner account (plainData db account).parsed ≠ .ok db' := by
  rw [ne_eq, accountUpdateView_ok_iff hmem rfl rfl rfl]
  rintro ⟨-, hcontract, -⟩
  have hnone := hcontract (congrArg some hfixed)
  obtain ⟨terms, -, hprincipal, -⟩ := fixedTermErrors_eq_nil hnone
  rw [dropSavingsRate_congr FormData.fixedPrincipal fun _ => rfl] at hprincipal
  cases hprincipal

/-- the contract as the form sends it back -/
def sentTerms (details : FixedTermDraft) : FixedTermDraft :=
  { details with
    annualInterestRate := shownPercent details.annualInterestRate / 100
    earlyWithdrawalPenaltyNotes := strip details.earlyWithdrawalPenaltyNotes }

theorem sentTerms_eq_iff (details : FixedTermDraft) :
    sentTerms details = details ↔ HasPlaces 4 details.annualInterestRate ∧
      strip details.earlyWithdrawalPenaltyNotes = details.earlyWithdrawalPenaltyNotes := by
  rw [← shownPercent_div_iff]
  refine ⟨fun h => ?_, fun h => ?_⟩
  · exact ⟨congrArg FixedTermDraft.annualInterestRate h, congrArg FixedTermDraft.earlyWithdrawalPenaltyNotes h⟩
  · obtain ⟨hrate, hnotes⟩ := h
    rw [sentTerms, hrate, hnotes]

theorem sentTerms_constraints (details : FixedTermDetails) : (sentTerms details.toFixedTermDraft).Constraints where
  principal_pos := details.constraints.principal_pos
  rate_nonneg := div_nonneg (shownPercent_nonneg details.constraints.rate_nonneg) (by norm_num)
  maturity_after_start := details.constraints.maturity_after_start

/-- the shown rate is the only term that a stored contract may not take back -/
theorem Stored.cleanFields_sentTerms (h : Stored tables db columns account) {details : FixedTermDetails}
    (hdetails : db.fixedTerm account = some details) :
    FixedTermDraft.cleanFields (sentTerms details.toFixedTermDraft) = [] ↔ details.annualInterestRate < 9999.99995 := by
  have hshown : shownPercent details.annualInterestRate / 100 * 100 = shownPercent details.annualInterestRate :=
    div_mul_cancel₀ _ (by norm_num)
  have hfits : FitsDecimal 12 8 (shownPercent details.annualInterestRate / 100) ↔
      details.annualInterestRate < 9999.99995 := by
    rw [rate_fits_iff (by rw [hshown]; exact h.rate_ok hdetails), hshown, shownPercent_lt_iff]
  obtain ⟨hfields, -⟩ := h.terms hdetails
  rw [FixedTermDraft.cleanFields, raised_eq_nil] at hfields ⊢
  simp only [List.forall_mem_cons, decide_eq_false_iff_not, not_not] at hfields ⊢
  obtain ⟨hprincipal, hprincipalFits, -, -, hlast⟩ := hfields
  refine ⟨fun hc => hfits.1 hc.2.2.2.1, fun hrate => ⟨hprincipal, hprincipalFits, ?_, hfits.2 hrate, hlast⟩⟩
  exact not_lt.2 (sentTerms_constraints details).rate_nonneg

/-- a new name and a new rate are nothing to the checks of `clean` -/
theorem clean_sentTerms {dbx : Db} (hsame : ∀ i, (dbx.account i).owner = (db.account i).owner ∧
    (dbx.account i).accountType = (db.account i).accountType) (details : FixedTermDraft) :
    FixedTermDraft.clean dbx account (sentTerms details) = FixedTermDraft.clean db account details := by
  simp only [FixedTermDraft.clean, destinationChecks, (hsame _).1, (hsame _).2]
  rfl

theorem Stored.fullClean_sentTerms (h : Stored tables db columns account) {details : FixedTermDetails}
    (hdetails : db.fixedTerm account = some details) {dbx : Db}
    (hsame : ∀ i, (dbx.account i).owner = (db.account i).owner ∧
      (dbx.account i).accountType = (db.account i).accountType) (saved : FixedTermDetails) :
    FixedTermDraft.fullClean dbx account (sentTerms details.toFixedTermDraft) = .ok saved ↔
      details.annualInterestRate < 9999.99995 ∧ saved.toFixedTermDraft = sentTerms details.toFixedTermDraft := by
  obtain ⟨-, hclean⟩ := h.terms hdetails
  rw [fullClean_eq_ok, clean_sentTerms hsame, h.cleanFields_sentTerms hdetails, and_iff_right hclean]

theorem Stored.fixedTermErrors_contract (h : Stored tables db columns account) {details : FixedTermDetails}
    (hdetails : db.fixedTerm account = some details) :
    fixedTermErrors db (contractData db account details).parsed.dropSavingsRate = [] := by
  obtain ⟨htype, -⟩ := h.contractBounds hdetails
  obtain ⟨-, hclean⟩ := h.terms hdetails
  have hchecks := errorsOf_eq_nil.1 hclean
  simp only [List.forall_mem_append, List.forall_mem_cons, decide_eq_false_iff_not] at hchecks
  obtain ⟨⟨⟨⟨-, hdates, hcompound, -⟩, -⟩, -⟩, hpaid, -⟩ := hchecks
  have hdata : (contractData db account details).parsed.dropSavingsRate =
      { (contractData db account details).parsed with savingsAnnualInterestRatePercent := none } := by
    rw [FormData.dropSavingsRate, if_neg]
    exact fun hsavings => AccountType.noConfusion (htype.symm.trans (Option.some_inj.1 hsavings))
  rw [fixedTermErrors, raised_eq_nil, hdata]
  simp only [List.forall_mem_cons, decide_eq_false_iff_not, List.not_mem_nil, false_implies, implies_true, and_true]
  refine ⟨Option.some_ne_none _, Option.some_ne_none _, Option.some_ne_none _, Option.some_ne_none _,
    Option.some_ne_none _, Option.some_ne_none _, Option.some_ne_none _, Option.some_ne_none _, ?_, ?_, ?_, ?_⟩
  · rintro ⟨start, ⟨⟩, maturity, ⟨⟩, hle⟩
    exact hdates hle
  · exact fun hmissing => hcompound ⟨Option.some_inj.1 hmissing.1, hmissing.2⟩
  · exact fun hmissing => hpaid ⟨Option.some_inj.1 hmissing.1, hmissing.2⟩
  · rintro ⟨i, ⟨⟩, -⟩

/-- the contract of a row that exists is cleaned, not inserted -/
theorem saveFixedTermDetails_existing {dbx : Db} {c : FormData} {terms : FixedTermDraft}
    (hfixed : (dbx.account account).accountType = .fixedTerm) (hexists : dbx.fixedTerm account ≠ none)
    (hterms : c.terms = .ok terms) :
    (∃ details, saveFixedTermDetails dbx c account = .ok (details, db')) ↔
      ∃ saved, FixedTermDraft.fullClean dbx account terms = .ok saved ∧
        db' = { dbx with fixedTerm := Function.update dbx.fixedTerm account (some saved) } := by
  have hsave : saveFixedTermDetails dbx c account = FixedTermDraft.fullClean dbx account terms >>= fun saved =>
      .ok (some saved, { dbx with fixedTerm := Function.update dbx.fixedTerm account (some saved) }) := by
    rw [saveFixedTermDetails, if_neg (not_not.2 hfixed), hterms]
    exact if_neg fun hinsert => hexists hinsert.1
  simp only [hsave, bind_eq_ok, Except.ok.injEq, Prod.mk.injEq]
  refine ⟨?_, ?_⟩
  · rintro ⟨details, saved, hsaved, -, hdb⟩
    exact ⟨saved, hsaved, hdb.symm⟩
  · rintro ⟨saved, hsaved, hdb⟩
    exact ⟨some saved, saved, hsaved, rfl, hdb.symm⟩

/-- with a contract the view saves what the form shows, unless it refuses the initial values -/
theorem Stored.update_contract (h : Stored tables db columns account) {details : FixedTermDetails}
    (hdetails : db.fixedTerm account = some details) :
    accountUpdateView db (db.account account).owner account (contractData db account details).parsed = .ok db' ↔
      (strip (db.account account).name ≠ "" ∧ (∀ i ∈ details.interestDestinationAccount, activeAccount db i) ∧
        ∀ i ∈ details.maturityDestinationAccount, activeAccount db i) ∧ details.annualInterestRate < 9999.99995 ∧
      ∃ saved : FixedTermDetails, saved.toFixedTermDraft = sentTerms details.toFixedTermDraft ∧
        db' = { updateAccount db account (savedRow db account (contractData db account details).parsed.dropSavingsRate)
          with fixedTerm := Function.update db.fixedTerm account (some saved) } := by
  obtain ⟨htype, -⟩ := h.contractBounds hdetails
  have hterms : (contractData db account details).parsed.dropSavingsRate.terms =
      .ok (sentTerms details.toFixedTermDraft) :=
    dropSavingsRate_congr FormData.terms (fun _ => rfl) _
  set row := savedRow db account (contractData db account details).parsed.dropSavingsRate with hrow
  have hsame : ∀ i, ((updateAccount db account row).account i).owner = (db.account i).owner ∧
      ((updateAccount db account row).account i).accountType = (db.account i).accountType := by
    intro i
    by_cases hi : i = account
    · rw [hi, updateAccount_account, Function.update_self]
      exact ⟨rfl, rfl⟩
    · rw [updateAccount_account, Function.update_of_ne hi]
      exact ⟨rfl, rfl⟩
  have hfixed : ((updateAccount db account row).account account).accountType = .fixedTerm := (hsame account).2.trans htype
  have hexists : (updateAccount db account row).fixedTerm account ≠ none := by
    rw [updateAccount_fixedTerm, hdetails]
    exact Option.some_ne_none _
  rw [accountUpdateView_ok_iff h.account_mem rfl rfl rfl, h.fieldErrors_contract hdetails,
    saveFixedTermDetails_existing hfixed hexists hterms]
  simp only [h.fullClean_sentTerms hdetails hsame, h.fixedTermErrors_contract hdetails, implies_true, true_and]
  refine and_congr_right fun _ => ⟨?_, ?_⟩
  · rintro ⟨saved, ⟨hrate, hsaved⟩, hdb⟩
    exact ⟨hrate, saved, hsaved, hdb⟩
  · rintro ⟨hrate, saved, hsaved, hdb⟩
    exact ⟨saved, ⟨hrate, hsaved⟩, hdb⟩

/-! ## Unchanged edits -/

theorem columnErrors_stored (h : Stored tables db columns account) :
    columnErrors tables (db.account account).owner columns columns.parsed = [] ↔
      ∀ i ∈ columns.institution, tables.institutionChoice (db.account account).owner i := by
  have hlength := (strip_length_le columns.accountNumberLast4).trans h.last4_length
  have htreatment : ∀ i ∈ columns.returnTaxTreatment,
      tables.treatmentChoice (db.account account).owner columns.returnTaxTreatment i := by
    intro i hi
    obtain ⟨row, hrow, howner⟩ := h.treatment i hi
    exact ⟨row, hrow, howner, Or.inr hi⟩
  rw [columnErrors, raised_eq_nil]
  simp only [List.forall_mem_cons, decide_eq_false_iff_not, List.not_mem_nil, false_implies, implies_true, and_true]
  refine ⟨fun hc => ?_, fun hinstitution => ⟨?_, not_lt.2 hlength, ?_⟩⟩
  · intro i hi
    by_contra hno
    exact hc.1 ⟨i, hi, hno⟩
  · rintro ⟨i, hi, hno⟩
    exact hno (hinstitution i hi)
  · rintro ⟨i, hi, hno⟩
    exact hno (htreatment i hi)

theorem Stored.submitInitial_ok (h : Stored tables db columns account) {data : FormData}
    (hdata : initialData db account = .ok data) :
    (∃ columns', submitInitial tables db columns account = .ok (db', columns')) ↔
      (∀ i ∈ columns.institution, tables.institutionChoice (db.account account).owner i) ∧
        accountUpdateView db (db.account account).owner account data.parsed = .ok db' := by
  simp only [submitInitial, hdata, bind_eq_ok, Except.ok.injEq, exists_eq_left', accountEditView_ok,
    columnErrors_stored h, exists_and_left, exists_eq, and_true]

theorem Stored.savings_none (h : Stored tables db columns account)
    (htype : (db.account account).accountType ≠ .savings) : (db.account account).savingsAnnualInterestRate = none :=
  Option.eq_none_iff_forall_not_mem.2 fun rate hrate => htype (h.savings_rate rate hrate).1

/-- without a contract, what is saved is what was stored exactly when the savings rate survives -/
theorem Stored.keeps_plain (h : Stored tables db columns account) (hnone : db.fixedTerm account = none) :
    KeepsTerms db { updateAccount db account (savedRow db account (plainData db account).parsed.dropSavingsRate) with
      fixedTerm := Function.update db.fixedTerm account none } account ↔ ShowsAll db account := by
  have hsavings : (savedRow db account (plainData db account).parsed.dropSavingsRate).savingsAnnualInterestRate =
      (db.account account).savingsAnnualInterestRate.map fun rate => shownPercent rate / 100 := by
    by_cases htype : (db.account account).accountType = .savings
    · have hkind : (plainData db account).parsed.dropSavingsRate = (plainData db account).parsed :=
        if_pos (congrArg some htype)
      rw [hkind, savedRow, if_pos htype]
      exact Option.map_map _ _ _
    · rw [savedRow, if_neg htype, h.savings_none htype]
      rfl
  have hkept : ((db.account account).savingsAnnualInterestRate.map fun rate => shownPercent rate / 100) =
      (db.account account).savingsAnnualInterestRate ↔
        ∀ rate ∈ (db.account account).savingsAnnualInterestRate, HasPlaces 4 rate := by
    cases (db.account account).savingsAnnualInterestRate with
    | none => simp
    | some rate => simp [shownPercent_div_iff]
  simp only [KeepsTerms, updateAccount_account, Function.update_self, hsavings, hkept, hnone, and_true]
  exact ⟨fun hplaces => ⟨hplaces, fun _ hd => (nomatch hnone.symm.trans hd), fun _ hd => (nomatch hnone.symm.trans hd)⟩,
    fun hshows => hshows.savings_rate⟩

theorem Stored.keeps_contract (h : Stored tables db columns account) {details saved : FixedTermDetails}
    (hdetails : db.fixedTerm account = some details)
    (hsaved : saved.toFixedTermDraft = sentTerms details.toFixedTermDraft) :
    KeepsTerms db { updateAccount db account
        (savedRow db account (contractData db account details).parsed.dropSavingsRate) with
      fixedTerm := Function.update db.fixedTerm account (some saved) } account ↔ ShowsAll db account := by
  obtain ⟨htype, -⟩ := h.contractBounds hdetails
  have hnosavings := h.savings_none (by rw [htype]; decide)
  have hsame : saved = details ↔ sentTerms details.toFixedTermDraft = details.toFixedTermDraft := by
    rw [← hsaved]
    refine ⟨fun heq => congrArg _ heq, fun heq => ?_⟩
    obtain ⟨terms, hterms⟩ := saved
    obtain ⟨terms', hterms'⟩ := details
    obtain rfl : terms = terms' := heq
    rfl
  simp only [KeepsTerms, updateAccount_account, Function.update_self, savedRow, htype, hnosavings, hdetails,
    Option.some_inj, hsame, sentTerms_eq_iff]
  refine ⟨?_, ?_⟩
  · rintro ⟨-, hrate, hnotes⟩
    constructor
    case savings_rate => exact fun _ hr => (nomatch hnosavings.symm.trans hr)
    case rate => exact fun d hd => Option.some_inj.1 (hdetails.symm.trans hd) ▸ hrate
    case notes => exact fun d hd => Option.some_inj.1 (hdetails.symm.trans hd) ▸ hnotes
  · intro hshows
    exact ⟨if_neg (by decide), hshows.rate details hdetails, hshows.notes details hdetails⟩

theorem takesInitial_contract {details : FixedTermDetails} (hdetails : db.fixedTerm account = some details) :
    TakesInitial tables db columns account ↔
      (∀ i ∈ columns.institution, tables.institutionChoice (db.account account).owner i) ∧
        (strip (db.account account).name ≠ "" ∧ (∀ i ∈ details.interestDestinationAccount, activeAccount db i) ∧
          ∀ i ∈ details.maturityDestinationAccount, activeAccount db i) ∧ details.annualInterestRate < 9999.99995 := by
  refine ⟨?_, ?_⟩
  · intro h
    exact ⟨h.institution, ⟨h.name, h.interest_destination details hdetails, h.maturity_destination details hdetails⟩,
      h.rate details hdetails⟩
  · rintro ⟨hinstitution, ⟨hname, hinterest, hmaturity⟩, hrate⟩
    have hsame : ∀ d ∈ db.fixedTerm account, details = d := fun d hd => Option.some_inj.1 (hdetails.symm.trans hd)
    constructor
    case name => exact hname
    case institution => exact hinstitution
    case interest_destination => exact fun d hd => hsame d hd ▸ hinterest
    case maturity_destination => exact fun d hd => hsame d hd ▸ hmaturity
    case rate => exact fun d hd => hsame d hd ▸ hrate

theorem takesInitial_plain (hnone : db.fixedTerm account = none) :
    TakesInitial tables db columns account ↔
      (∀ i ∈ columns.institution, tables.institutionChoice (db.account account).owner i) ∧
        strip (db.account account).name ≠ "" := by
  refine ⟨fun h => ⟨h.institution, h.name⟩, fun h => ?_⟩
  constructor
  case name => exact h.2
  case institution => exact h.1
  all_goals exact fun _ hd => nomatch hnone.symm.trans hd

/-- a form that takes its initial values reaches a database with P, one that refuses them changes nothing -/
theorem keepsTerms_iff_of_saves {P : Db → Prop}
    (hok : ∀ db', (∃ columns', submitInitial tables db columns account = .ok (db', columns')) ↔
      TakesInitial tables db columns account ∧ P db')
    (hsaves : ∃ db', P db') (hkeeps : ∀ db', P db' → (KeepsTerms db db' account ↔ ShowsAll db account)) :
    KeepsTerms db (afterEdit tables db columns account) account ↔
      ShowsAll db account ∨ ¬TakesInitial tables db columns account := by
  unfold afterEdit
  by_cases htakes : TakesInitial tables db columns account
  · obtain ⟨db', hdb⟩ := hsaves
    obtain ⟨columns', hsubmit⟩ := (hok db').2 ⟨htakes, hdb⟩
    rw [hsubmit]
    exact (hkeeps db' hdb).trans ⟨Or.inl, fun hc => hc.resolve_right (not_not.2 htakes)⟩
  · refine iff_of_true ?_ (Or.inr htakes)
    cases hsubmit : submitInitial tables db columns account with
    | ok result => exact absurd ((hok result.1).1 ⟨result.2, hsubmit⟩).1 htakes
    | error e => exact ⟨rfl, rfl⟩

/-- **An unchanged edit changes nothing** exactly when the form shows all that is stored, or refuses what it shows. So for
every stored account of both kinds. -/
theorem edit_unchanged_iff (h : Stored tables db columns account) :
    KeepsTerms db (afterEdit tables db columns account) account ↔
      ShowsAll db account ∨ ¬TakesInitial tables db columns account := by
  cases hcontract : db.fixedTerm account with
  | some details =>
    apply keepsTerms_iff_of_saves (P := fun db' => ∃ saved : FixedTermDetails,
      saved.toFixedTermDraft = sentTerms details.toFixedTermDraft ∧
      db' = { updateAccount db account (savedRow db account (contractData db account details).parsed.dropSavingsRate)
        with fixedTerm := Function.update db.fixedTerm account (some saved) })
    · intro db'
      rw [h.submitInitial_ok (h.initialData_contract hcontract), h.update_contract hcontract,
        takesInitial_contract hcontract]
      simp only [and_assoc]
    · exact ⟨_, ⟨sentTerms details.toFixedTermDraft, sentTerms_constraints details⟩, rfl, rfl⟩
    · rintro db' ⟨saved, hsaved, rfl⟩
      exact h.keeps_contract hcontract hsaved
  | none =>
    have hdata := h.initialData_plain (by rw [hcontract, ite_self])
    by_cases hfixed : (db.account account).accountType = .fixedTerm
    · -- a fixed-term account without a contract: its form asks for one
      have hnosavings := h.savings_none (by rw [hfixed]; decide)
      have hshows : ShowsAll db account := by
        constructor
        case savings_rate => exact fun _ hr => nomatch hnosavings.symm.trans hr
        all_goals exact fun _ hd => nomatch hcontract.symm.trans hd
      refine iff_of_true ?_ (Or.inl hshows)
      unfold afterEdit
      cases hsubmit : submitInitial tables db columns account with
      | ok result =>
        exact absurd ((h.submitInitial_ok hdata).1 ⟨result.2, hsubmit⟩).2 (update_plain_fixedTerm h.account_mem hfixed)
      | error e => exact ⟨rfl, rfl⟩
    · apply keepsTerms_iff_of_saves (P := fun db' => db' =
        { updateAccount db account (savedRow db account (plainData db account).parsed.dropSavingsRate) with
          fixedTerm := Function.update db.fixedTerm account none })
      · intro db'
        rw [h.submitInitial_ok hdata, h.update_plain hfixed, takesInitial_plain hcontract, and_assoc]
      · exact ⟨_, rfl⟩
      · rintro db' rfl
        exact h.keeps_plain hcontract

/-! ## A rate of 3.255% -/

/-- one savings account, at a rate of 0.03255 -/
def savingsDb : Db :=
  { Db.init (fun _ => "EUR") (fun _ => ⟨"", 0, true⟩) with
    account := fun _ => ⟨1, "Savings", .savings, 0, true, some (3255 / 100000)⟩
    accountIds := [0]
    nextAccount := 1 }

def noChoices : ChoiceTables := ⟨fun _ => none, fun _ => none⟩

def blankColumns : AccountColumns := ⟨none, "", none, "", none⟩

theorem savingsDb_stored : Stored noChoices savingsDb blankColumns 0 where
  account_mem := by decide
  name_ne := by decide
  name_length := by decide
  savings_rate := by
    rintro _ ⟨⟩
    exact ⟨rfl, by norm_num, by norm_num, by decide +kernel⟩
  last4_length := by decide
  treatment := fun _ hi => nomatch hi
  contract := fun _ hd => nomatch hd

/-- it is shown as 3.26% and saved as 0.0326 -/
theorem savingsRate_rounded :
    Stored noChoices savingsDb blankColumns 0 ∧
      ¬KeepsTerms savingsDb (afterEdit noChoices savingsDb blankColumns 0) 0 :=
  ⟨savingsDb_stored, by decide +kernel⟩

theorem edit_unchanged_iff_savingsDb :
    KeepsTerms savingsDb (afterEdit noChoices savingsDb blankColumns 0) 0 ↔
      ShowsAll savingsDb 0 ∨ ¬TakesInitial noChoices savingsDb blankColumns 0 :=
  edit_unchanged_iff savingsDb_stored

end Vault67.Accounts
