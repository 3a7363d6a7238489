/-
The contract terms of a valid `FinancialAccountForm`, against `FixedTermDetails.full_clean`.

The form and the contract's own validation check the same things with different bounds: the form compares the principal
with the decimal 0.0001 where the contract compares it with the double, and the form takes a rate of ten digits in
percent where the contract's column takes four digits before the point.

- `validContract_of_cleanData`: what a valid form says about the terms.
- `raises_fullClean_iff`: when the contract's validation refuses them.
- `raises_saveFixedTermDetails_iff`: when saving them raises a ValidationError.
-/
import Mathlib.Tactic
import Vault67.Accounts.Forms

namespace Vault67

/-- a ValidationError -/
def Error.isValidation : Error → Prop
  | .validation _ => True
  | _ => False

namespace Accounts

open Fallible Rounding

variable {db : Db} {f : FinancialAccountForm} {c : FormData} {terms : FixedTermDraft} {account : ℕ}

/-! ## Valid forms -/

theorem filter_eq_self {α : Type} {p : α → Prop} [DecidablePred p] {x : Option α} (h : ∀ a ∈ x, p a) :
    x.filter (fun a => decide (p a)) = x := by
  cases x with
  | none => rfl
  | some a => simpa using h a rfl

/-- the field checks of a valid form -/
structure ValidFields (db : Db) (f : FinancialAccountForm) : Prop where
  account_type : f.data.accountType ≠ none
  currency : f.data.currency ≠ none
  savings_rate : ∀ x ∈ f.data.savingsAnnualInterestRatePercent, ¬badSavingsRate x
  principal : ∀ x ∈ f.data.fixedPrincipal, ¬badPrincipal x
  rate : ∀ x ∈ f.data.fixedAnnualRatePercent, ¬badFixedRate x
  interest_destination : ∀ i ∈ f.data.fixedInterestDestinationAccount, f.choice db i
  maturity_destination : ∀ i ∈ f.data.fixedMaturityDestinationAccount, f.choice db i
  funding : ∀ i ∈ f.funding, f.choice db i

theorem fieldErrors_eq_nil_iff :
    f.fieldErrors db = [] ↔ f.data.name ≠ "" ∧ f.data.name.length ≤ 120 ∧ ValidFields db f := by
  rw [FinancialAccountForm.fieldErrors, raised_eq_nil]
  simp only [List.forall_mem_cons, decide_eq_false_iff_not, List.not_mem_nil, false_implies, implies_true, and_true]
  refine ⟨?_, ?_⟩
  · rintro ⟨hname, hlength, htype, hcurrency, hsavings, hprincipal, hrate, hinterest, hmaturity, hfunding⟩
    push Not at htype hcurrency hsavings hprincipal hrate hinterest hmaturity hfunding
    exact ⟨hname, not_lt.1 hlength, htype, hcurrency, hsavings, hprincipal, hrate, hinterest, hmaturity, hfunding⟩
  · rintro ⟨hname, hlength, hvalid⟩
    push Not
    exact ⟨hname, hlength, hvalid.account_type, hvalid.currency, hvalid.savings_rate, hvalid.principal, hvalid.rate,
      hvalid.interest_destination, hvalid.maturity_destination, hvalid.funding⟩

theorem validFields_of_fieldErrors (h : f.fieldErrors db = []) : ValidFields db f := (fieldErrors_eq_nil_iff.1 h).2.2

/-- a valid form loses no value -/
theorem ValidFields.cleanedFields (h : ValidFields db f) :
    f.cleanedFields db = { f.data with fundingAccount := f.funding } := by
  simp only [FinancialAccountForm.cleanedFields, filter_eq_self h.savings_rate, filter_eq_self h.principal,
    filter_eq_self h.rate, filter_eq_self h.interest_destination, filter_eq_self h.maturity_destination,
    filter_eq_self h.funding]

/-- the cleaned data of a valid form -/
theorem cleanData_ok (h : f.cleanData db = .ok c) :
    ValidFields db f ∧ c = ({ f.data with fundingAccount := f.funding } : FormData).dropSavingsRate ∧
      (c.accountType = some .fixedTerm → fixedTermErrors db c = []) := by
  simp only [FinancialAccountForm.cleanData] at h
  split_ifs at h with hnone
  cases h
  obtain ⟨hfields, hclean⟩ := List.append_eq_nil_iff.1 hnone
  have hvalid := validFields_of_fieldErrors hfields
  have hsame := FinancialAccountForm.not_typeChanged hclean
  have hdata : (f.clean db).1 = ({ f.data with fundingAccount := f.funding } : FormData).dropSavingsRate := by
    rw [FinancialAccountForm.clean, FinancialAccountForm.dropType, if_neg hsame, hvalid.cleanedFields]
  refine ⟨hvalid, hdata, fun hfixed => ?_⟩
  rw [FinancialAccountForm.clean] at hfixed hclean
  dsimp only at hfixed hclean
  rw [if_pos hfixed] at hclean
  exact (List.append_eq_nil_iff.1 hclean).2

/-- a valid form names a type and a currency -/
theorem saveAccount_returns (h : f.cleanData db = .ok c) (owner : ℕ) (active : Bool) :
    ∃ row, saveAccount c owner active = .ok row ∧ f.data.accountType = some row.accountType := by
  obtain ⟨hvalid, rfl, -⟩ := cleanData_ok h
  obtain ⟨type, htype⟩ := Option.ne_none_iff_exists'.1 hvalid.account_type
  obtain ⟨currency, hcurrency⟩ := Option.ne_none_iff_exists'.1 hvalid.currency
  have hkept := FinancialAccountForm.cleanData_currency h
  rw [hcurrency] at hkept
  have htypeKept : ({ f.data with fundingAccount := f.funding } : FormData).dropSavingsRate.accountType = some type := by
    rw [dropSavingsRate_accountType]
    exact htype
  cases hsave : saveAccount ({ f.data with fundingAccount := f.funding } : FormData).dropSavingsRate owner active with
  | ok row =>
    obtain ⟨-, -, hrow⟩ := saveAccount_ok hsave
    exact ⟨row, rfl, htype.trans (htypeKept.symm.trans hrow)⟩
  | error e => simp [saveAccount, htypeKept, hkept, notNone, Bind.bind, Except.bind] at hsave

/-! ## The contract terms -/

/-- what a valid form says about the contract terms -/
structure ValidContract (db : Db) (f : FinancialAccountForm) (c : FormData) (terms : FixedTermDraft) : Prop where
  terms_eq : c.terms = .ok terms
  principal : f.data.fixedPrincipal = some terms.principal
  percent : f.data.fixedAnnualRatePercent = some (terms.annualInterestRate * 100)
  principal_ok : ¬badPrincipal terms.principal
  percent_ok : ¬badFixedRate (terms.annualInterestRate * 100)
  dates : terms.startDate < terms.maturityDate
  compound : ¬(terms.interestMethod = .compound ∧ terms.compoundingFrequency = none)
  paid_out : ¬(terms.interestDestination = .paidOut ∧ terms.interestDestinationAccount = none)
  interest_destination : ∀ i ∈ terms.interestDestinationAccount, f.choice db i
  maturity_destination : ∀ i ∈ terms.maturityDestinationAccount, f.choice db i
  funding : ∀ i ∈ c.fundingAccount, f.choice db i ∧ ∀ currency ∈ c.currency, (db.account i).currency = currency

theorem fixedTermErrors_eq_nil (h : fixedTermErrors db c = []) :
    ∃ terms, c.terms = .ok terms ∧ c.fixedPrincipal = some terms.principal ∧
      c.fixedAnnualRatePercent = some (terms.annualInterestRate * 100) ∧ terms.startDate < terms.maturityDate ∧
      ¬(terms.interestMethod = .compound ∧ terms.compoundingFrequency = none) ∧
      ¬(terms.interestDestination = .paidOut ∧ terms.interestDestinationAccount = none) ∧
      terms.interestDestinationAccount = c.fixedInterestDestinationAccount ∧
      terms.maturityDestinationAccount = c.fixedMaturityDestinationAccount ∧
      ∀ i ∈ c.fundingAccount, ∀ currency ∈ c.currency, (db.account i).currency = currency := by
  have hchecks := raised_eq_nil.1 h
  simp only [List.forall_mem_cons, decide_eq_false_iff_not] at hchecks
  obtain ⟨hprincipal, hstart, hmaturity, hpercent, hmethod, hpayment, hdestination, hinstruction, hdates, hcompound, hpaid,
    hfunding, -⟩ := hchecks
  obtain ⟨principal, hprincipal⟩ := Option.ne_none_iff_exists'.1 hprincipal
  obtain ⟨start, hstart⟩ := Option.ne_none_iff_exists'.1 hstart
  obtain ⟨maturity, hmaturity⟩ := Option.ne_none_iff_exists'.1 hmaturity
  obtain ⟨percent, hpercent⟩ := Option.ne_none_iff_exists'.1 hpercent
  obtain ⟨method, hmethod⟩ := Option.ne_none_iff_exists'.1 hmethod
  obtain ⟨payment, hpayment⟩ := Option.ne_none_iff_exists'.1 hpayment
  obtain ⟨destination, hdestination⟩ := Option.ne_none_iff_exists'.1 hdestination
  obtain ⟨instruction, hinstruction⟩ := Option.ne_none_iff_exists'.1 hinstruction
  rw [hstart, hmaturity] at hdates
  rw [hmethod] at hcompound
  rw [hdestination] at hpaid
  push Not at hdates hfunding
  refine ⟨_, by
    simp only [FormData.terms, hprincipal, hstart, hmaturity, hpercent, hmethod, hpayment, hdestination, hinstruction,
      notNone, Bind.bind, Except.bind]
    rfl, hprincipal, ?_, hdates start rfl maturity rfl, ?_, ?_, rfl, rfl, hfunding⟩
  · rw [hpercent, div_mul_cancel₀ percent (by norm_num)]
  · exact fun hc => hcompound ⟨congrArg some hc.1, hc.2⟩
  · exact fun hc => hpaid ⟨congrArg some hc.1, hc.2⟩

/-- **The terms of a valid form.** A form without errors for a fixed-term account has contract terms, with its own
values and with accounts of the user as destinations. -/
theorem validContract_of_cleanData (h : f.cleanData db = .ok c) (hfixed : f.data.accountType = some .fixedTerm) :
    ∃ terms, ValidContract db f c terms := by
  obtain ⟨hvalid, hdata, hcontract⟩ := cleanData_ok h
  have hplain : c = { f.data with fundingAccount := f.funding, savingsAnnualInterestRatePercent := none } := by
    rw [hdata, FormData.dropSavingsRate, if_neg (by rw [hfixed]; decide)]
  obtain ⟨terms, hterms, hprincipal, hpercent, hdates, hcompound, hpaid, hinterest, hmaturity, hfunding⟩ :=
    fixedTermErrors_eq_nil (hcontract (by rw [hplain]; exact hfixed))
  rw [hplain] at hprincipal hpercent hinterest hmaturity
  refine ⟨terms, ?_⟩
  constructor
  case terms_eq => exact hterms
  case principal => exact hprincipal
  case percent => exact hpercent
  case principal_ok => exact hvalid.principal _ hprincipal
  case percent_ok => exact hvalid.rate _ hpercent
  case dates => exact hdates
  case compound => exact hcompound
  case paid_out => exact hpaid
  case interest_destination => exact hinterest ▸ hvalid.interest_destination
  case maturity_destination => exact hmaturity ▸ hvalid.maturity_destination
  case funding =>
    intro i hi
    refine ⟨hvalid.funding i ?_, hfunding i hi⟩
    rw [hplain] at hi
    exact hi

/-! ## The contract's own validation -/

/-- what the contract's validation adds to the form's: a rate of a million percent does not fit its column, and the
decimal 0.0001 is below the double -/
def ContractFits (db : Db) (account : ℕ) (data : FormData) : Prop :=
  data.accountType = some .fixedTerm → ∀ principal ∈ data.fixedPrincipal, ∀ percent ∈ data.fixedAnnualRatePercent,
    -- a new contract is inserted before it is validated, and the database refuses such a rate first
    if db.fixedTerm account = none then percent < 10 ^ 6 → principal ≠ 1 / 10000
    else percent < 10 ^ 6 ∧ principal ≠ 1 / 10000

theorem ValidContract.contractFits_iff (h : ValidContract db f c terms) (hfixed : f.data.accountType = some .fixedTerm) :
    ContractFits db account f.data ↔
      if db.fixedTerm account = none then terms.annualInterestRate * 100 < 10 ^ 6 → terms.principal ≠ 1 / 10000
      else terms.annualInterestRate * 100 < 10 ^ 6 ∧ terms.principal ≠ 1 / 10000 := by
  simp only [ContractFits, hfixed, h.principal, h.percent, Option.mem_def, Option.some.injEq, forall_eq',
    forall_true_left]

theorem lt_principalBound_iff {x : ℚ} (h : ¬badPrincipal x) : x < principalBound ↔ x = 1 / 10000 := by
  obtain ⟨hle, hfits⟩ := not_or.1 h
  obtain ⟨n, hn⟩ := hasPlaces_iff.1 (not_not.1 hfits).1
  have hx : x = n / 10000 := by
    rw [← hn]
    norm_num
  refine ⟨?_, ?_⟩
  · intro hlt
    have hlow : (1 : ℚ) ≤ n := by
      rw [hx] at hle
      linarith
    have hhigh : (n : ℚ) < 2 := by
      rw [hx] at hlt
      unfold principalBound at hlt
      linarith
    have hone : n = 1 := by
      have h1 : 1 ≤ n := by exact_mod_cast hlow
      have h2 : n < 2 := by exact_mod_cast hhigh
      omega
    rw [hx, hone]
    norm_num
  · intro heq
    rw [heq]
    unfold principalBound
    norm_num

/-- a rate of the form has four decimals as a fraction -/
theorem rate_places {r : ℚ} (h : ¬badFixedRate (r * 100)) : 0 ≤ r ∧ HasPlaces 8 r := by
  obtain ⟨hneg, hfits⟩ := not_or.1 h
  obtain ⟨n, hn⟩ := hasPlaces_iff.1 (not_not.1 hfits).1
  refine ⟨by linarith, hasPlaces_iff.2 ⟨n * 10 ^ 4, ?_⟩⟩
  push_cast
  rw [← hn]
  ring

theorem rate_fits_iff {r : ℚ} (h : ¬badFixedRate (r * 100)) : FitsDecimal 12 8 r ↔ r * 100 < 10 ^ 6 := by
  obtain ⟨hnonneg, hplaces⟩ := rate_places h
  rw [FitsDecimal, and_iff_right hplaces, abs_of_nonneg hnonneg]
  refine ⟨?_, ?_⟩
  · intro hlt
    norm_num at hlt
    linarith
  · intro hlt
    norm_num
    linarith

theorem ValidContract.constraints (h : ValidContract db f c terms) : terms.Constraints := by
  obtain ⟨hle, -⟩ := not_or.1 h.principal_ok
  exact ⟨by linarith, (rate_places h.percent_ok).1, h.dates⟩

theorem ValidContract.insertable_iff (h : ValidContract db f c terms) :
    FixedTermDraft.insertable terms ↔ terms.annualInterestRate * 100 < 10 ^ 6 := by
  obtain ⟨-, hfits⟩ := not_or.1 h.principal_ok
  obtain ⟨hplaces, hlt⟩ := not_not.1 hfits
  rw [FixedTermDraft.insertable, toPlaces_eq_self halfAway_intCast (hasPlaces_iff.1 hplaces),
    toPlaces_eq_self halfAway_intCast (hasPlaces_iff.1 (rate_places h.percent_ok).2), ← rate_fits_iff h.percent_ok,
    FitsDecimal, and_iff_right (rate_places h.percent_ok).2]
  exact ⟨fun hc => hc.2.1, fun hrate => ⟨hlt, hrate, h.constraints⟩⟩

/-- the contract's account and the accounts that its form offers, as the contract's validation sees them -/
structure OwnChoices (db db' : Db) (f : FinancialAccountForm) (account : ℕ) : Prop where
  account_type : (db'.account account).accountType = .fixedTerm
  owner : ∀ i, f.choice db i → (db'.account i).owner = (db'.account account).owner
  other : ∀ i, f.choice db i → i ≠ account

variable {db' : Db}

theorem ValidContract.clean_eq_nil (h : ValidContract db f c terms) (hown : OwnChoices db db' f account) :
    FixedTermDraft.clean db' account terms = [] := by
  rw [FixedTermDraft.clean, errorsOf_eq_nil]
  have hchoice : ∀ (field : String) (destination : Option ℕ), (∀ i ∈ destination, f.choice db i) →
      ∀ check ∈ destinationChecks db' account field destination, check.1 = false := by
    intro field destination hdestination check hcheck
    simp only [destinationChecks, List.mem_cons, List.not_mem_nil, or_false] at hcheck
    rcases hcheck with rfl | rfl
    · exact decide_eq_false fun hbad => by
        obtain ⟨i, hi, hne⟩ := hbad
        exact hne (hown.owner i (hdestination i hi))
    · exact decide_eq_false fun hbad => by
        obtain ⟨i, hi, -, heq⟩ := hbad
        exact hown.other i (hdestination i hi) heq
  simp only [List.forall_mem_append, List.forall_mem_cons, List.not_mem_nil, false_implies, implies_true, and_true,
    decide_eq_false_iff_not, not_not]
  exact ⟨⟨⟨⟨hown.account_type, not_le.2 h.dates, h.compound⟩, hchoice _ _ h.interest_destination⟩,
    hchoice _ _ h.maturity_destination⟩, h.paid_out⟩

theorem ValidContract.cleanFields_eq_nil_iff (h : ValidContract db f c terms) :
    FixedTermDraft.cleanFields terms = [] ↔ terms.annualInterestRate * 100 < 10 ^ 6 ∧ terms.principal ≠ 1 / 10000 := by
  rw [FixedTermDraft.cleanFields, raised_eq_nil]
  simp only [List.forall_mem_cons, decide_eq_false_iff_not, List.not_mem_nil, false_implies, implies_true, and_true,
    not_not, lt_principalBound_iff h.principal_ok, rate_fits_iff h.percent_ok]
  obtain ⟨-, hfits⟩ := not_or.1 h.principal_ok
  refine ⟨fun hc => ⟨hc.2.2.2, hc.1⟩, fun hc => ⟨hc.2, not_not.1 hfits, ?_, hc.1⟩⟩
  exact not_lt.2 (rate_places h.percent_ok).1

/-- **The contract's validation** refuses the terms of a valid form for its own bounds only, a rate of a million percent
or more and a principal of a ten-thousandth, and else keeps them as they are. -/
theorem ValidContract.fullClean (h : ValidContract db f c terms) (hown : OwnChoices db db' f account) :
    (Raises Error.isValidation (FixedTermDraft.fullClean db' account terms) ↔
      ¬(terms.annualInterestRate * 100 < 10 ^ 6 ∧ terms.principal ≠ 1 / 10000)) ∧
    ∀ details, FixedTermDraft.fullClean db' account terms = .ok details → details.toFixedTermDraft = terms := by
  have hclean : FixedTermDraft.cleanFields terms ++ FixedTermDraft.clean db' account terms = [] ∧ terms.Constraints ↔
      terms.annualInterestRate * 100 < 10 ^ 6 ∧ terms.principal ≠ 1 / 10000 := by
    rw [h.clean_eq_nil hown, List.append_nil, h.cleanFields_eq_nil_iff]
    exact and_iff_left h.constraints
  unfold FixedTermDraft.fullClean
  dsimp only
  split_ifs with hvalid
  · refine ⟨iff_of_false (not_raises_ok _ _) (not_not.2 (hclean.1 hvalid)), fun details hdetails => ?_⟩
    cases hdetails
    rfl
  · refine ⟨iff_of_true (raises_error.2 trivial) (mt hclean.2 hvalid), fun details hdetails => ?_⟩
    cases hdetails

/-- **Saving the contract** raises a ValidationError exactly when its terms are outside the contract's own bounds. -/
theorem ValidContract.saveFixedTermDetails (h : ValidContract db f c terms) (hown : OwnChoices db db' f account)
    (hstored : db'.fixedTerm account = db.fixedTerm account) (hfixed : f.data.accountType = some .fixedTerm) :
    (¬Raises Error.isValidation (saveFixedTermDetails db' c account) ↔ ContractFits db account f.data) ∧
    ∀ saved, Accounts.saveFixedTermDetails db' c account = .ok saved →
      ∃ details : FixedTermDetails, saved.1 = some details ∧ details.toFixedTermDraft = terms ∧
        saved.2.account = db'.account := by
  obtain ⟨hraises, hdetails⟩ := h.fullClean hown
  have hsave : Accounts.saveFixedTermDetails db' c account =
      if db.fixedTerm account = none ∧ ¬FixedTermDraft.insertable terms then .error .database
      else FixedTermDraft.fullClean db' account terms >>= fun details =>
        .ok (some details, { db' with fixedTerm := Function.update db'.fixedTerm account (some details) }) := by
    rw [Accounts.saveFixedTermDetails, if_neg (not_not.2 hown.account_type), h.terms_eq, hstored]
    rfl
  rw [hsave]
  refine ⟨?_, ?_⟩
  · rw [raises_ite_error (by simp [Error.isValidation]), raises_bind, h.insertable_iff, h.contractFits_iff hfixed]
    simp only [not_raises_ok, and_false, exists_false, or_false, hraises]
    split_ifs with hnone
    · simp only [hnone, true_and, not_not]
      tauto
    · simp only [hnone, false_and, not_false_eq_true, true_and, not_not]
  · intro saved hsaved
    obtain ⟨-, hsaved⟩ := ite_error_eq_ok.1 hsaved
    obtain ⟨details, hfull, hsaved⟩ := bind_eq_ok.1 hsaved
    cases hsaved
    exact ⟨details, rfl, hdetails details hfull, rfl⟩

end Accounts

end Vault67
