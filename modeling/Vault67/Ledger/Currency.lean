/-
Single-currency accounts. Every posting service takes the currency of the account as it is when it posts; balances and
holdings compare with the currency the account has when they are read. `AccountUpdateView` lets the owner replace it.

- `write_singleCurrency`: no posting, import, deletion or creation mixes currencies.
- `edit_singleCurrency_iff`: an edit does exactly when it changes the currency of an account that has entries.
- `singleCurrency_throughout_iff`: so every state of a run is single-currency exactly when no accepted edit does that.
-/
import Mathlib.Tactic
import Vault67.Ledger.Integrity

namespace Vault67.Ledger

open Investments Accounts Machine

/-- an account's entries are in its currency; a detail in another currency has a rate -/
structure SingleCurrency (db : Db) : Prop where
  entries : ∀ e ∈ db.entries, e.currency = (db.account e.account).currency
  details : ∀ i ∈ db.investments, i.currency ≠ (db.account i.account).currency → i.exchangeRate ≠ none

instance (db : Db) : Decidable (SingleCurrency db) :=
  decidable_of_iff ((∀ e ∈ db.entries, e.currency = (db.account e.account).currency) ∧
      ∀ i ∈ db.investments, i.currency ≠ (db.account i.account).currency → i.exchangeRate ≠ none)
    ⟨fun ⟨h1, h2⟩ => ⟨h1, h2⟩, fun ⟨h1, h2⟩ => ⟨h1, h2⟩⟩

/-- an edit that leaves the currency of an account with entries as it is -/
def KeepsCurrency (db : Db) : Op → Prop
  | .updateAccount _ account data =>
    data.currency = some (db.account account).currency ∨ ∀ e ∈ db.entries, e.account ≠ account
  | _ => True

theorem init_singleCurrency (currencyCode : ℕ → String) (security : ℕ → Security) :
    SingleCurrency (Db.init currencyCode security) := by
  constructor <;> simp [Db.init]

/-- in a single-currency state the replay finds a rate for every item -/
theorem SingleCurrency.rate {db : Db} (h : SingleCurrency db) {i : InvestmentTransaction} (hi : i ∈ db.investments) :
    ∃ rate, rateToAccount db i = some rate := by
  unfold rateToAccount
  split_ifs with hc
  · exact ⟨1, rfl⟩
  · exact Option.ne_none_iff_exists'.1 (h.details i hi hc)

/-! ## Writes -/

theorem SingleCurrency.post {db : Db} (h : SingleCurrency db) {t : Transaction} {es : List TransactionEntry}
    {is : List InvestmentTransaction} (hes : ∀ e ∈ es, e.currency = (db.account e.account).currency)
    (his : ∀ i ∈ is, i.currency ≠ (db.account i.account).currency → i.exchangeRate ≠ none) :
    SingleCurrency (db.post t es is) :=
  ⟨fun e he => (List.mem_append.1 he).elim (h.entries e) (hes e),
    fun i hi => (List.mem_append.1 hi).elim (h.details i) (his i)⟩

theorem write_singleCurrency {S : TransactionType → Prop} {db db' : Db} (hI : Integrity db) (h : SingleCurrency db)
    (hw : Write S db db') : SingleCurrency db' := by
  cases hw with
  | entry ht hS he hpk => exact h.post (by simpa using he.currency) (by simp)
  | transfer ht htype hs hd hspk hdpk hne hcur hpos hneg =>
    exact h.post (by simpa using ⟨hs.currency, hd.currency⟩) (by simp)
  | investment hp =>
    refine h.post (by simpa [hp.entry_account] using hp.entry_currency) ?_
    intro i hi hc
    rw [List.mem_singleton.1 hi] at hc ⊢
    exact hp.rate_ne_none hc
  | delete hids => exact ⟨fun e he => h.entries e (List.mem_filter.1 he).1, h.details⟩
  | newAccount =>
    -- the identifier is new: no entry and no detail is on it
    refine ⟨?_, ?_⟩
    · intro e he
      rw [insertAccount_account, Function.update_of_ne (hI.account_lt _ (hI.entry_account e he)).ne]
      exact h.entries e he
    · intro i hi
      rw [insertAccount_account, Function.update_of_ne (hI.account_lt _ (hI.detail_account i hi)).ne]
      exact h.details i hi
  | keep account fixedTerm hk =>
    refine ⟨?_, ?_⟩
    · intro e he
      rw [(hk e.account).2.1]
      exact h.entries e he
    · intro i hi
      rw [(hk i.account).2.1]
      exact h.details i hi

/-! ## Edits -/

/-- **Exactly the harmful edits.** An edit keeps every account in one currency if and only if the account keeps its currency
or has no entry. -/
theorem edit_singleCurrency_iff {db : Db} (hI : Integrity db) (h : SingleCurrency db) {user account : ℕ}
    {data : FormData} {row : FinancialAccount} {fixedTerm : ℕ → Option FixedTermDetails}
    (he : Edited db user account data row) :
    SingleCurrency { updateAccount db account row with fixedTerm := fixedTerm } ↔
      data.currency = some (db.account account).currency ∨ ∀ e ∈ db.entries, e.account ≠ account := by
  rw [he.currency, Option.some_inj]
  refine ⟨?_, ?_⟩
  · intro h'
    by_contra hc
    push Not at hc
    obtain ⟨hcur, e, hmem, rfl⟩ := hc
    have hnew := h'.entries e hmem
    simp only [updateAccount_account, Function.update_self] at hnew
    exact hcur (hnew.symm.trans (h.entries e hmem))
  · intro hkeep
    rcases hkeep with hcur | hno
    · exact write_singleCurrency (S := fun _ => True) hI h (he.write hcur)
    · refine ⟨?_, ?_⟩
      · intro e hmem
        simp only [updateAccount_account, Function.update_of_ne (hno e hmem)]
        exact h.entries e hmem
      · intro i hmem
        obtain ⟨e, hee, -, hea⟩ := hI.detail_entry i hmem
        have hne : i.account ≠ account := hea ▸ hno e hee
        simp only [updateAccount_account, Function.update_of_ne hne]
        exact h.details i hmem

theorem step_singleCurrency_iff {db db' : Db} {op : Op} (hI : Integrity db) (h : SingleCurrency db)
    (hs : step db op = .ok db') : SingleCurrency db' ↔ KeepsCurrency db op := by
  by_cases hop : op.isEdit
  · cases op with
    | updateAccount user account data =>
      obtain ⟨row, fixedTerm, he, rfl⟩ := accountUpdateView_ok hs
      exact edit_singleCurrency_iff hI h he
    | _ => exact absurd hop id
  · have hkeep : KeepsCurrency db op := by
      cases op with
      | updateAccount user account data => exact absurd trivial hop
      | _ => exact trivial
    have hw := step_writes (S := fun _ => True) (fun _ _ => trivial) hop (.of_forall (fun _ => trivial) _) hs
    have hboth : Integrity db' ∧ SingleCurrency db' :=
      hw.inv (I := fun db => Integrity db ∧ SingleCurrency db)
        (fun _ _ h hw => ⟨write_integrity h.1 hw, write_singleCurrency h.1 h.2 hw⟩) ⟨hI, h⟩
    exact iff_of_true hboth.2 hkeep

/-! ## Runs -/

/-- **Single-currency accounts.** Every state of a run is single-currency exactly when no accepted edit changes the
currency of an account that has entries. -/
theorem singleCurrency_throughout_iff (currencyCode : ℕ → String) (security : ℕ → Security) (ops : List Op) :
    Throughout step SingleCurrency (Db.init currencyCode security) ops ↔
      Guarded step KeepsCurrency (Db.init currencyCode security) ops :=
  throughout_iff (I := Integrity) (fun _ _ _ => step_integrity) (fun _ _ _ => step_singleCurrency_iff) ops
    (init_integrity currencyCode security) (init_singleCurrency currencyCode security)

/-- the form of an account without contract terms -/
def plainForm (type : AccountType) (currency : ℕ) : FormData where
  name := "Main"
  accountType := some type
  currency := some currency
  savingsAnnualInterestRatePercent := none
  fixedPrincipal := none
  fixedStartDate := none
  fixedMaturityDate := none
  fixedAnnualRatePercent := none
  fixedInterestMethod := none
  fixedCompoundingFrequency := none
  fixedInterestPaymentMethod := none
  fixedInterestDestination := none
  fixedInterestDestinationAccount := none
  fixedEarlyWithdrawalAllowed := false
  fixedEarlyWithdrawalPenaltyNotes := ""
  fixedMaturityInstruction := none
  fixedMaturityDestinationAccount := none
  fundingAccount := none

/-- an account is opened in currency 1, receives 100, and is edited to currency 2 -/
def currencyEdit : List Op :=
  [.createAccount 1 (plainForm .checking 1), .createDeposit 1 0 100 10 "Salary" .deposit "",
    .updateAccount 1 0 (plainForm .checking 2)]

/-- the deposit is left in currency 1 on an account in currency 2 -/
theorem currencyEdit_mixes :
    ¬SingleCurrency (run step (Db.init (fun _ => "EUR") fun _ => ⟨"ETF", 1, true⟩) currencyEdit) := by
  decide +kernel

end Vault67.Ledger
