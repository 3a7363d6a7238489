/-
Users of one instance do not affect each other.

`withoutOthers` is the run in which nobody else makes a request: where one was made, only the primary keys it has drawn
are gone.

- `run_agree`: every run shows a user the records of that run.
- `noninterference`: the same balances, holdings, realized gains and tax summaries.
-/
import Mathlib.Tactic
import Vault67.Tenants
import Vault67.Lib.Unwinding
import Vault67.Tax.Ownership

namespace Vault67

open Ledger Investments Accounts Fallible Machine Rows OrderBy Tax

/-- the counters of db, which is all that a request of somebody else changes -/
def drawn (db own : Db) : Db :=
  { own with nextAccount := db.nextAccount, nextTransaction := db.nextTransaction, nextEntry := db.nextEntry }

/-- the requests of the user, in the order of the run -/
def withoutOthers (user : ℕ) (db : Db) (ops : List Op) : Db :=
  Unwinding.solo (attempt step) (fun op => op.user = user) (attempt step) drawn db db ops

variable {user : ℕ} {db₁ db₂ : Db}

theorem drawn_agree {db : Db} (h : Agree user db₁ db₂) (hdb : Untouched user db₁ db) : Agree user db (drawn db db₂) := by
  obtain ⟨h1, h2, h3, h4, h5, h6, h7, h8⟩ := hdb.same.symm.trans h.same
  refine ⟨⟨h1, h2, h3, h4, h5, h6, h7, h8⟩, rfl, rfl, rfl, fun a ha => ?_⟩
  exact (hdb.fixedTerm a ha).trans (h.next.fixedTerm a (hdb.nextAccount.trans ha))

theorem drawn_integrity {db : Db} (h : Agree user db₁ db₂) (h₂ : Integrity db₂) (hdb : Untouched user db₁ db) :
    Integrity (drawn db db₂) := by
  have haccount : db₂.nextAccount ≤ db.nextAccount := h.next.nextAccount ▸ hdb.nextAccount
  have htransaction : db₂.nextTransaction ≤ db.nextTransaction := h.next.nextTransaction ▸ hdb.nextTransaction
  have hentry : db₂.nextEntry ≤ db.nextEntry := h.next.nextEntry ▸ hdb.nextEntry
  exact { h₂ with
    account_lt := fun a ha => (h₂.account_lt a ha).trans_le haccount
    transaction_lt := fun t ht => (h₂.transaction_lt t ht).trans_le htransaction
    entry_lt := fun e he => (h₂.entry_lt e he).trans_le hentry }

/-- **Every run, for one user.** The run and the run without what others request leave states that agree on all that
the user owns, up to the drawn keys. -/
theorem run_agree {db : Db} (hdb : Integrity db) (user : ℕ) (ops : List Op) :
    Integrity (run step db ops) ∧ Integrity (withoutOthers user db ops) ∧
      Agree user (run step db ops) (withoutOthers user db ops) := by
  refine Unwinding.solo_related (R := fun db₁ db₂ => Integrity db₁ ∧ Integrity db₂ ∧ Agree user db₁ db₂) ?_ ?_
    ⟨hdb, hdb, .refl db, rfl, rfl, rfl, fun _ _ => rfl⟩ ops
  · rintro db₁ db₂ op ⟨h₁, h₂, h⟩ hop
    exact ⟨attempt_inv h₁ fun _ => step_integrity h₁, attempt_inv h₂ fun _ => step_integrity h₂,
      attempt_agree h₁ h₂ h hop⟩
  · rintro db₁ db₂ op ⟨h₁, h₂, h⟩ hop
    have huntouched : Untouched user db₁ (attempt step db₁ op) :=
      attempt_inv (.refl db₁) fun _ => step_untouched h₁ hop
    exact ⟨attempt_inv h₁ fun _ => step_integrity h₁, drawn_integrity h h₂ huntouched, drawn_agree h huntouched⟩

/-! ## What a user is shown -/

section Books

variable (h₁ : Integrity db₁) (h₂ : Integrity db₂) (h : Same user db₁ db₂)
include h₁ h₂ h

theorem accountBalance_same {a : ℕ} (ha : a ∈ ownIds db₁ user) (date : Option Date) :
    accountBalance db₁ a date = accountBalance db₂ a date := by
  have hown : ∀ {db : Db}, Integrity db → a ∈ ownIds db user → ∀ e ∈ db.entries,
      decide (e.account = a ∧ ∀ d ∈ date, e.transaction.transactionDate ≤ d) = true →
        decide (e.transaction.owner = user) = true := by
    intro db hdb hmem e he hc
    obtain ⟨hea, -⟩ := of_decide_eq_true hc
    rw [← hdb.owner e he, hea]
    exact decide_eq_true (mem_ownIds.1 hmem).2
  rw [accountBalance, accountBalance,
    filter_agree h.entries (hown h₁ ha) (hown h₂ (h.accountIds ▸ ha)) fun _ _ => rfl]

theorem forOwner_same (d : Date) : SameForOwner user d db₁ db₂ := by
  constructor
  case accounts =>
    change (ownIds db₁ user).map _ = (ownIds db₂ user).map _
    rw [← h.accountIds]
    exact List.map_congr_left fun a ha => by rw [h.account a ha]
  case transactions =>
    exact filter_agree_of_imp h.transactions fun t ht => ht.1
  case entries =>
    exact filter_agree_of_imp h.entries fun e he => he.1
  case investments =>
    have hown : ∀ {db : Db}, Integrity db → ∀ i ∈ db.investments,
        (((db.account i.account).owner = user ∨ i.transaction.owner = user) ∧ i.tradeDate ≤ d) →
          i.transaction.owner = user := by
      intro db hdb i hi hc
      exact hc.1.elim (fun ho => (hdb.detail_owner hi).symm.trans ho) id
    refine filter_agree h.investments (fun i hi hc => decide_eq_true (hown h₁ i hi (of_decide_eq_true hc)))
      (fun i hi hc => decide_eq_true (hown h₂ i hi (of_decide_eq_true hc))) fun i hi => ?_
    have ho := of_decide_eq_true (List.mem_filter.1 hi).2
    simp only [ho, or_true]
  case symbols =>
    intro i _
    rw [h.security]

theorem summary_same (fx : Fx) (tables : TaxTables) {y : TaxYear} (hy : y.owner = user) :
    buildTaxYearSummary db₁ fx tables y = buildTaxYearSummary db₂ fx tables y := by
  have hsame : SameForOwner y.owner y.endDate db₁ db₂ := hy ▸ forOwner_same h₁ h₂ h y.endDate
  have href₁ := references_of_integrity h₁
  have href₂ := references_of_integrity h₂
  rw [buildTaxYearSummary, buildTaxYearSummary, collect, collect, collectEvents_congr hsame rfl href₁ href₂]
  apply bind_congr
  intro s
  exact bind_congr fun b => by rw [summarize_congr hsame href₁ href₂]

theorem calculateHoldings_same {a : ℕ} (ha : a ∈ ownIds db₁ user) (date : Option Date) (includeClosed : Bool) :
    calculateHoldings db₁ a date includeClosed = calculateHoldings db₂ a date includeClosed := by
  obtain ⟨hmem, ho⟩ := mem_ownIds.1 ha
  have hkeeps := h.keeps h₁ h₂ hmem ho
  have hitems : ∀ i ∈ transactions db₁ a none date, i.account = a := by
    intro i hi
    rw [transactions, mem_orderBy, List.mem_filter] at hi
    exact (of_decide_eq_true hi.2).1
  have hgroup : ∀ s, calculateFromItems db₂ s ((transactions db₁ a none date).filter fun i => i.security = s) =
      calculateFromItems db₁ s ((transactions db₁ a none date).filter fun i => i.security = s) := fun s =>
    hkeeps.calculateFromItems s fun i hi => hitems i (List.mem_filter.1 hi).1
  simp only [calculateHoldings, hkeeps.transactions, h.security, hgroup]

theorem calculateRealizedGainEvents_same {a : ℕ} (ha : a ∈ ownIds db₁ user) (date : Option Date) :
    calculateRealizedGainEvents db₁ a date = calculateRealizedGainEvents db₂ a date := by
  obtain ⟨hmem, ho⟩ := mem_ownIds.1 ha
  have hkeeps := h.keeps h₁ h₂ hmem ho
  have htrades : trades db₁ a date = trades db₂ a date := by
    rw [trades, trades, filter_agree_of_imp hkeeps.investments.symm]
    exact fun i hi => hi.1
  have hitem : ∀ s i, gainItem db₁ a s i = gainItem db₂ a s i := fun s i => by
    simp only [gainItem, h.account a ha, h.security]
  rw [calculateRealizedGainEvents, calculateRealizedGainEvents, htrades, foldlM_congr fun i _ s => hitem s i]

end Books

/-- the user sees the same in both -/
structure SameBooks (user : ℕ) (db₁ db₂ : Db) : Prop where
  records : Same user db₁ db₂
  balance : ∀ a ∈ ownIds db₁ user, ∀ date, accountBalance db₁ a date = accountBalance db₂ a date
  holdings : ∀ a ∈ ownIds db₁ user, ∀ date includeClosed,
    calculateHoldings db₁ a date includeClosed = calculateHoldings db₂ a date includeClosed
  gains : ∀ a ∈ ownIds db₁ user, ∀ date,
    calculateRealizedGainEvents db₁ a date = calculateRealizedGainEvents db₂ a date
  summary : ∀ fx tables y, y.owner = user → buildTaxYearSummary db₁ fx tables y = buildTaxYearSummary db₂ fx tables y

/-- two users work at the same time -/
def mixedRequests : List Op :=
  [.createAccount 1 (plainForm .brokerage 1), .createAccount 2 (plainForm .brokerage 1),
    .createInvestmentTransaction (tradeAtTen .buy 10 10), .createDeposit 2 1 20 30 "Interest" .interest "",
    .createDeposit 2 0 5 30 "Deposit" .deposit "", .deleteAccountTransactions 2 1,
    .createInvestmentTransaction (tradeAtTen .sell 4 50)]

/-- **Noninterference.** In every run of requests by any users, what a user has and is shown is what it would be if
nobody else had made a request, except for the primary keys the others have drawn. -/
theorem noninterference {db : Db} (hdb : Integrity db) (user : ℕ) (ops : List Op) :
    SameBooks user (run step db ops) (withoutOthers user db ops) := by
  obtain ⟨h₁, h₂, h⟩ := run_agree hdb user ops
  exact ⟨h.same, fun a ha => accountBalance_same h₁ h₂ h.same ha, fun a ha => calculateHoldings_same h₁ h₂ h.same ha,
    fun a ha => calculateRealizedGainEvents_same h₁ h₂ h.same ha,
    fun fx tables _ hy => summary_same h₁ h₂ h.same fx tables hy⟩

theorem noninterference_mixedRequests :
    let db := Db.init (fun _ => "EUR") fun _ => ⟨"ETF", 1, true⟩
    (run step db mixedRequests).transactions.map Transaction.owner = [1, 1] ∧
      SameBooks 1 (run step db mixedRequests) (withoutOthers 1 db mixedRequests) :=
  ⟨by decide +kernel, noninterference (init_integrity _ _) 1 mixedRequests⟩

end Vault67
