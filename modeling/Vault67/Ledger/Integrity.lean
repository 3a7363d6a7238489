/-
Keys and references: what every operation keeps, whatever its arguments.

`Integrity`: primary keys are distinct and below their counters; an entry and an investment detail refer to rows that
exist; an entry's account and transaction have one owner; an investment detail has a cash entry on its own account.

- `write_integrity`: each primitive write keeps it.
- `step_integrity`, `run_integrity`: so does every operation, and every run.
-/
import Mathlib.Tactic
import Vault67.System
import Vault67.Lib.Machine
import Vault67.Lib.Rows

namespace Vault67.Ledger

open Investments Accounts Machine Rows

structure Integrity (db : Db) : Prop where
  account_lt : ∀ i ∈ db.accountIds, i < db.nextAccount
  account_nodup : db.accountIds.Nodup
  transaction_lt : ∀ t ∈ db.transactions, t.pk < db.nextTransaction
  transaction_nodup : (db.transactions.map Transaction.pk).Nodup
  entry_lt : ∀ e ∈ db.entries, e.pk < db.nextEntry
  entry_nodup : (db.entries.map TransactionEntry.pk).Nodup
  entry_transaction : ∀ e ∈ db.entries, e.transaction ∈ db.transactions
  entry_account : ∀ e ∈ db.entries, e.account ∈ db.accountIds
  owner : ∀ e ∈ db.entries, (db.account e.account).owner = e.transaction.owner
  detail_transaction : ∀ i ∈ db.investments, i.transaction ∈ db.transactions
  detail_account : ∀ i ∈ db.investments, i.account ∈ db.accountIds
  detail_nodup : (db.investments.map fun i => i.transaction.pk).Nodup
  detail_entry : ∀ i ∈ db.investments, ∃ e ∈ db.entries, e.transaction = i.transaction ∧ e.account = i.account

theorem init_integrity (currencyCode : ℕ → String) (security : ℕ → Security) :
    Integrity (Db.init currencyCode security) := by
  constructor <;> simp [Db.init]

/-! ## Writes -/

/-- a transaction with its entries, numbered from `nextEntry`, and at most one detail -/
theorem Integrity.post {db : Db} (h : Integrity db) {t : Transaction} {es : List TransactionEntry}
    {is : List InvestmentTransaction} (ht : t.pk = db.nextTransaction) (hes : ∀ e ∈ es, EntryFor db t e)
    (hpk : es.map TransactionEntry.pk = List.range' db.nextEntry es.length)
    (his : ∀ i ∈ is, i.transaction = t ∧ ∃ e ∈ es, e.account = i.account) (hone : is.length ≤ 1) :
    Integrity (db.post t es is) := by
  have hold : ∀ i ∈ db.investments, i.transaction.pk < db.nextTransaction :=
    fun i hi => h.transaction_lt _ (h.detail_transaction i hi)
  have hnew : ∀ e ∈ es, db.nextEntry ≤ e.pk ∧ e.pk < db.nextEntry + es.length := fun e he => by
    simpa [hpk] using List.mem_map_of_mem (f := TransactionEntry.pk) he
  constructor <;> simp only [Db.post_transactions, Db.post_entries, Db.post_investments, Db.post_nextTransaction,
    Db.post_nextEntry, Db.post_account, Db.post_accountIds, Db.post_nextAccount, List.mem_append, List.mem_singleton]
  case account_lt => exact h.account_lt
  case account_nodup => exact h.account_nodup
  case transaction_lt =>
    intro u hu
    rcases hu with hu | rfl
    · exact (h.transaction_lt u hu).trans (Nat.lt_succ_self _)
    · omega
  case transaction_nodup => exact nodup_map_concat Transaction.pk h.transaction_nodup fun u hu => ht ▸ h.transaction_lt u hu
  case entry_lt =>
    intro e he
    rcases he with he | he
    · exact (h.entry_lt e he).trans_le (Nat.le_add_right _ _)
    · exact (hnew e he).2
  case entry_nodup =>
    rw [List.map_append, List.nodup_append']
    refine ⟨h.entry_nodup, hpk ▸ List.nodup_range', ?_⟩
    intro n hn hn'
    obtain ⟨e, he, rfl⟩ := List.mem_map.1 hn
    obtain ⟨e', he', hee⟩ := List.mem_map.1 hn'
    have := h.entry_lt e he
    have := (hnew e' he').1
    omega
  case entry_transaction =>
    intro e he
    rcases he with he | he
    · exact .inl (h.entry_transaction e he)
    · exact .inr (hes e he).transaction
  case entry_account =>
    intro e he
    rcases he with he | he
    · exact h.entry_account e he
    · exact (hes e he).account_mem
  case owner =>
    intro e he
    rcases he with he | he
    · exact h.owner e he
    · rw [(hes e he).transaction, (hes e he).owner]
  case detail_transaction =>
    intro i hi
    rcases hi with hi | hi
    · exact .inl (h.detail_transaction i hi)
    · exact .inr (his i hi).1
  case detail_account =>
    intro i hi
    rcases hi with hi | hi
    · exact h.detail_account i hi
    · obtain ⟨e, he, hea⟩ := (his i hi).2
      exact hea ▸ (hes e he).account_mem
  case detail_nodup =>
    rcases is with _ | ⟨i, _ | ⟨j, is⟩⟩
    · rw [List.append_nil]
      exact h.detail_nodup
    · apply nodup_map_concat (fun i : InvestmentTransaction => i.transaction.pk) h.detail_nodup
      intro j hj
      rw [(his i List.mem_cons_self).1, ht]
      exact hold j hj
    · simp at hone
  case detail_entry =>
    intro i hi
    rcases hi with hi | hi
    · obtain ⟨e, he, h2⟩ := h.detail_entry i hi
      exact ⟨e, .inl he, h2⟩
    · obtain ⟨hit, e, he, hea⟩ := his i hi
      exact ⟨e, .inr he, (hes e he).transaction.trans hit.symm, hea⟩

theorem Integrity.delete {db : Db} (h : Integrity db) {ids : List ℕ}
    (hids : ∀ i ∈ db.investments, i.transaction.pk ∉ ids) : Integrity (deleteRows db ids) := by
  constructor <;> simp only [deleteRows_transactions, deleteRows_entries, deleteRows_investments,
    deleteRows_nextTransaction, deleteRows_nextEntry, deleteRows_account, deleteRows_accountIds,
    deleteRows_nextAccount, List.mem_filter, decide_eq_true_eq, and_imp]
  case account_lt => exact h.account_lt
  case account_nodup => exact h.account_nodup
  case transaction_lt => exact fun t ht _ => h.transaction_lt t ht
  case transaction_nodup => exact h.transaction_nodup.sublist (List.filter_sublist.map _)
  case entry_lt => exact fun e he _ => h.entry_lt e he
  case entry_nodup => exact h.entry_nodup.sublist (List.filter_sublist.map _)
  case entry_transaction => exact fun e he hn => ⟨h.entry_transaction e he, hn⟩
  case entry_account => exact fun e he _ => h.entry_account e he
  case owner => exact fun e he _ => h.owner e he
  case detail_transaction => exact fun i hi => ⟨h.detail_transaction i hi, hids i hi⟩
  case detail_account => exact h.detail_account
  case detail_nodup => exact h.detail_nodup
  case detail_entry =>
    intro i hi
    obtain ⟨e, he, het, hea⟩ := h.detail_entry i hi
    exact ⟨e, ⟨he, het ▸ hids i hi⟩, het, hea⟩

/-- a new account, under an identifier no entry uses -/
theorem Integrity.newAccount {db : Db} (h : Integrity db) {row : FinancialAccount} :
    Integrity (insertAccount db row) := by
  have hne : ∀ e ∈ db.entries, e.account ≠ db.nextAccount := fun e he =>
    (h.account_lt _ (h.entry_account e he)).ne
  constructor <;> simp only [insertAccount_transactions, insertAccount_entries, insertAccount_investments,
    insertAccount_nextTransaction, insertAccount_nextEntry, insertAccount_account, insertAccount_accountIds,
    insertAccount_nextAccount, List.mem_append, List.mem_singleton]
  case account_lt =>
    intro i hi
    rcases hi with hi | rfl
    · exact (h.account_lt i hi).trans (Nat.lt_succ_self _)
    · exact Nat.lt_succ_self _
  case account_nodup =>
    simpa using nodup_map_concat id (b := db.nextAccount) (by simpa using h.account_nodup) h.account_lt
  case transaction_lt => exact h.transaction_lt
  case transaction_nodup => exact h.transaction_nodup
  case entry_lt => exact h.entry_lt
  case entry_nodup => exact h.entry_nodup
  case entry_transaction => exact h.entry_transaction
  case entry_account => exact fun e he => .inl (h.entry_account e he)
  case owner =>
    intro e he
    rw [Function.update_of_ne (hne e he)]
    exact h.owner e he
  case detail_transaction => exact h.detail_transaction
  case detail_account => exact fun i hi => .inl (h.detail_account i hi)
  case detail_nodup => exact h.detail_nodup
  case detail_entry => exact h.detail_entry

/-- other account rows, with the owners they had -/
theorem Integrity.keep {db : Db} (h : Integrity db) (account : ℕ → FinancialAccount)
    (fixedTerm : ℕ → Option FixedTermDetails) (ho : ∀ i, (account i).owner = (db.account i).owner) :
    Integrity { db with account := account, fixedTerm := fixedTerm } :=
  { h with owner := fun e he => (ho e.account).trans (h.owner e he) }

theorem write_integrity {S : TransactionType → Prop} {db db' : Db} (h : Integrity db) (hw : Write S db db') :
    Integrity db' := by
  cases hw with
  | entry ht hS he hpk => exact h.post ht (by simpa using he) (by simp [hpk]) (by simp) (by simp)
  | transfer ht htype hs hd hspk hdpk hne hcur hpos hneg =>
    exact h.post ht (by simpa using ⟨hs, hd⟩) (by simp [hspk, hdpk, List.range']) (by simp) (by simp)
  | @investment i e hp =>
    have he : EntryFor db i.transaction e :=
      ⟨hp.entry_transaction, hp.entry_account ▸ hp.account_mem, hp.entry_account ▸ hp.account_owner,
        hp.entry_account ▸ hp.entry_currency⟩
    exact h.post hp.pk (by simpa using he) (by simp [hp.entry_pk]) (by simpa using hp.entry_account) (by simp)
  | delete hids => exact h.delete hids
  | newAccount => exact h.newAccount
  | keep account fixedTerm hk => exact h.keep account fixedTerm fun i => (hk i).1

/-! ## Operations and runs -/

theorem step_integrity {db db' : Db} {op : Op} (h : Integrity db) (hs : step db op = .ok db') : Integrity db' := by
  by_cases hop : op.isEdit
  · cases op with
    | updateAccount user account data =>
      obtain ⟨row, fixedTerm, he, rfl⟩ := accountUpdateView_ok hs
      apply h.keep (Function.update db.account account row) fixedTerm
      intro i
      by_cases hi : i = account
      · rw [hi, Function.update_self, he.owner]
      · rw [Function.update_of_ne hi]
    | _ => exact absurd hop id
  · exact (step_writes (S := fun _ => True) (fun _ _ => trivial) hop (.of_forall (fun _ => trivial) _) hs).inv
      (fun _ _ => write_integrity) h

theorem run_integrity {db : Db} (h : Integrity db) (ops : List Op) : Integrity (run step db ops) :=
  run_inv (fun _ => True) (fun _ _ _ h _ => step_integrity h) (fun _ _ => trivial) h

end Vault67.Ledger
