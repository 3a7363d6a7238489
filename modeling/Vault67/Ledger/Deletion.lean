/-
Deleting the transactions of an account.

`Touches db account t`: transaction t has an entry on the account. A deletion selects these transactions through the join
of transactions and entries, and takes all of their entries, those on other accounts as well.

- `hasInvestmentDetail_touches`: on an account without investments no such transaction has a detail.
- `mem_selected`: what the join selects.
- `deleteRows_removes`: what is left.
- `delete_account_exact`: so the deletion removes exactly these transactions, or raises.
-/
import Mathlib.Tactic
import Vault67.Investments.Link

namespace Vault67.Ledger

open Fallible Investments Machine Rows Session

/-! ## Model -/

/-- what holds of the ledger after any requests -/
structure LedgerState (db : Db) : Prop where
  integrity : Integrity db
  shape : LedgerShape db
  links : Links db

/-- the transaction has an entry on the account -/
def Touches (db : Db) (account : ℕ) (t : Transaction) : Prop := ∃ e ∈ db.entriesOf t, e.account = account

instance (db : Db) (account : ℕ) (t : Transaction) : Decidable (Touches db account t) :=
  inferInstanceAs (Decidable (∃ e ∈ _, _))

/-- the entries of an account up to a date in transactions that touch another one -/
def sharedEntries (db : Db) (account other : ℕ) (date : Option Date) : List TransactionEntry :=
  db.entries.filter fun e => e.account = other ∧ asOf date e ∧ Touches db account e.transaction

/-- the second database is the first one without the transactions that touch the account -/
structure Removed (db db' : Db) (account n : ℕ) : Prop where
  no_entries : ∀ e ∈ db'.entries, e.account ≠ account
  balance_zero : ∀ date, accountBalance db' account date = 0
  untouched : ∀ t ∈ db.transactions, ¬Touches db account t → t ∈ db'.transactions ∧ db'.entriesOf t = db.entriesOf t
  touched : ∀ t ∈ db.transactions, Touches db account t → t ∉ db'.transactions ∧ db'.entriesOf t = []
  other_balance : ∀ other, other ≠ account → ∀ date, accountBalance db' other date =
    accountBalance db other date - ((sharedEntries db account other date).map TransactionEntry.amount).sum
  transactions_kept : db'.transactions.Sublist db.transactions
  entries_kept : db'.entries.Sublist db.entries
  entry_transaction : ∀ e ∈ db'.entries, e.transaction ∈ db'.transactions
  transaction_entries : ∀ t ∈ db'.transactions, db'.entriesOf t ≠ []
  count : n + db'.transactions.length = db.transactions.length
  rest : db' = { db with transactions := db'.transactions, entries := db'.entries }

/-! ## States -/

theorem run_ledgerState (currencyCode : ℕ → String) (security : ℕ → Security) {ops : List Op}
    (hops : ∀ op ∈ ops, op.Posts (· ≠ .transfer)) : LedgerState (run step (Db.init currencyCode security) ops) := by
  refine run_inv (fun op => op.Posts (· ≠ .transfer)) (I := LedgerState) ?_ hops
    ⟨init_integrity _ _, init_shape _ _, ⟨fun i hi => ?_⟩⟩
  · intro db op db' h hposts hs
    obtain ⟨hintegrity, hlinks, -⟩ := step_links h.integrity h.links hs
    exact ⟨hintegrity, step_shape h.integrity h.shape hposts hs, hlinks⟩
  · simp [Db.init] at hi

variable {db : Db} {account : ℕ}

/-- a transaction is never without entries -/
theorem LedgerShape.entriesOf_ne_nil (h : LedgerShape db) {t : Transaction} (ht : t ∈ db.transactions) :
    db.entriesOf t ≠ [] := by
  intro hnil
  by_cases htype : t.transactionType = .transfer
  · have htransfer := h.transfer t ht htype
    rw [hnil] at htransfer
    exact htransfer
  · obtain ⟨e, he, -⟩ := h.other t ht htype
    rw [hnil] at he
    cases he

/-- the details of a transaction on an account are details of the account -/
theorem hasInvestmentDetail_touches (h : LedgerState db) (hnone : ¬∃ i ∈ db.investments, i.account = account)
    {t : Transaction} (ht : t ∈ db.transactions) (htouches : Touches db account t) : ¬db.hasInvestmentDetail t := by
  intro hdetail
  obtain ⟨i, hi, hpk⟩ := hdetail
  obtain rfl : i.transaction = t :=
    List.inj_on_of_nodup_map h.integrity.transaction_nodup (h.integrity.detail_transaction i hi) ht hpk
  obtain ⟨e, hlink⟩ := h.links.linked i hi
  obtain ⟨e', he', haccount⟩ := htouches
  rw [hlink.only_entry, List.mem_singleton] at he'
  subst he'
  exact hnone ⟨i, hi, hlink.account.symm.trans haccount⟩

/-! ## The selection -/

/-- the keys of the transactions that are deleted -/
def selectedIds (db : Db) (account : ℕ) : List ℕ :=
  (accountTransactions db (db.account account).owner account).map Transaction.pk

/-- the owner of the account is the owner of every transaction on it -/
theorem accountTransactions_eq (h : Integrity db) :
    accountTransactions db (db.account account).owner account = db.transactions.filter fun t => Touches db account t := by
  apply List.filter_congr
  intro t ht
  rw [decide_eq_decide]
  refine ⟨And.right, fun htouches => ⟨?_, htouches⟩⟩
  obtain ⟨e, he, haccount⟩ := htouches
  rw [← haccount, h.owner e (List.mem_filter.1 he).1, h.transaction_eq ht he]

theorem mem_selected (h : Integrity db) {t : Transaction} (ht : t ∈ db.transactions) :
    t.pk ∈ selectedIds db account ↔ Touches db account t := by
  rw [selectedIds, accountTransactions_eq h, List.mem_map]
  refine ⟨?_, ?_⟩
  · intro hmem
    obtain ⟨u, hu, hpk⟩ := hmem
    obtain ⟨hu, htouches⟩ := List.mem_filter.1 hu
    obtain rfl : u = t := List.inj_on_of_nodup_map h.transaction_nodup hu ht hpk
    exact of_decide_eq_true htouches
  · exact fun htouches => ⟨t, List.mem_filter.2 ⟨ht, decide_eq_true htouches⟩, rfl⟩

/-! ## What is left -/

/-- an entry that stays is in a transaction that does not touch the account -/
theorem mem_entries_deleteRows (h : Integrity db) {e : TransactionEntry} :
    e ∈ (deleteRows db (selectedIds db account)).entries ↔ e ∈ db.entries ∧ ¬Touches db account e.transaction := by
  rw [deleteRows_entries, List.mem_filter, decide_eq_true_iff]
  apply and_congr_right
  intro he
  rw [mem_selected h (h.entry_transaction e he)]

theorem mem_transactions_deleteRows (h : Integrity db) {t : Transaction} :
    t ∈ (deleteRows db (selectedIds db account)).transactions ↔ t ∈ db.transactions ∧ ¬Touches db account t := by
  rw [deleteRows_transactions, List.mem_filter, decide_eq_true_iff]
  apply and_congr_right
  intro ht
  rw [mem_selected h ht]

/-- the entries of a transaction on the account touch it -/
theorem touches_of_entry {e : TransactionEntry} (he : e ∈ db.entries) : Touches db e.account e.transaction :=
  ⟨e, List.mem_filter.2 ⟨he, decide_eq_true rfl⟩, rfl⟩

/-- the balance of an account loses its entries in the removed transactions -/
theorem accountBalance_deleteRows (h : Integrity db) (other : ℕ) (date : Option Date) :
    accountBalance (deleteRows db (selectedIds db account)) other date =
      accountBalance db other date - ((sharedEntries db account other date).map TransactionEntry.amount).sum := by
  have hremoved : db.entries.filter (fun e => decide (Touches db account e.transaction ∧ e.account = other ∧
      ∀ d ∈ date, e.transaction.transactionDate ≤ d)) = sharedEntries db account other date := by
    apply List.filter_congr
    intro e _
    rw [decide_eq_decide]
    exact ⟨fun he => ⟨he.2.1, he.2.2, he.1⟩, fun he => ⟨he.2.2, he.1, he.2.1⟩⟩
  have hleft : db.entries.filter (fun e => decide (¬Touches db account e.transaction ∧ e.account = other ∧
      ∀ d ∈ date, e.transaction.transactionDate ≤ d)) =
      (deleteRows db (selectedIds db account)).entries.filter fun e =>
        e.account = other ∧ ∀ d ∈ date, e.transaction.transactionDate ≤ d := by
    rw [deleteRows_entries, List.filter_filter]
    apply List.filter_congr
    intro e he
    rw [Bool.eq_iff_iff, Bool.and_eq_true, decide_eq_true_iff, decide_eq_true_iff, decide_eq_true_iff,
      mem_selected h (h.entry_transaction e he), and_comm]
  have hbalance : accountBalance db other date =
      ((sharedEntries db account other date).map TransactionEntry.amount).sum +
        accountBalance (deleteRows db (selectedIds db account)) other date := by
    rw [accountBalance, accountBalance, ← hleft, ← hremoved]
    exact sum_filter_split (fun e : TransactionEntry => Touches db account e.transaction) _ _ _
  linarith

/-- **What is left of the ledger** once the selected transactions are deleted is what `Removed` says of it. -/
theorem deleteRows_removes (h : LedgerState db) (account : ℕ) :
    Removed db (deleteRows db (selectedIds db account)) account
      (accountTransactions db (db.account account).owner account).length := by
  have hI := h.integrity
  have hnone : ∀ e ∈ (deleteRows db (selectedIds db account)).entries, e.account ≠ account := by
    intro e he haccount
    obtain ⟨hmem, htouches⟩ := (mem_entries_deleteRows hI).1 he
    exact htouches (haccount ▸ touches_of_entry hmem)
  refine ⟨hnone, ?_, ?_, ?_, ?_, List.filter_sublist, List.filter_sublist, ?_, ?_, ?_, rfl⟩
  · intro date
    rw [accountBalance, List.filter_eq_nil_iff.2]
    · rfl
    · intro e he hd
      exact hnone e he (of_decide_eq_true hd).1
  · intro t ht htouches
    exact ⟨(mem_transactions_deleteRows hI).2 ⟨ht, htouches⟩,
      entriesOf_deleteRows db (mt (mem_selected hI ht).1 htouches)⟩
  · intro t ht htouches
    refine ⟨fun hmem => ((mem_transactions_deleteRows hI).1 hmem).2 htouches, ?_⟩
    apply List.filter_eq_nil_iff.2
    intro e he hpk
    obtain ⟨hmem, hother⟩ := (mem_entries_deleteRows hI).1 he
    obtain rfl : e.transaction = t :=
      List.inj_on_of_nodup_map hI.transaction_nodup (hI.entry_transaction e hmem) ht (of_decide_eq_true hpk)
    exact hother htouches
  · exact fun other _ date => accountBalance_deleteRows hI other date
  · intro e he
    obtain ⟨hmem, htouches⟩ := (mem_entries_deleteRows hI).1 he
    exact (mem_transactions_deleteRows hI).2 ⟨hI.entry_transaction e hmem, htouches⟩
  · intro t ht
    obtain ⟨hmem, htouches⟩ := (mem_transactions_deleteRows hI).1 ht
    rw [entriesOf_deleteRows db (mt (mem_selected hI hmem).1 htouches)]
    exact h.shape.entriesOf_ne_nil hmem
  · have hleft : (deleteRows db (selectedIds db account)).transactions =
        db.transactions.filter fun t => !decide (Touches db account t) := by
      apply List.filter_congr
      intro t ht
      rw [Bool.eq_iff_iff, Bool.not_eq_true', decide_eq_true_iff, decide_eq_false_iff_not, mem_selected hI ht]
    rw [accountTransactions_eq hI, hleft]
    exact (List.length_eq_length_filter_add _).symm

theorem deleteAccountTransactions_eq (h : LedgerState db) (hnone : ¬∃ i ∈ db.investments, i.account = account) :
    deleteAccountTransactions db (db.account account).owner account =
      .ok ((accountTransactions db (db.account account).owner account).length, deleteRows db (selectedIds db account)) := by
  have hdetail : ¬∃ t ∈ accountTransactions db (db.account account).owner account, db.hasInvestmentDetail t := by
    intro hdetail
    obtain ⟨t, ht, hdetail⟩ := hdetail
    rw [accountTransactions_eq h.integrity] at ht
    obtain ⟨hmem, htouches⟩ := List.mem_filter.1 ht
    exact hasInvestmentDetail_touches h hnone hmem (of_decide_eq_true htouches) hdetail
  unfold deleteAccountTransactions
  dsimp only
  rw [if_neg (not_not.2 rfl), if_neg hnone, if_neg hdetail]
  split_ifs with hts
  · have hsame : deleteRows db (selectedIds db account) = db := by
      rw [selectedIds, hts]
      simp [deleteRows]
    rw [hts, hsame]
    rfl
  · rfl

/-- **Exactly the transactions of the account.** The owner of an account without investments removes the transactions
with an entry on it, whole, and nothing else; any other request raises and changes nothing. -/
theorem delete_account_exact {db : Db} (h : LedgerState db) (owner account : ℕ) :
    ((db.account account).owner = owner ∧ (¬∃ i ∈ db.investments, i.account = account) →
      ∃ n db', (deleteAccountSession owner account).exec db = (.ok n, db') ∧ Removed db db' account n) ∧
    ((db.account account).owner ≠ owner ∨ (∃ i ∈ db.investments, i.account = account) →
      ∃ message, (deleteAccountSession owner account).exec db = (.error (.message (.text message)), db)) := by
  have hexec : (deleteAccountSession owner account).exec db = settle (deleteAccountTransactions db owner account) db :=
    deleteAccountSession_allOrNothing owner account db
  rw [hexec]
  refine ⟨?_, ?_⟩
  · rintro ⟨rfl, hnone⟩
    refine ⟨_, _, ?_, deleteRows_removes h account⟩
    rw [deleteAccountTransactions_eq h hnone]
    rfl
  · intro hrefused
    unfold deleteAccountTransactions
    by_cases howner : (db.account account).owner ≠ owner
    · rw [if_pos howner]
      exact ⟨_, rfl⟩
    · rw [if_neg howner, if_pos (hrefused.resolve_left howner)]
      exact ⟨_, rfl⟩

/-- two accounts, a deposit and a transfer between them -/
def depositAndTransfer : List Op :=
  [.createAccount 1 (plainForm .checking 1), .createAccount 1 (plainForm .savings 1),
    .createDeposit 1 0 100 10 "Salary" .income "", .createTransfer 1 0 1 40 11 "Savings" ""]

theorem delete_account_exact_depositAndTransfer :
    let db := run step (Db.init (fun _ => "EUR") fun _ => ⟨"ETF", 1, true⟩) depositAndTransfer
    ∃ n db', (deleteAccountSession 1 1).exec db = (.ok n, db') ∧ Removed db db' 1 n := by
  intro db
  have hposts : ∀ op ∈ depositAndTransfer, op.Posts (· ≠ .transfer) := by decide
  exact (delete_account_exact (run_ledgerState _ _ hposts) 1 1).1 (by decide +kernel)

end Vault67.Ledger
