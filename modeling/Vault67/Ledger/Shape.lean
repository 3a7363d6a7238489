/-
Ledger shape and conservation of money.

`LedgerShape`: a TRANSFER has exactly two entries, a and -a in one currency on two accounts; every other transaction
has exactly one entry. With the owners of `Integrity`, a deletion takes both legs of a transfer or none.

- `step_shaped`, `step_shape`: every operation keeps the shape, given that only a transfer is posted as a TRANSFER.
- `balances_eq`: in a state of this shape the balances of a user in a currency add up to what the transactions other
  than transfers moved.
- `run_ledger_shape`: both hold after every run without account edits.
-/
import Mathlib.Tactic
import Vault67.Ledger.Currency

namespace Vault67.Ledger

open Investments Accounts Machine Rows

/-- the two legs of a transfer: a and -a in one currency on two accounts -/
def IsTransfer : List TransactionEntry → Prop
  | [source, destination] =>
    source.account ≠ destination.account ∧ source.currency = destination.currency ∧ 0 < destination.amount ∧
      source.amount = -destination.amount
  | _ => False

structure LedgerShape (db : Db) : Prop where
  transfer : ∀ t ∈ db.transactions, t.transactionType = .transfer → IsTransfer (db.entriesOf t)
  other : ∀ t ∈ db.transactions, t.transactionType ≠ .transfer → ∃ e, db.entriesOf t = [e] ∧ e.amount ≠ 0

theorem init_shape (currencyCode : ℕ → String) (security : ℕ → Security) :
    LedgerShape (Db.init currencyCode security) := by
  constructor <;> simp [Db.init]

theorem Integrity.transaction_eq {db : Db} (h : Integrity db) {t : Transaction} (ht : t ∈ db.transactions)
    {e : TransactionEntry} (he : e ∈ db.entriesOf t) : e.transaction = t := by
  obtain ⟨hmem, hpk⟩ := List.mem_filter.1 he
  exact List.inj_on_of_nodup_map h.transaction_nodup (h.entry_transaction e hmem) ht (of_decide_eq_true hpk)

/-! ## Writes -/

/-- a posting adds no entry to an older transaction -/
theorem entriesOf_post_old {db : Db} (h : Integrity db) {t u : Transaction} {es : List TransactionEntry}
    {is : List InvestmentTransaction} (ht : t.pk = db.nextTransaction) (hes : ∀ e ∈ es, e.transaction = t)
    (hu : u ∈ db.transactions) : (db.post t es is).entriesOf u = db.entriesOf u := by
  have hnil : es.filter (fun e => decide (e.transaction.pk = u.pk)) = [] := by
    apply List.filter_eq_nil_iff.2
    intro e he hd
    have hlt := h.transaction_lt u hu
    have hpk : t.pk = u.pk := by simpa [hes e he] using hd
    omega
  rw [Db.entriesOf, Db.post_entries, List.filter_append, hnil, List.append_nil, Db.entriesOf]

/-- the new transaction has exactly the entries posted with it -/
theorem entriesOf_post_new {db : Db} (h : Integrity db) {t : Transaction} {es : List TransactionEntry}
    {is : List InvestmentTransaction} (ht : t.pk = db.nextTransaction) (hes : ∀ e ∈ es, e.transaction = t) :
    (db.post t es is).entriesOf t = es := by
  have hnil : db.entries.filter (fun e => decide (e.transaction.pk = t.pk)) = [] := by
    apply List.filter_eq_nil_iff.2
    intro e he hd
    have hlt := h.transaction_lt _ (h.entry_transaction e he)
    have hpk : e.transaction.pk = t.pk := of_decide_eq_true hd
    omega
  rw [Db.entriesOf, Db.post_entries, List.filter_append, hnil, List.nil_append]
  exact List.filter_eq_self.2 fun e he => by simp [hes e he]

/-- Q holds of every transaction with its entries -/
def Shaped (Q : Transaction → List TransactionEntry → Prop) (db : Db) : Prop :=
  ∀ t ∈ db.transactions, Q t (db.entriesOf t)

variable {Q : Transaction → List TransactionEntry → Prop}

theorem Shaped.post {db : Db} (hI : Integrity db) (h : Shaped Q db) {t : Transaction} {es : List TransactionEntry}
    {is : List InvestmentTransaction} (ht : t.pk = db.nextTransaction) (hes : ∀ e ∈ es, e.transaction = t)
    (hQ : Q t es) : Shaped Q (db.post t es is) := by
  intro u hu
  rcases List.mem_append.1 hu with hu | hu
  · rw [entriesOf_post_old hI ht hes hu]
    exact h u hu
  · rw [List.mem_singleton.1 hu, entriesOf_post_new hI ht hes]
    exact hQ

/-- a transaction that stays keeps its entries -/
theorem entriesOf_deleteRows (db : Db) {ids : List ℕ} {t : Transaction} (ht : t.pk ∉ ids) :
    (deleteRows db ids).entriesOf t = db.entriesOf t := by
  rw [Db.entriesOf, deleteRows_entries, List.filter_filter, Db.entriesOf]
  apply List.filter_congr
  intro e _
  by_cases he : e.transaction.pk = t.pk
  · simp [he, ht]
  · simp [he]

theorem Shaped.delete {db : Db} (h : Shaped Q db) (ids : List ℕ) : Shaped Q (deleteRows db ids) := by
  intro t ht
  obtain ⟨hmem, hids⟩ := List.mem_filter.1 ht
  rw [entriesOf_deleteRows db (of_decide_eq_true hids)]
  exact h t hmem

/-- a shape that the one entry of a deposit, a withdrawal or an investment has, and the legs of a transfer -/
structure Posting (S : TransactionType → Prop) (Q : Transaction → List TransactionEntry → Prop) : Prop where
  single : ∀ t e, S t.transactionType ∨ supported t.transactionType → e.amount ≠ 0 → Q t [e]
  transfer : ∀ t es, t.transactionType = .transfer → IsTransfer es → Q t es

theorem write_shaped {S : TransactionType → Prop} {db db' : Db} (hQ : Posting S Q) (hI : Integrity db)
    (h : Shaped Q db) (hw : Write S db db') : Shaped Q db' := by
  cases hw with
  | @entry t e ht hS he hpk =>
    exact h.post hI ht (by simpa using he.transaction) (hQ.single t e (.inl hS) e.amount_ne)
  | @transfer t source destination ht htype hs hd hspk hdpk hne hcur hpos hneg =>
    have hlegs : IsTransfer [source, destination] := ⟨hne, hcur, hpos, hneg⟩
    exact h.post hI ht (by simpa using ⟨hs.transaction, hd.transaction⟩) (hQ.transfer t _ htype hlegs)
  | @investment i e hp =>
    have hs : supported i.transaction.transactionType := hp.supported
    exact h.post hI hp.pk (by simpa using hp.entry_transaction) (hQ.single _ e (.inr hs) e.amount_ne)
  | delete hids => exact h.delete _
  | newAccount => exact h
  | keep account fixedTerm hk => exact h

/-- an account edit keeps every transaction and entry -/
theorem step_shaped {S : TransactionType → Prop} (hS : ∀ t, singleEntry t → S t) (hQ : Posting S Q) {db db' : Db}
    {op : Op} (hI : Integrity db) (h : Shaped Q db) (hop : op.Posts S) (hs : step db op = .ok db') :
    Shaped Q db' := by
  by_cases hedit : op.isEdit
  · cases op with
    | updateAccount user account data =>
      obtain ⟨row, fixedTerm, -, rfl⟩ := accountUpdateView_ok hs
      exact h
    | _ => exact absurd hedit id
  · have hw := step_writes hS hedit hop hs
    exact (hw.inv (I := fun db => Integrity db ∧ Shaped Q db)
      (fun _ _ h hw => ⟨write_integrity h.1 hw, write_shaped hQ h.1 h.2 hw⟩) ⟨hI, h⟩).2

/-- a transaction other than a transfer has one entry, with an amount -/
def OneEntry (t : Transaction) (es : List TransactionEntry) : Prop :=
  t.transactionType ≠ .transfer → ∃ e, es = [e] ∧ e.amount ≠ 0

/-- a transfer has two legs -/
def TwoLegs (t : Transaction) (es : List TransactionEntry) : Prop := t.transactionType = .transfer → IsTransfer es

theorem posting_oneEntry (S : TransactionType → Prop) : Posting S OneEntry := by
  refine ⟨?_, ?_⟩
  · intro t e _ he _
    exact ⟨e, rfl, he⟩
  · intro t es htype _ hne
    exact absurd htype hne

/-- no investment is a transfer -/
theorem posting_twoLegs : Posting (· ≠ .transfer) TwoLegs := by
  refine ⟨?_, ?_⟩
  · rintro t e (hne | hsupported) _ htype
    · exact absurd htype hne
    · simp [htype, supported] at hsupported
  · intro t es _ hlegs _
    exact hlegs

theorem ledgerShape_iff {db : Db} : LedgerShape db ↔ Shaped TwoLegs db ∧ Shaped OneEntry db :=
  ⟨fun h => ⟨h.transfer, h.other⟩, fun h => ⟨h.1, h.2⟩⟩

theorem step_shape {db db' : Db} {op : Op} (hI : Integrity db) (h : LedgerShape db) (hop : op.Posts (· ≠ .transfer))
    (hs : step db op = .ok db') : LedgerShape db' := by
  obtain ⟨htwo, hone⟩ := ledgerShape_iff.1 h
  exact ledgerShape_iff.2 ⟨step_shaped (fun _ h => h.1) posting_twoLegs hI htwo hop hs,
    step_shaped (fun _ h => h.1) (posting_oneEntry _) hI hone hop hs⟩

/-! ## Conservation -/

/-- `as_of_date` keeps the entry -/
def asOf (date : Option Date) (e : TransactionEntry) : Prop := ∀ d ∈ date, e.transaction.transactionDate ≤ d

instance (date : Option Date) (e : TransactionEntry) : Decidable (asOf date e) :=
  inferInstanceAs (Decidable (∀ d ∈ date, _))

/-- the balances of the user's accounts in the currency -/
def totalBalance (db : Db) (user currency : ℕ) (date : Option Date) : ℚ :=
  ((db.accountIds.filter fun i => (db.account i).owner = user ∧ (db.account i).currency = currency).map fun i =>
    accountBalance db i date).sum

/-- what the user's transactions other than transfers moved in the currency -/
def netInflow (db : Db) (user currency : ℕ) (date : Option Date) : ℚ :=
  ((db.entries.filter fun e =>
    e.transaction.transactionType ≠ .transfer ∧ e.transaction.owner = user ∧ e.currency = currency ∧ asOf date e).map
    TransactionEntry.amount).sum

/-- each entry is on one account -/
theorem totalBalance_eq_entries {db : Db} (h : Integrity db) (user currency : ℕ) (date : Option Date) :
    totalBalance db user currency date =
      ((db.entries.filter fun e => (db.account e.account).owner = user ∧ (db.account e.account).currency = currency ∧
        asOf date e).map TransactionEntry.amount).sum := by
  rw [totalBalance, ← sum_groups TransactionEntry.account (h.account_nodup.filter _)]
  · refine congrArg List.sum (List.map_congr_left fun i hi => ?_)
    have hi' := of_decide_eq_true (List.mem_filter.1 hi).2
    rw [accountBalance, List.filter_filter]
    refine congrArg List.sum (congrArg _ (List.filter_congr fun e _ => ?_))
    by_cases hei : e.account = i
    · simp [hei, hi', asOf]
    · simp [hei]
  · intro e he
    obtain ⟨hmem, hp⟩ := List.mem_filter.1 he
    have hp' := of_decide_eq_true hp
    exact List.mem_filter.2 ⟨h.entry_account e hmem, by simpa using ⟨hp'.1, hp'.2.1⟩⟩

/-- the legs of a transfer are counted together and cancel -/
theorem IsTransfer.sum_filter {es : List TransactionEntry} (h : IsTransfer es) {p : TransactionEntry → Bool}
    (hp : ∀ e ∈ es, ∀ e' ∈ es, e.currency = e'.currency → p e = p e') :
    ((es.filter p).map TransactionEntry.amount).sum = 0 := by
  rcases es with _ | ⟨source, _ | ⟨destination, _ | ⟨e, es⟩⟩⟩
  · exact absurd h id
  · exact absurd h id
  · obtain ⟨-, hcur, -, hneg⟩ := h
    have he := hp source (by simp) destination (by simp) hcur
    cases hd : p destination <;> simp [he, hd, hneg]
  · exact absurd h id

theorem sum_transfers {db : Db} (hI : Integrity db) (h : LedgerShape db) (user currency : ℕ) (date : Option Date) :
    ((db.entries.filter fun e => e.transaction.transactionType = .transfer ∧ e.transaction.owner = user ∧
      e.currency = currency ∧ asOf date e).map TransactionEntry.amount).sum = 0 := by
  rw [← sum_groups (fun e : TransactionEntry => e.transaction.pk) hI.transaction_nodup, List.map_map]
  · apply List.sum_eq_zero
    intro x hx
    obtain ⟨t, ht, rfl⟩ := List.mem_map.1 hx
    have hfilter : (db.entries.filter fun e => decide (e.transaction.transactionType = .transfer ∧
        e.transaction.owner = user ∧ e.currency = currency ∧ asOf date e)).filter
          (fun e => decide (e.transaction.pk = t.pk)) =
        (db.entriesOf t).filter fun e => decide (t.transactionType = .transfer ∧ t.owner = user ∧
          e.currency = currency ∧ ∀ d ∈ date, t.transactionDate ≤ d) := by
      rw [Db.entriesOf, List.filter_comm]
      apply List.filter_congr
      intro e he
      simp only [asOf, hI.transaction_eq ht he]
    simp only [Function.comp_apply, hfilter]
    by_cases htype : t.transactionType = .transfer
    · apply (h.transfer t ht htype).sum_filter
      intro e _ e' _ hee
      rw [hee]
    · simp [htype]
  · intro e he
    exact List.mem_map_of_mem (hI.entry_transaction e (List.mem_filter.1 he).1)

/-- **Conservation.** Transfers move money between accounts and neither create nor lose any: what a user has in a
currency is what the other transactions brought. -/
theorem balances_eq {db : Db} (hI : Integrity db) (hC : SingleCurrency db) (h : LedgerShape db) (user currency : ℕ)
    (date : Option Date) : totalBalance db user currency date = netInflow db user currency date := by
  have hall : (db.entries.filter fun e => decide ((db.account e.account).owner = user ∧
      (db.account e.account).currency = currency ∧ asOf date e)) =
      db.entries.filter fun e => decide (e.transaction.owner = user ∧ e.currency = currency ∧ asOf date e) :=
    List.filter_congr fun e he => by rw [hI.owner e he, hC.entries e he]
  rw [totalBalance_eq_entries hI, hall,
    sum_filter_split (fun e : TransactionEntry => e.transaction.transactionType = .transfer), sum_transfers hI h,
    zero_add, netInflow]

/-! ## Runs -/

/-- **Ledger shape and conservation over whole runs.** After every sequence of accepted and refused operations, by any
users and in any order, in which only a transfer is posted as a TRANSFER and no account is edited: the owners agree, a
transfer has two legs that cancel, every other transaction has one entry, and per user, currency and date the balances
add up to what the transactions other than transfers moved. -/
theorem run_ledger_shape (currencyCode : ℕ → String) (security : ℕ → Security) {ops : List Op}
    (hops : ∀ op ∈ ops, op.Posts (· ≠ .transfer) ∧ ¬op.isEdit) :
    let db := run step (Db.init currencyCode security) ops
    (∀ e ∈ db.entries, (db.account e.account).owner = e.transaction.owner) ∧ LedgerShape db ∧
      ∀ user currency date, totalBalance db user currency date = netInflow db user currency date := by
  have hrun : Integrity (run step (Db.init currencyCode security) ops) ∧
      SingleCurrency (run step (Db.init currencyCode security) ops) ∧
      LedgerShape (run step (Db.init currencyCode security) ops) := by
    refine run_inv (fun op => op.Posts (· ≠ .transfer) ∧ ¬op.isEdit)
      (I := fun db => Integrity db ∧ SingleCurrency db ∧ LedgerShape db) ?_ hops
      ⟨init_integrity _ _, init_singleCurrency _ _, init_shape _ _⟩
    rintro db op db' ⟨hI, hC, h⟩ ⟨hposts, hedit⟩ hs
    have hkeep : KeepsCurrency db op := by
      cases op with
      | updateAccount user account data => exact absurd trivial hedit
      | _ => exact trivial
    exact ⟨step_integrity hI hs, (step_singleCurrency_iff hI hC hs).2 hkeep, step_shape hI h hposts hs⟩
  obtain ⟨hI, hC, h⟩ := hrun
  exact ⟨hI.owner, h, balances_eq hI hC h⟩

/-- two accounts, a deposit, a transfer between them, and the deletion of all transactions of the second -/
def transferAndDelete : List Op :=
  [.createAccount 1 (plainForm .checking 1), .createAccount 1 (plainForm .savings 1),
    .createDeposit 1 0 100 10 "Salary" .income "", .createTransfer 1 0 1 40 11 "Savings" "",
    .deleteAccountTransactions 1 1]

theorem run_ledger_shape_transferAndDelete :
    let db := run step (Db.init (fun _ => "EUR") fun _ => ⟨"ETF", 1, true⟩) transferAndDelete
    (∀ e ∈ db.entries, (db.account e.account).owner = e.transaction.owner) ∧ LedgerShape db ∧
      ∀ user currency date, totalBalance db user currency date = netInflow db user currency date :=
  run_ledger_shape _ _ (by decide)

end Vault67.Ledger
