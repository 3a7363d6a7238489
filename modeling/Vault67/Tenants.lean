/-
What a request reads and writes of one user.

`Same user`: two databases hold the same accounts, contracts, transactions, entries and investment details of a user;
`Agree user`: and their counters stand the same.

- `attempt_agree`: the user's own requests do the same on both.
- `step_untouched`: the requests of anybody else leave the user's records as they were.
-/
import Mathlib.Tactic
import Vault67.Investments.Concurrent

namespace Vault67

open Ledger Investments Accounts Fallible Machine Rows

/-- who makes the request -/
def Op.user : Op → ℕ
  | .createDeposit owner .. => owner
  | .createWithdrawal owner .. => owner
  | .createTransfer owner .. => owner
  | .importTransactions owner .. => owner
  | .createInvestmentTransaction p => p.owner
  | .deleteTransaction owner _ => owner
  | .deleteAccountTransactions owner _ => owner
  | .createAccount user _ => user
  | .updateAccount user .. => user
  | .archiveAccount user _ => user

def ownIds (db : Db) (user : ℕ) : List ℕ := db.accountIds.filter fun a => (db.account a).owner = user

theorem mem_ownIds {db : Db} {user a : ℕ} : a ∈ ownIds db user ↔ a ∈ db.accountIds ∧ (db.account a).owner = user := by
  simp [ownIds]

/-- the records of the user -/
structure Same (user : ℕ) (db₁ db₂ : Db) : Prop where
  currencyCode : db₁.currencyCode = db₂.currencyCode
  security : db₁.security = db₂.security
  accountIds : ownIds db₁ user = ownIds db₂ user
  account : ∀ a ∈ ownIds db₁ user, db₁.account a = db₂.account a
  fixedTerm : ∀ a ∈ ownIds db₁ user, db₁.fixedTerm a = db₂.fixedTerm a
  transactions : (db₁.transactions.filter fun t => t.owner = user) = db₂.transactions.filter fun t => t.owner = user
  entries : (db₁.entries.filter fun e => e.transaction.owner = user) =
    db₂.entries.filter fun e => e.transaction.owner = user
  investments : (db₁.investments.filter fun i => i.transaction.owner = user) =
    db₂.investments.filter fun i => i.transaction.owner = user

/-- the counters, and the contract rows that are still unused -/
structure SameNext (db₁ db₂ : Db) : Prop where
  nextAccount : db₁.nextAccount = db₂.nextAccount
  nextTransaction : db₁.nextTransaction = db₂.nextTransaction
  nextEntry : db₁.nextEntry = db₂.nextEntry
  fixedTerm : ∀ a, db₁.nextAccount ≤ a → db₁.fixedTerm a = db₂.fixedTerm a

structure Agree (user : ℕ) (db₁ db₂ : Db) : Prop where
  same : Same user db₁ db₂
  next : SameNext db₁ db₂

variable {user : ℕ} {db₁ db₂ db₃ : Db}

theorem Same.refl (db : Db) : Same user db db :=
  ⟨rfl, rfl, rfl, fun _ _ => rfl, fun _ _ => rfl, rfl, rfl, rfl⟩

theorem Same.symm (h : Same user db₁ db₂) : Same user db₂ db₁ :=
  ⟨h.currencyCode.symm, h.security.symm, h.accountIds.symm, fun a ha => (h.account a (h.accountIds ▸ ha)).symm,
    fun a ha => (h.fixedTerm a (h.accountIds ▸ ha)).symm, h.transactions.symm, h.entries.symm, h.investments.symm⟩

theorem Same.trans (h : Same user db₁ db₂) (h' : Same user db₂ db₃) : Same user db₁ db₃ :=
  ⟨h.currencyCode.trans h'.currencyCode, h.security.trans h'.security, h.accountIds.trans h'.accountIds,
    fun a ha => (h.account a ha).trans (h'.account a (h.accountIds ▸ ha)),
    fun a ha => (h.fixedTerm a ha).trans (h'.fixedTerm a (h.accountIds ▸ ha)), h.transactions.trans h'.transactions,
    h.entries.trans h'.entries, h.investments.trans h'.investments⟩

theorem Agree.symm (h : Agree user db₁ db₂) : Agree user db₂ db₁ :=
  ⟨h.same.symm, h.next.nextAccount.symm, h.next.nextTransaction.symm, h.next.nextEntry.symm,
    fun a ha => (h.next.fixedTerm a (h.next.nextAccount ▸ ha)).symm⟩

theorem Ledger.Integrity.detail_owner {db : Db} (h : Integrity db) {i : InvestmentTransaction}
    (hi : i ∈ db.investments) : (db.account i.account).owner = i.transaction.owner := by
  obtain ⟨e, he, het, hea⟩ := h.detail_entry i hi
  rw [← hea, ← het]
  exact h.owner e he

/-! ## Own requests -/

theorem createTransaction_congr {db' : Db} {owner : ℕ} {date : Date} {description reference notes : String}
    {type : TransactionType} {t : Transaction} (hnext : db₁.nextTransaction = db₂.nextTransaction)
    (h : createTransaction db₁ owner date description type reference notes = .ok (t, db')) :
    db' = db₁.addTransaction t ∧
      createTransaction db₂ owner date description type reference notes = .ok (t, db₂.addTransaction t) := by
  simp only [createTransaction, bind_eq_ok, Except.ok.injEq, Prod.mk.injEq] at h ⊢
  obtain ⟨d, hd, r, hr, ht, hdb⟩ := h
  rw [← hnext]
  exact ⟨ht ▸ hdb.symm, d, hd, r, hr, ht, by rw [ht]⟩

theorem createEntry_congr (db₁ db₂ : Db) {db' : Db} {t : Transaction} {account currency : ℕ} {amount : ℚ} {rate base : Option ℚ}
    {type : String} (hnext : db₁.nextEntry = db₂.nextEntry) (hacc : account ∈ db₂.accountIds)
    (h : createEntry db₁ t account amount currency rate base type = .ok db') :
    ∃ e, db' = db₁.addEntry e ∧ createEntry db₂ t account amount currency rate base type = .ok (db₂.addEntry e) := by
  obtain ⟨stored, hs, h⟩ := bind_eq_ok.1 h
  split_ifs at h with hc
  cases h
  refine ⟨_, rfl, bind_eq_ok.2 ⟨stored, hs, ?_⟩⟩
  rw [dif_pos ⟨hacc, hc.2⟩]
  simp only [hnext]

theorem Same.own (h : Same user db₁ db₂) {a : ℕ} (ha : a ∈ db₁.accountIds) (ho : (db₁.account a).owner = user) :
    a ∈ db₂.accountIds ∧ db₂.account a = db₁.account a := by
  have hown := mem_ownIds.2 ⟨ha, ho⟩
  exact ⟨(mem_ownIds.1 (h.accountIds ▸ hown)).1, (h.account a hown).symm⟩

theorem Same.mem_transactions (h : Same user db₁ db₂) {t : Transaction} (ht : t ∈ db₁.transactions)
    (ho : t.owner = user) : t ∈ db₂.transactions := by
  have hmem : t ∈ db₁.transactions.filter fun t => t.owner = user := List.mem_filter.2 ⟨ht, decide_eq_true ho⟩
  rw [h.transactions] at hmem
  exact (List.mem_filter.1 hmem).1

theorem Agree.post (h : Agree user db₁ db₂) (t : Transaction) (es : List TransactionEntry)
    (is : List InvestmentTransaction) : Agree user (db₁.post t es is) (db₂.post t es is) := by
  refine ⟨⟨h.same.currencyCode, h.same.security, h.same.accountIds, h.same.account, h.same.fixedTerm, ?_, ?_, ?_⟩,
    h.next.nextAccount, congrArg (· + 1) h.next.nextTransaction, congrArg (· + es.length) h.next.nextEntry,
    h.next.fixedTerm⟩
  · rw [Db.post_transactions, Db.post_transactions, List.filter_append, List.filter_append, h.same.transactions]
  · rw [Db.post_entries, Db.post_entries, List.filter_append, List.filter_append, h.same.entries]
  · rw [Db.post_investments, Db.post_investments, List.filter_append, List.filter_append, h.same.investments]

theorem create_agree {db₁' : Db} {account : ℕ} {amount : ℚ} {type : TransactionType} {date : Date}
    {description notes reference : String} (h : Agree user db₁ db₂)
    (hok : create db₁ user account amount type date description notes reference = .ok db₁') :
    ∃ db₂', create db₂ user account amount type date description notes reference = .ok db₂' ∧
      Agree user db₁' db₂' := by
  simp only [create, ite_error_eq_ok, bind_eq_ok, not_not] at hok ⊢
  obtain ⟨hamount, howner, ⟨t, db⟩, ht, he⟩ := hok
  obtain ⟨rfl, ht'⟩ := createTransaction_congr h.next.nextTransaction ht
  obtain ⟨-, hmem, -⟩ := createEntry_ok he
  obtain ⟨hmem', hacc⟩ := h.same.own hmem howner
  obtain ⟨e, rfl, he'⟩ := createEntry_congr (db₁.addTransaction t) (db₂.addTransaction t) h.next.nextEntry hmem' he
  refine ⟨db₂.post t [e] [], ⟨hamount, hacc ▸ howner, _, ht', ?_⟩, ?_⟩
  · rw [hacc, ← Db.addEntry_addTransaction]
    exact he'
  · rw [Db.addEntry_addTransaction]
    exact h.post t [e] []

theorem createWithdrawal_agree {db₁' : Db} {account : ℕ} {amount : ℚ} {type : TransactionType} {date : Date}
    {description notes : String} (h : Agree user db₁ db₂)
    (hok : createWithdrawal db₁ user account amount date description type notes = .ok db₁') :
    ∃ db₂', createWithdrawal db₂ user account amount date description type notes = .ok db₂' ∧
      Agree user db₁' db₂' := by
  unfold createWithdrawal at hok ⊢
  split_ifs at hok with hpos
  rw [if_pos hpos]
  exact create_agree h hok

theorem createTransfer_agree {db₁' : Db} {source destination : ℕ} {amount : ℚ} {date : Date}
    {description notes : String} (h : Agree user db₁ db₂)
    (hok : createTransfer db₁ user source destination amount date description notes = .ok db₁') :
    ∃ db₂', createTransfer db₂ user source destination amount date description notes = .ok db₂' ∧
      Agree user db₁' db₂' := by
  simp only [createTransfer, ite_error_eq_ok, bind_eq_ok, not_not, not_or] at hok ⊢
  obtain ⟨hpos, hne, ⟨hos, hod⟩, hcur, ⟨t, db⟩, ht, dba, hs, hd⟩ := hok
  obtain ⟨rfl, ht'⟩ := createTransaction_congr h.next.nextTransaction ht
  obtain ⟨-, hsmem, -⟩ := createEntry_ok hs
  obtain ⟨hsmem', hsacc⟩ := h.same.own hsmem hos
  obtain ⟨e, rfl, hs'⟩ := createEntry_congr (db₁.addTransaction t) (db₂.addTransaction t) h.next.nextEntry hsmem' hs
  obtain ⟨-, hdmem, -⟩ := createEntry_ok hd
  obtain ⟨hdmem', hdacc⟩ := h.same.own hdmem hod
  obtain ⟨e', rfl, hd'⟩ := createEntry_congr ((db₁.addTransaction t).addEntry e) ((db₂.addTransaction t).addEntry e)
    (congrArg (· + 1) h.next.nextEntry) hdmem' hd
  rw [Db.addEntry_addEntry] at hd' ⊢
  rw [hsacc, hdacc]
  exact ⟨_, ⟨hpos, hne, ⟨hos, hod⟩, hcur, _, ht', _, hs', hd'⟩, h.post t [e, e'] []⟩

theorem importTransactions_agree {db₁' : Db} {account n : ℕ} {rows : List ImportedRow} (h : Agree user db₁ db₂)
    (hown : account ∈ db₁.accountIds) (hok : importTransactions db₁ user account rows = .ok (n, db₁')) :
    ∃ db₂', importTransactions db₂ user account rows = .ok (n, db₂') ∧ Agree user db₁' db₂' := by
  simp only [importTransactions, ite_error_eq_ok, bind_eq_ok, Except.ok.injEq, Prod.mk.injEq, not_not] at hok ⊢
  obtain ⟨howner, hcur, db, hrows, hn, rfl⟩ := hok
  obtain ⟨-, hacc⟩ := h.same.own hown howner
  rw [hacc, ← h.same.currencyCode]
  suffices hfold : ∀ {db₁ db₂ : Db}, Agree user db₁ db₂ → rows.foldlM (fun db row => create db user account row.amount
      row.transactionType row.transactionDate row.description row.notes row.reference) db₁ = .ok db →
      ∃ db₂', rows.foldlM (fun db row => create db user account row.amount row.transactionType row.transactionDate
        row.description row.notes row.reference) db₂ = .ok db₂' ∧ Agree user db db₂' by
    obtain ⟨db₂', hdb₂', hagree⟩ := hfold h hrows
    exact ⟨db₂', ⟨howner, hcur, _, hdb₂', hn, rfl⟩, hagree⟩
  clear hrows hcur hn hacc hown howner h
  induction rows with
  | nil =>
    intro db₁ db₂ h hrows
    cases hrows
    exact ⟨db₂, rfl, h⟩
  | cons row rows ih =>
    intro db₁ db₂ h hrows
    obtain ⟨db₁', hrow, hrows⟩ := foldlM_cons_ok.1 hrows
    obtain ⟨db', hrow', h'⟩ := create_agree h hrow
    obtain ⟨db₂', hdb₂', hagree⟩ := ih h' hrows
    exact ⟨db₂', foldlM_cons_ok.2 ⟨db', hrow', hdb₂'⟩, hagree⟩

/-! ## Own details and deletions -/

section Own

variable (h₁ : Integrity db₁) (h₂ : Integrity db₂)
include h₁ h₂

theorem Same.keeps (h : Same user db₁ db₂) {a : ℕ} (ha : a ∈ db₁.accountIds) (ho : (db₁.account a).owner = user) :
    Keeps a db₁ db₂ := by
  obtain ⟨ha', hacc⟩ := h.own ha ho
  refine ⟨ha, ha', h.security.symm, by rw [hacc], by rw [hacc], by rw [hacc], ?_⟩
  refine filter_agree h.investments.symm (fun i hi hia => ?_) (fun i hi hia => ?_) fun _ _ => rfl
  · rw [← h₂.detail_owner hi, of_decide_eq_true hia, hacc]
    exact decide_eq_true ho
  · rw [← h₁.detail_owner hi, of_decide_eq_true hia]
    exact decide_eq_true ho

theorem createInvestmentTransaction_agree {db₁' : Db} {p : InvestmentPosting} (h : Agree p.owner db₁ db₂)
    (hok : createInvestmentTransaction db₁ p = .ok db₁') :
    ∃ db₂', createInvestmentTransaction db₂ p = .ok db₂' ∧ Agree p.owner db₁' db₂' := by
  have hready := ready_of_ok hok
  have hkeeps := h.same.keeps h₁ h₂ hready.account_mem hready.owner
  rw [createInvestmentTransaction_eq hready] at hok
  rw [createInvestmentTransaction_eq (hkeeps.ready hready)]
  simp only [bind_eq_ok, Except.ok.injEq] at hok ⊢
  obtain ⟨_, hhold, t, ht, i, hi, e, he, rfl⟩ := hok
  rw [hkeeps.checkHolding, ← h.next.nextTransaction, ← h.next.nextEntry, hkeeps.postedTransaction]
  exact ⟨_, ⟨_, hhold, t, ht, i, (hkeeps.fullClean t).trans hi, e, (hkeeps.cashEntry i _).trans he, rfl⟩,
    h.post t [e] [i]⟩

omit h₁ h₂ in
theorem getTransaction_same (h : Same user db₁ db₂) (pk : ℕ) : getTransaction db₁ user pk = getTransaction db₂ user pk := by
  have hfind : ∀ db : Db, (db.transactions.find? fun t => t.pk = pk ∧ t.owner = user) =
      (db.transactions.filter fun t => t.owner = user).find? fun t => t.pk = pk := by
    intro db
    rw [List.find?_filter]
    congr 1
    funext t
    simp only [decide_eq_true_eq, and_comm]
  rw [getTransaction, getTransaction, hfind, hfind, h.transactions]

omit h₁ h₂ in
theorem getTransaction_mem {db : Db} {pk : ℕ} {t : Transaction} (h : getTransaction db user pk = .ok t) :
    t ∈ db.transactions := by
  unfold getTransaction at h
  cases hfind : db.transactions.find? fun t => t.pk = pk ∧ t.owner = user with
  | some u =>
    rw [hfind] at h
    cases h
    exact List.mem_of_find?_eq_some hfind
  | none =>
    rw [hfind] at h
    cases h

/-- a stored detail of an own transaction is stored in both databases -/
theorem hasInvestmentDetail_same (h : Same user db₁ db₂) {t : Transaction} (ht : t ∈ db₁.transactions)
    (ho : t.owner = user) : db₁.hasInvestmentDetail t ↔ db₂.hasInvestmentDetail t := by
  have ht' := h.mem_transactions ht ho
  have hown : ∀ {db : Db}, Integrity db → t ∈ db.transactions → ∀ i ∈ db.investments, i.transaction.pk = t.pk →
      i ∈ db.investments.filter fun i => i.transaction.owner = user := by
    intro db hdb htdb i hi hpk
    have hit := List.inj_on_of_nodup_map hdb.transaction_nodup (hdb.detail_transaction i hi) htdb hpk
    exact List.mem_filter.2 ⟨hi, decide_eq_true (hit ▸ ho)⟩
  refine ⟨?_, ?_⟩
  · rintro ⟨i, hi, hpk⟩
    have hmem := hown h₁ ht i hi hpk
    rw [h.investments] at hmem
    exact ⟨i, (List.mem_filter.1 hmem).1, hpk⟩
  · rintro ⟨i, hi, hpk⟩
    have hmem := hown h₂ ht' i hi hpk
    rw [← h.investments] at hmem
    exact ⟨i, (List.mem_filter.1 hmem).1, hpk⟩

omit h₁ h₂ in
theorem Agree.deleteRows (h : Agree user db₁ db₂) (ids : List ℕ) :
    Agree user (Ledger.deleteRows db₁ ids) (Ledger.deleteRows db₂ ids) := by
  refine ⟨⟨h.same.currencyCode, h.same.security, h.same.accountIds, h.same.account, h.same.fixedTerm, ?_, ?_,
    h.same.investments⟩, h.next.nextAccount, h.next.nextTransaction, h.next.nextEntry, h.next.fixedTerm⟩
  · rw [deleteRows_transactions, deleteRows_transactions, List.filter_comm, h.same.transactions, List.filter_comm]
  · rw [deleteRows_entries, deleteRows_entries, List.filter_comm, h.same.entries, List.filter_comm]

theorem deleteTransaction_agree {db₁' : Db} {pk : ℕ} (h : Agree user db₁ db₂)
    (hok : Vault67.step db₁ (.deleteTransaction user pk) = .ok db₁') :
    ∃ db₂', Vault67.step db₂ (.deleteTransaction user pk) = .ok db₂' ∧ Agree user db₁' db₂' := by
  simp only [Vault67.step, bind_eq_ok, deleteTransaction, ite_error_eq_ok, not_not, Except.ok.injEq] at hok ⊢
  obtain ⟨t, ht, ho, hdetail, rfl⟩ := hok
  rw [hasInvestmentDetail_same h₁ h₂ h.same (getTransaction_mem ht) ho] at hdetail
  exact ⟨_, ⟨t, getTransaction_same h.same pk ▸ ht, ho, hdetail, rfl⟩, h.deleteRows [t.pk]⟩

theorem entriesOf_same (h : Same user db₁ db₂) {t : Transaction} (ht : t ∈ db₁.transactions) (ho : t.owner = user) :
    db₁.entriesOf t = db₂.entriesOf t := by
  have ht' := h.mem_transactions ht ho
  have hown : ∀ {db : Db}, Integrity db → t ∈ db.transactions → ∀ e ∈ db.entries,
      decide (e.transaction.pk = t.pk) = true → decide (e.transaction.owner = user) = true := by
    intro db hdb htdb e he hpk
    have het := List.inj_on_of_nodup_map hdb.transaction_nodup (hdb.entry_transaction e he) htdb
      (of_decide_eq_true hpk)
    exact decide_eq_true (het ▸ ho)
  exact filter_agree h.entries (hown h₁ ht) (hown h₂ ht') fun _ _ => rfl

theorem accountTransactions_same (h : Same user db₁ db₂) (a : ℕ) :
    accountTransactions db₁ user a = accountTransactions db₂ user a := by
  refine filter_agree h.transactions (fun t _ ht => decide_eq_true (of_decide_eq_true ht).1)
    (fun t _ ht => decide_eq_true (of_decide_eq_true ht).1) fun t ht => ?_
  obtain ⟨hmem, ho⟩ := List.mem_filter.1 ht
  rw [entriesOf_same h₁ h₂ h hmem (of_decide_eq_true ho)]

theorem deleteAccountTransactions_agree {db₁' : Db} {a n : ℕ} (h : Agree user db₁ db₂) (ha : a ∈ db₁.accountIds)
    (hok : deleteAccountTransactions db₁ user a = .ok (n, db₁')) :
    ∃ db₂', deleteAccountTransactions db₂ user a = .ok (n, db₂') ∧ Agree user db₁' db₂' := by
  simp only [deleteAccountTransactions, ite_error_eq_ok, not_not] at hok ⊢
  obtain ⟨ho, hdetails, hok⟩ := hok
  obtain ⟨-, hacc⟩ := h.same.own ha ho
  have hkeeps := h.same.keeps h₁ h₂ ha ho
  have hdetails' : ¬∃ i ∈ db₂.investments, i.account = a := by
    rintro ⟨i, hi, hia⟩
    have hmem : i ∈ db₂.investments.filter fun i => i.account = a := List.mem_filter.2 ⟨hi, decide_eq_true hia⟩
    rw [hkeeps.investments] at hmem
    exact hdetails ⟨i, (List.mem_filter.1 hmem).1, hia⟩
  have hown : ∀ t ∈ accountTransactions db₁ user a, t ∈ db₁.transactions ∧ t.owner = user := fun t ht =>
    ⟨(List.mem_filter.1 ht).1, (of_decide_eq_true (List.mem_filter.1 ht).2).1⟩
  have hany : (∃ t ∈ accountTransactions db₁ user a, db₁.hasInvestmentDetail t) ↔
      ∃ t ∈ accountTransactions db₁ user a, db₂.hasInvestmentDetail t :=
    exists_congr fun t => and_congr_right fun ht => hasInvestmentDetail_same h₁ h₂ h.same (hown t ht).1 (hown t ht).2
  rw [hacc, ← accountTransactions_same h₁ h₂ h.same a]
  split_ifs at hok with hnil hany'
  · cases hok
    exact ⟨db₂, ⟨ho, hdetails', if_pos hnil⟩, h⟩
  · cases hok
    refine ⟨_, ⟨ho, hdetails', ?_⟩, h.deleteRows _⟩
    rw [if_neg hnil, if_neg fun hsome => hany' (hany.2 hsome)]

end Own

/-! ## Own accounts -/

theorem ownIds_insertAccount {db : Db} (h : Integrity db) (user : ℕ) (row : FinancialAccount) :
    ownIds (insertAccount db row) user = ownIds db user ++ if row.owner = user then [db.nextAccount] else [] := by
  have hold : (db.accountIds.filter fun a => ((insertAccount db row).account a).owner = user) = ownIds db user := by
    refine List.filter_congr fun a ha => ?_
    rw [insertAccount_account, Function.update_of_ne (h.account_lt a ha).ne]
  rw [ownIds, insertAccount_accountIds, List.filter_append, hold, List.filter_singleton]
  simp

theorem ownIds_updateAccount (db : Db) {user a : ℕ} {row : FinancialAccount} (ho : (db.account a).owner = row.owner) :
    ownIds (updateAccount db a row) user = ownIds db user := by
  refine List.filter_congr fun b _ => ?_
  by_cases hb : b = a
  · rw [hb, updateAccount_account, Function.update_self, ho]
  · rw [updateAccount_account, Function.update_of_ne hb]

theorem update_same {β : Type} {f g : ℕ → β} {a b : ℕ} {x : β} (h : b ≠ a → f b = g b) :
    Function.update f a x b = Function.update g a x b := by
  by_cases hb : b = a
  · rw [hb, Function.update_self, Function.update_self]
  · rw [Function.update_of_ne hb, Function.update_of_ne hb, h hb]

theorem Agree.fixedTerm (h : Agree user db₁ db₂) (a : ℕ) (details : Option FixedTermDetails) :
    Agree user { db₁ with fixedTerm := Function.update db₁.fixedTerm a details }
      { db₂ with fixedTerm := Function.update db₂.fixedTerm a details } := by
  refine ⟨⟨h.same.currencyCode, h.same.security, h.same.accountIds, h.same.account, fun b hb => ?_,
    h.same.transactions, h.same.entries, h.same.investments⟩, h.next.nextAccount, h.next.nextTransaction,
    h.next.nextEntry, fun b hb => ?_⟩
  · exact update_same fun _ => h.same.fixedTerm b hb
  · exact update_same fun _ => h.next.fixedTerm b hb

theorem Agree.insertAccount (h₁ : Integrity db₁) (h₂ : Integrity db₂) (h : Agree user db₁ db₂) (row : FinancialAccount) :
    Agree user (Accounts.insertAccount db₁ row) (Accounts.insertAccount db₂ row) := by
  have hids := ownIds_insertAccount h₁ user row
  refine ⟨⟨h.same.currencyCode, h.same.security, ?_, fun a ha => ?_, fun a ha => ?_, h.same.transactions,
    h.same.entries, h.same.investments⟩, congrArg (· + 1) h.next.nextAccount, h.next.nextTransaction,
    h.next.nextEntry, fun a ha => h.next.fixedTerm a (Nat.le_of_succ_le ha)⟩
  · rw [hids, ownIds_insertAccount h₂, h.same.accountIds, h.next.nextAccount]
  · rw [insertAccount_account, insertAccount_account, ← h.next.nextAccount]
    refine update_same fun hne => h.same.account a ?_
    rw [hids, List.mem_append] at ha
    refine ha.resolve_right fun hnew => hne ?_
    split_ifs at hnew with ho
    · exact List.mem_singleton.1 hnew
    · exact absurd hnew List.not_mem_nil
  · rw [hids, List.mem_append] at ha
    rcases ha with ha | hnew
    · exact h.same.fixedTerm a ha
    · split_ifs at hnew with ho
      · rw [List.mem_singleton.1 hnew]
        exact h.next.fixedTerm _ le_rfl
      · exact absurd hnew List.not_mem_nil

theorem Agree.updateAccount (h : Agree user db₁ db₂) {a : ℕ} {row : FinancialAccount}
    (ho₁ : (db₁.account a).owner = row.owner) (ho₂ : (db₂.account a).owner = row.owner) :
    Agree user (Accounts.updateAccount db₁ a row) (Accounts.updateAccount db₂ a row) := by
  refine ⟨⟨h.same.currencyCode, h.same.security, ?_, fun b hb => ?_, fun b hb => ?_, h.same.transactions,
    h.same.entries, h.same.investments⟩, h.next.nextAccount, h.next.nextTransaction,
    h.next.nextEntry, h.next.fixedTerm⟩
  · rw [ownIds_updateAccount db₁ ho₁, ownIds_updateAccount db₂ ho₂, h.same.accountIds]
  · rw [ownIds_updateAccount db₁ ho₁] at hb
    exact update_same fun _ => h.same.account b hb
  · rw [ownIds_updateAccount db₁ ho₁] at hb
    exact h.same.fixedTerm b hb

/-! ## Own forms -/

section Forms

variable {f : FinancialAccountForm}

theorem choice_same (h : Same f.user db₁ db₂) (i : ℕ) : f.choice db₁ i ↔ f.choice db₂ i := by
  refine ⟨?_, ?_⟩
  · rintro ⟨hi, ho, hactive, hne⟩
    obtain ⟨hi', hacc⟩ := h.own hi ho
    exact ⟨hi', hacc ▸ ho, hacc ▸ hactive, hne⟩
  · rintro ⟨hi, ho, hactive, hne⟩
    obtain ⟨hi', hacc⟩ := h.symm.own hi ho
    exact ⟨hi', hacc ▸ ho, hacc ▸ hactive, hne⟩

/-- an account that is chosen is the user's -/
theorem choice_account (h : Same f.user db₁ db₂) {i : ℕ} (hi : f.choice db₁ i) : db₂.account i = db₁.account i :=
  (h.own hi.1 hi.2.1).2

/-- the accounts named in the cleaned data are choices -/
theorem clean_choices (db : Db) (f : FinancialAccountForm) :
    (∀ i ∈ (f.clean db).1.fixedInterestDestinationAccount, f.choice db i) ∧
      (∀ i ∈ (f.clean db).1.fixedMaturityDestinationAccount, f.choice db i) ∧
        ∀ i ∈ (f.clean db).1.fundingAccount, f.choice db i := by
  have hkept : ∀ {γ : Type} (g : FormData → γ), (∀ c : FormData, g { c with accountType := none } = g c) →
      (∀ c : FormData, g { c with savingsAnnualInterestRatePercent := none } = g c) →
        g (f.clean db).1 = g (f.cleanedFields db) := by
    intro γ g htype hrate
    rw [FinancialAccountForm.clean, dropSavingsRate_congr g hrate, FinancialAccountForm.dropType]
    split_ifs
    · exact htype _
    · rfl
  have hfilter : ∀ o : Option ℕ, ∀ i ∈ o.filter fun i => f.choice db i, f.choice db i := fun o i hi =>
    of_decide_eq_true (Option.mem_filter_iff.1 hi).2
  refine ⟨fun i hi => ?_, fun i hi => ?_, fun i hi => ?_⟩
  · rw [hkept FormData.fixedInterestDestinationAccount (fun _ => rfl) fun _ => rfl] at hi
    exact hfilter _ i hi
  · rw [hkept FormData.fixedMaturityDestinationAccount (fun _ => rfl) fun _ => rfl] at hi
    exact hfilter _ i hi
  · rw [hkept FormData.fundingAccount (fun _ => rfl) fun _ => rfl] at hi
    exact hfilter _ i hi

theorem clean_same (h : Same f.user db₁ db₂) (hediting : ∀ i ∈ f.editing, i ∈ ownIds db₁ f.user) :
    f.clean db₁ = f.clean db₂ := by
  have hfields : f.cleanedFields db₁ = f.cleanedFields db₂ := by
    simp only [FinancialAccountForm.cleanedFields, choice_same h]
  have htype : ∀ c, f.typeChanged db₁ c ↔ f.typeChanged db₂ c := fun c =>
    exists_congr fun i => and_congr_right fun hi => by rw [h.account i (hediting i hi)]
  have hdata : (f.clean db₁).1 = (f.clean db₂).1 := by
    simp only [FinancialAccountForm.clean, FinancialAccountForm.dropType, hfields, htype]
  have hfunding := (clean_choices db₁ f).2.2
  refine Prod.ext hdata ?_
  have herrors : fixedTermErrors db₁ (f.clean db₁).1 = fixedTermErrors db₂ (f.clean db₁).1 := by
    have hcur : (∃ i ∈ (f.clean db₁).1.fundingAccount, ∃ cur ∈ (f.clean db₁).1.currency, (db₁.account i).currency ≠ cur) ↔
        ∃ i ∈ (f.clean db₁).1.fundingAccount, ∃ cur ∈ (f.clean db₁).1.currency, (db₂.account i).currency ≠ cur :=
      exists_congr fun i => and_congr_right fun hi => by rw [choice_account h (hfunding i hi)]
    simp only [fixedTermErrors, hcur]
  have hsnd : ∀ db, (f.clean db).2 =
      let typeErrors := raised [(decide (f.typeChanged db (f.cleanedFields db)), "account_type",
        .text "Account type cannot be changed after creation.")]
      if (f.clean db).1.accountType = some .fixedTerm then typeErrors ++ fixedTermErrors db (f.clean db).1
      else typeErrors := fun db => rfl
  rw [hsnd, hsnd, ← hdata, herrors]
  simp only [hfields, htype]

theorem cleanData_same (h : Same f.user db₁ db₂) (hediting : ∀ i ∈ f.editing, i ∈ ownIds db₁ f.user) :
    f.cleanData db₁ = f.cleanData db₂ := by
  have hfields : f.fieldErrors db₁ = f.fieldErrors db₂ := by
    simp only [FinancialAccountForm.fieldErrors, choice_same h]
  rw [FinancialAccountForm.cleanData, FinancialAccountForm.cleanData, hfields, clean_same h hediting]

theorem cleanData_choices {db : Db} {c : FormData} (h : f.cleanData db = .ok c) :
    (∀ i ∈ c.fixedInterestDestinationAccount, f.choice db i) ∧
      ∀ i ∈ c.fixedMaturityDestinationAccount, f.choice db i := by
  simp only [FinancialAccountForm.cleanData] at h
  split_ifs at h
  cases h
  exact ⟨(clean_choices db f).1, (clean_choices db f).2.1⟩

/-- contract terms are cleaned with the rows of their own account and of the accounts they name -/
theorem fullClean_same {a : ℕ} {d : FixedTermDraft} (hacc : db₁.account a = db₂.account a)
    (hinterest : ∀ i ∈ d.interestDestinationAccount, (db₁.account i).owner = (db₂.account i).owner)
    (hmaturity : ∀ i ∈ d.maturityDestinationAccount, (db₁.account i).owner = (db₂.account i).owner) :
    FixedTermDraft.fullClean db₁ a d = FixedTermDraft.fullClean db₂ a d := by
  have hchecks : ∀ field (destination : Option ℕ),
      (∀ i ∈ destination, (db₁.account i).owner = (db₂.account i).owner) →
        destinationChecks db₁ a field destination = destinationChecks db₂ a field destination := by
    intro field destination hd
    have hother : (∃ i ∈ destination, (db₁.account i).owner ≠ (db₁.account a).owner) ↔
        ∃ i ∈ destination, (db₂.account i).owner ≠ (db₂.account a).owner :=
      exists_congr fun i => and_congr_right fun hi => by rw [hd i hi, hacc]
    have hown : (∃ i ∈ destination, (db₁.account i).owner = (db₁.account a).owner ∧ i = a) ↔
        ∃ i ∈ destination, (db₂.account i).owner = (db₂.account a).owner ∧ i = a :=
      exists_congr fun i => and_congr_right fun hi => by rw [hd i hi, hacc]
    simp only [destinationChecks, hother, hown]
  have hclean : FixedTermDraft.clean db₁ a d = FixedTermDraft.clean db₂ a d := by
    rw [FixedTermDraft.clean, FixedTermDraft.clean, hchecks _ _ hinterest, hchecks _ _ hmaturity, hacc]
  simp only [FixedTermDraft.fullClean, hclean]

theorem terms_destinations {c : FormData} {d : FixedTermDraft} (h : c.terms = .ok d) :
    d.interestDestinationAccount = c.fixedInterestDestinationAccount ∧
      d.maturityDestinationAccount = c.fixedMaturityDestinationAccount := by
  simp only [FormData.terms, bind_eq_ok] at h
  obtain ⟨_, -, _, -, _, -, _, -, _, -, _, -, _, -, _, -, h⟩ := h
  cases h
  exact ⟨rfl, rfl⟩

theorem saveFixedTermDetails_same {db₁' : Db} {c : FormData} {a : ℕ} {details : Option FixedTermDetails}
    (hacc : db₁.account a = db₂.account a) (hfixed : db₁.fixedTerm a = db₂.fixedTerm a)
    (hinterest : ∀ i ∈ c.fixedInterestDestinationAccount, (db₁.account i).owner = (db₂.account i).owner)
    (hmaturity : ∀ i ∈ c.fixedMaturityDestinationAccount, (db₁.account i).owner = (db₂.account i).owner)
    (hok : saveFixedTermDetails db₁ c a = .ok (details, db₁')) :
    saveFixedTermDetails db₂ c a =
      .ok (details, { db₂ with fixedTerm := Function.update db₂.fixedTerm a details }) := by
  unfold saveFixedTermDetails at hok ⊢
  rw [← hacc, ← hfixed]
  split_ifs at hok ⊢ with htype
  · cases hok
    rfl
  · simp only [bind_eq_ok, ite_error_eq_ok] at hok ⊢
    obtain ⟨d, hd, hinsert, details', hdetails, hok⟩ := hok
    cases hok
    obtain ⟨hdi, hdm⟩ := terms_destinations hd
    refine ⟨d, hd, hinsert, details', ?_, rfl⟩
    rw [← fullClean_same hacc (hdi ▸ hinterest) (hdm ▸ hmaturity)]
    exact hdetails

end Forms

theorem fundFixedTerm_agree {db₁' : Db} {a : ℕ} {details : FixedTermDetails} {funding : Option ℕ}
    (h : Agree user db₁ db₂) (hacc : db₁.account a = db₂.account a)
    (hok : fundFixedTerm db₁ user a details funding = .ok db₁') :
    ∃ db₂', fundFixedTerm db₂ user a details funding = .ok db₂' ∧ Agree user db₁' db₂' := by
  unfold fundFixedTerm at hok ⊢
  rw [← hacc]
  cases funding with
  | some source => exact createTransfer_agree h hok
  | none => exact create_agree h hok

theorem accountCreateView_agree (h₁ : Integrity db₁) (h₂ : Integrity db₂) {db₁' : Db} {data : FormData}
    (h : Agree user db₁ db₂) (hok : accountCreateView db₁ user data = .ok db₁') :
    ∃ db₂', accountCreateView db₂ user data = .ok db₂' ∧ Agree user db₁' db₂' := by
  have hclean := cleanData_same (f := ⟨user, none, data⟩) h.same fun i hi => by cases hi
  simp only [accountCreateView, bind_eq_ok] at hok ⊢
  obtain ⟨c, hc, row, hrow, ⟨details, db⟩, hd, hok⟩ := hok
  have hinsert := h.insertAccount h₁ h₂ row
  obtain ⟨hinterest, hmaturity⟩ := cleanData_choices hc
  have hchosen : ∀ i, FinancialAccountForm.choice db₁ ⟨user, none, data⟩ i →
      ((insertAccount db₁ row).account i).owner = ((insertAccount db₂ row).account i).owner := by
    intro i hi
    have hmem : i ∈ ownIds (insertAccount db₁ row) user := by
      rw [ownIds_insertAccount h₁]
      exact List.mem_append_left _ (mem_ownIds.2 ⟨hi.1, hi.2.1⟩)
    rw [hinsert.same.account i hmem]
  have hself : (insertAccount db₁ row).account db₁.nextAccount = (insertAccount db₂ row).account db₁.nextAccount := by
    rw [insertAccount_account, insertAccount_account, ← h.next.nextAccount, Function.update_self, Function.update_self]
  have hd' := saveFixedTermDetails_same hself (h.next.fixedTerm _ le_rfl) (fun i hi => hchosen i (hinterest i hi))
    (fun i hi => hchosen i (hmaturity i hi)) hd
  have hdb := saveFixedTermDetails_ok hd
  have hagree := hinsert.fixedTerm db₁.nextAccount details
  rw [← hclean, ← h.next.nextAccount]
  cases details with
  | none =>
    cases hok
    rw [hdb]
    exact ⟨_, ⟨c, hc, row, hrow, _, hd', rfl⟩, hagree⟩
  | some details =>
    rw [hdb] at hok
    obtain ⟨db₂', hdb₂', hagree'⟩ := fundFixedTerm_agree hagree hself hok
    exact ⟨db₂', ⟨c, hc, row, hrow, _, hd', hdb₂'⟩, hagree'⟩

theorem accountUpdateView_agree {db₁' : Db} {a : ℕ} {data : FormData} (h : Agree user db₁ db₂)
    (hok : accountUpdateView db₁ user a data = .ok db₁') :
    ∃ db₂', accountUpdateView db₂ user a data = .ok db₂' ∧ Agree user db₁' db₂' := by
  unfold accountUpdateView at hok ⊢
  split_ifs at hok with hown
  obtain ⟨hmem', hacc⟩ := h.same.own hown.1 hown.2
  have hclean := cleanData_same (f := ⟨user, some a, data⟩) h.same fun i hi => by
    cases hi
    exact mem_ownIds.2 hown
  rw [if_pos ⟨hmem', hacc ▸ hown.2⟩]
  simp only [bind_eq_ok] at hok ⊢
  obtain ⟨c, hc, row, hrow, ⟨details, db⟩, hd, hok⟩ := hok
  cases hok
  have ho : row.owner = (db₁.account a).owner := (saveAccount_ok hrow).1
  have hupdate := h.updateAccount (a := a) ho.symm (by rw [hacc, ho])
  obtain ⟨hinterest, hmaturity⟩ := cleanData_choices hc
  have hchosen : ∀ i, FinancialAccountForm.choice db₁ ⟨user, some a, data⟩ i →
      ((updateAccount db₁ a row).account i).owner = ((updateAccount db₂ a row).account i).owner := by
    intro i hi
    have hmem : i ∈ ownIds (updateAccount db₁ a row) user := by
      rw [ownIds_updateAccount db₁ ho.symm]
      exact mem_ownIds.2 ⟨hi.1, hi.2.1⟩
    rw [hupdate.same.account i hmem]
  have hself : (updateAccount db₁ a row).account a = (updateAccount db₂ a row).account a := by
    rw [updateAccount_account, updateAccount_account, Function.update_self, Function.update_self]
  have hd' := saveFixedTermDetails_same hself (h.same.fixedTerm a (mem_ownIds.2 hown))
    (fun i hi => hchosen i (hinterest i hi)) (fun i hi => hchosen i (hmaturity i hi)) hd
  have hdb := saveFixedTermDetails_ok hd
  rw [← hclean, hacc]
  rw [hdb]
  exact ⟨_, ⟨c, hc, row, hrow, _, hd', rfl⟩, hupdate.fixedTerm a details⟩

theorem archiveAccount_agree {db₁' : Db} {a : ℕ} (h : Agree user db₁ db₂)
    (hok : archiveAccount db₁ user a = .ok db₁') :
    ∃ db₂', archiveAccount db₂ user a = .ok db₂' ∧ Agree user db₁' db₂' := by
  unfold archiveAccount at hok ⊢
  split_ifs at hok with hown
  cases hok
  obtain ⟨hmem', hacc⟩ := h.same.own hown.1 hown.2
  rw [if_pos ⟨hmem', hacc ▸ hown.2⟩, hacc]
  exact ⟨_, rfl, h.updateAccount rfl (by rw [hacc])⟩

/-! ## One own request -/

/-- an import or a bulk deletion for an account the user does not have changes nothing -/
theorem importTransactions_none {db db' : Db} {a n : ℕ} {rows : List ImportedRow} (ha : a ∉ db.accountIds)
    (h : importTransactions db user a rows = .ok (n, db')) : db' = db := by
  simp only [importTransactions, ite_error_eq_ok, bind_eq_ok, Except.ok.injEq, Prod.mk.injEq] at h
  obtain ⟨-, -, _, hrows, -, rfl⟩ := h
  cases rows with
  | nil =>
    cases hrows
    rfl
  | cons row rows =>
    obtain ⟨db₁, hrow, -⟩ := foldlM_cons_ok.1 hrows
    simp only [create, ite_error_eq_ok, bind_eq_ok] at hrow
    obtain ⟨-, -, ⟨t, db₂⟩, ht, he⟩ := hrow
    obtain ⟨-, -, -, -, rfl⟩ := createTransaction_ok ht
    obtain ⟨-, hmem, -⟩ := createEntry_ok he
    exact absurd hmem ha

theorem deleteAccountTransactions_none {db db' : Db} (hdb : Integrity db) {a n : ℕ} (ha : a ∉ db.accountIds)
    (h : deleteAccountTransactions db user a = .ok (n, db')) : db' = db := by
  have hnone : accountTransactions db user a = [] := by
    refine List.filter_eq_nil_iff.2 fun t ht hc => ?_
    obtain ⟨-, e, he, hea⟩ := of_decide_eq_true hc
    exact ha (hea ▸ hdb.entry_account e (List.mem_filter.1 he).1)
  simp only [deleteAccountTransactions, ite_error_eq_ok] at h
  obtain ⟨-, -, h⟩ := h
  rw [if_pos hnone] at h
  cases h
  rfl

/-- a request that changes nothing on either side -/
theorem Agree.unchanged (h : Agree user db₁ db₂) {op : Op}
    (hnone : ∀ db', Vault67.step db₂ op = .ok db' → db' = db₂) : Agree user db₁ (attempt Vault67.step db₂ op) :=
  attempt_inv (I := Agree user db₁) h fun db' hdb' => hnone db' hdb' ▸ h

/-- **An own request that is accepted on one side does the same on the other**, so the states still agree after it. -/
theorem step_agree (h₁ : Integrity db₁) (h₂ : Integrity db₂) (h : Agree user db₁ db₂) {op : Op} (hop : op.user = user)
    {db₁' : Db} (hok : Vault67.step db₁ op = .ok db₁') : Agree user db₁' (attempt Vault67.step db₂ op) := by
  have hsame : ∀ {op}, (∃ db₂', Vault67.step db₂ op = .ok db₂' ∧ Agree user db₁' db₂') →
      Agree user db₁' (attempt Vault67.step db₂ op) := by
    rintro op ⟨db₂', hdb₂', hagree⟩
    rw [attempt_ok hdb₂']
    exact hagree
  cases op with
  | createDeposit owner account amount date description type notes =>
    cases hop
    exact hsame (create_agree h hok)
  | createWithdrawal owner account amount date description type notes =>
    cases hop
    exact hsame (createWithdrawal_agree h hok)
  | createTransfer owner source destination amount date description notes =>
    cases hop
    exact hsame (createTransfer_agree h hok)
  | importTransactions owner account rows =>
    cases hop
    obtain ⟨⟨n, db⟩, hi, hok⟩ := bind_eq_ok.1 hok
    cases hok
    by_cases hacc : account ∈ db₁.accountIds
    · obtain ⟨db₂', hdb₂', hagree⟩ := importTransactions_agree h hacc hi
      exact hsame ⟨db₂', bind_eq_ok.2 ⟨_, hdb₂', rfl⟩, hagree⟩
    · rw [importTransactions_none hacc hi]
      refine h.unchanged fun db' hdb' => ?_
      obtain ⟨⟨n', db⟩, hi', hdb'⟩ := bind_eq_ok.1 hdb'
      cases hdb'
      have ho : (db₂.account account).owner = owner := by
        simp only [importTransactions, ite_error_eq_ok, not_not] at hi'
        exact hi'.1
      exact importTransactions_none (fun hmem => hacc (h.same.symm.own hmem ho).1) hi'
  | createInvestmentTransaction p =>
    cases hop
    exact hsame (createInvestmentTransaction_agree h₁ h₂ h hok)
  | deleteTransaction owner pk =>
    cases hop
    exact hsame (deleteTransaction_agree h₁ h₂ h hok)
  | deleteAccountTransactions owner account =>
    cases hop
    obtain ⟨⟨n, db⟩, hd, hok⟩ := bind_eq_ok.1 hok
    cases hok
    by_cases hacc : account ∈ db₁.accountIds
    · obtain ⟨db₂', hdb₂', hagree⟩ := deleteAccountTransactions_agree h₁ h₂ h hacc hd
      exact hsame ⟨db₂', bind_eq_ok.2 ⟨_, hdb₂', rfl⟩, hagree⟩
    · rw [deleteAccountTransactions_none h₁ hacc hd]
      refine h.unchanged fun db' hdb' => ?_
      obtain ⟨⟨n', db⟩, hd', hdb'⟩ := bind_eq_ok.1 hdb'
      cases hdb'
      have ho : (db₂.account account).owner = owner := by
        simp only [deleteAccountTransactions, ite_error_eq_ok, not_not] at hd'
        exact hd'.1
      exact deleteAccountTransactions_none h₂ (fun hmem => hacc (h.same.symm.own hmem ho).1) hd'
  | createAccount owner data =>
    cases hop
    exact hsame (accountCreateView_agree h₁ h₂ h hok)
  | updateAccount owner account data =>
    cases hop
    exact hsame (accountUpdateView_agree h hok)
  | archiveAccount owner account =>
    cases hop
    exact hsame (archiveAccount_agree h hok)

theorem attempt_agree (h₁ : Integrity db₁) (h₂ : Integrity db₂) (h : Agree user db₁ db₂) {op : Op}
    (hop : op.user = user) : Agree user (attempt Vault67.step db₁ op) (attempt Vault67.step db₂ op) := by
  cases hok : Vault67.step db₁ op with
  | ok db₁' =>
    rw [attempt_ok hok]
    exact step_agree h₁ h₂ h hop hok
  | error err =>
    have hkeep : attempt Vault67.step db₁ op = db₁ := by
      rw [attempt, hok]
    cases hok' : Vault67.step db₂ op with
    | ok db₂' =>
      rw [attempt_ok hok']
      exact (step_agree h₂ h₁ h.symm hop hok').symm
    | error err' =>
      rw [hkeep, attempt, hok']
      exact h

/-! ## Requests of others -/

/-- what a request leaves to another user: the counters -/
structure Untouched (user : ℕ) (db db' : Db) : Prop where
  same : Same user db db'
  nextAccount : db.nextAccount ≤ db'.nextAccount
  nextTransaction : db.nextTransaction ≤ db'.nextTransaction
  nextEntry : db.nextEntry ≤ db'.nextEntry
  fixedTerm : ∀ a, db'.nextAccount ≤ a → db'.fixedTerm a = db.fixedTerm a

theorem Untouched.refl (db : Db) : Untouched user db db :=
  ⟨.refl db, le_rfl, le_rfl, le_rfl, fun _ _ => rfl⟩

theorem Untouched.trans (h : Untouched user db₁ db₂) (h' : Untouched user db₂ db₃) : Untouched user db₁ db₃ :=
  ⟨h.same.trans h'.same, h.nextAccount.trans h'.nextAccount, h.nextTransaction.trans h'.nextTransaction,
    h.nextEntry.trans h'.nextEntry, fun a ha => (h'.fixedTerm a ha).trans (h.fixedTerm a (h'.nextAccount.trans ha))⟩

variable {db db' : Db}

theorem post_untouched {t : Transaction} {es : List TransactionEntry} {is : List InvestmentTransaction}
    (ht : t.owner ≠ user) (hes : ∀ e ∈ es, e.transaction = t) (his : ∀ i ∈ is, i.transaction = t) :
    Untouched user db (db.post t es is) := by
  refine ⟨⟨rfl, rfl, rfl, fun _ _ => rfl, fun _ _ => rfl, ?_, ?_, ?_⟩, le_rfl, Nat.le_succ _, Nat.le_add_right _ _,
    fun _ _ => rfl⟩
  · rw [Db.post_transactions, List.filter_append, List.filter_cons_of_neg (by simpa using ht), List.filter_nil,
      List.append_nil]
  · have hnone : (es.filter fun e => e.transaction.owner = user) = [] :=
      List.filter_eq_nil_iff.2 fun e he hc => ht (hes e he ▸ of_decide_eq_true hc)
    rw [Db.post_entries, List.filter_append, hnone, List.append_nil]
  · have hnone : (is.filter fun i => i.transaction.owner = user) = [] :=
      List.filter_eq_nil_iff.2 fun i hi hc => ht (his i hi ▸ of_decide_eq_true hc)
    rw [Db.post_investments, List.filter_append, hnone, List.append_nil]

theorem create_untouched {owner account : ℕ} {amount : ℚ} {type : TransactionType} {date : Date}
    {description notes reference : String} (hne : owner ≠ user)
    (h : create db owner account amount type date description notes reference = .ok db') : Untouched user db db' := by
  simp only [create, ite_error_eq_ok, bind_eq_ok] at h
  obtain ⟨-, -, ⟨t, db₁⟩, ht, he⟩ := h
  obtain ⟨-, hto, -, -, rfl⟩ := createTransaction_ok ht
  obtain ⟨e, -, -, het, -, -, -, -, rfl⟩ := createEntry_ok he
  rw [Db.addEntry_addTransaction]
  exact post_untouched (hto ▸ hne) (by simpa using het) (by simp)

theorem createWithdrawal_untouched {owner account : ℕ} {amount : ℚ} {type : TransactionType} {date : Date}
    {description notes : String} (hne : owner ≠ user)
    (h : createWithdrawal db owner account amount date description type notes = .ok db') : Untouched user db db' := by
  unfold createWithdrawal at h
  split_ifs at h
  exact create_untouched hne h

theorem createTransfer_untouched {owner source destination : ℕ} {amount : ℚ} {date : Date}
    {description notes : String} (hne : owner ≠ user)
    (h : createTransfer db owner source destination amount date description notes = .ok db') :
    Untouched user db db' := by
  simp only [createTransfer, ite_error_eq_ok, bind_eq_ok] at h
  obtain ⟨-, -, -, -, ⟨t, db₁⟩, ht, db₂, hs, hd⟩ := h
  obtain ⟨-, hto, -, -, rfl⟩ := createTransaction_ok ht
  obtain ⟨e, -, -, het, -, -, -, -, rfl⟩ := createEntry_ok hs
  obtain ⟨e', -, -, het', -, -, -, -, rfl⟩ := createEntry_ok hd
  rw [Db.addEntry_addEntry]
  exact post_untouched (hto ▸ hne) (by simpa using ⟨het, het'⟩) (by simp)

theorem deleteRows_untouched (hdb : Integrity db) {ids : List ℕ}
    (hids : ∀ t ∈ db.transactions, t.pk ∈ ids → t.owner ≠ user) : Untouched user db (deleteRows db ids) := by
  refine ⟨⟨rfl, rfl, rfl, fun _ _ => rfl, fun _ _ => rfl, ?_, ?_, rfl⟩, le_rfl, le_rfl, le_rfl, fun _ _ => rfl⟩
  · rw [deleteRows_transactions, List.filter_filter]
    refine List.filter_congr fun t ht => ?_
    rw [← Bool.decide_and]
    exact decide_eq_decide.2 ⟨fun ho => ⟨ho, fun hpk => hids t ht hpk ho⟩, And.left⟩
  · rw [deleteRows_entries, List.filter_filter]
    refine List.filter_congr fun e he => ?_
    rw [← Bool.decide_and]
    exact decide_eq_decide.2
      ⟨fun ho => ⟨ho, fun hpk => hids _ (hdb.entry_transaction e he) hpk ho⟩, And.left⟩

/-- the account row of somebody else -/
theorem updateAccount_untouched {a : ℕ} {row : FinancialAccount} {fixedTerm : ℕ → Option FixedTermDetails}
    (hdb : Integrity db) (ha : a ∈ db.accountIds) (ho : (db.account a).owner ≠ user)
    (hrow : row.owner = (db.account a).owner) (hfixed : ∀ b, b ≠ a → fixedTerm b = db.fixedTerm b) :
    Untouched user db { updateAccount db a row with fixedTerm := fixedTerm } := by
  have hne : ∀ b ∈ ownIds db user, b ≠ a := by
    rintro b hb rfl
    exact ho (mem_ownIds.1 hb).2
  refine ⟨⟨rfl, rfl, (ownIds_updateAccount db hrow.symm).symm, fun b hb => ?_, fun b hb => ?_, rfl, rfl, rfl⟩, le_rfl,
    le_rfl, le_rfl, fun b hb => ?_⟩
  · exact (Function.update_of_ne (hne b hb) _ _).symm
  · exact (hfixed b (hne b hb)).symm
  · refine hfixed b ?_
    rintro rfl
    exact absurd (hdb.account_lt b ha) (not_lt.2 hb)

theorem insertAccount_untouched (hdb : Integrity db) {row : FinancialAccount} (hrow : row.owner ≠ user)
    {details : Option FixedTermDetails} :
    Untouched user db { insertAccount db row with
      fixedTerm := Function.update db.fixedTerm db.nextAccount details } := by
  have hlt : ∀ a ∈ ownIds db user, a ≠ db.nextAccount := fun a ha => (hdb.account_lt a (mem_ownIds.1 ha).1).ne
  refine ⟨⟨rfl, rfl, ?_, fun a ha => ?_, fun a ha => ?_, rfl, rfl, rfl⟩, Nat.le_succ _, le_rfl, le_rfl, fun a ha => ?_⟩
  · refine (Eq.trans (ownIds_insertAccount hdb user row) ?_).symm
    rw [if_neg hrow, List.append_nil]
  · exact (Function.update_of_ne (hlt a ha) _ _).symm
  · exact (Function.update_of_ne (hlt a ha) _ _).symm
  · exact Function.update_of_ne (Nat.lt_of_succ_le ha).ne' _ _

/-- **A request of anybody else.** It leaves what the user owns as it is; only the counters move on. -/
theorem step_untouched (hdb : Integrity db) {op : Op} (hop : op.user ≠ user) (h : Vault67.step db op = .ok db') :
    Untouched user db db' := by
  cases op with
  | createDeposit owner account amount date description type notes => exact create_untouched hop h
  | createWithdrawal owner account amount date description type notes => exact createWithdrawal_untouched hop h
  | createTransfer owner source destination amount date description notes => exact createTransfer_untouched hop h
  | importTransactions owner account rows =>
    obtain ⟨⟨n, db₁⟩, hi, h⟩ := bind_eq_ok.1 h
    cases h
    simp only [importTransactions, ite_error_eq_ok, bind_eq_ok, Except.ok.injEq, Prod.mk.injEq] at hi
    obtain ⟨-, -, _, hrows, -, rfl⟩ := hi
    refine foldlM_inv (I := Untouched user db) ?_ (.refl db) hrows
    exact fun _ _ row _ hdb hrow => hdb.trans (create_untouched hop hrow)
  | createInvestmentTransaction p =>
    obtain ⟨i, e, hp, hdraft, -, -, rfl⟩ := createInvestmentTransaction_ok h
    have ho : i.transaction.owner = p.owner := by
      rw [← hp.account_owner, show i.account = p.account from congrArg InvestmentDraft.account hdraft]
      exact (ready_of_ok h).owner
    exact post_untouched (ho ▸ hop) (by simpa using hp.entry_transaction) (by simp)
  | deleteTransaction owner pk =>
    obtain ⟨t, ht, h⟩ := bind_eq_ok.1 h
    simp only [deleteTransaction, ite_error_eq_ok, not_not, Except.ok.injEq] at h
    obtain ⟨ho, -, rfl⟩ := h
    refine deleteRows_untouched hdb fun u hu hpk => ?_
    have hut : u = t := List.inj_on_of_nodup_map hdb.transaction_nodup hu (getTransaction_mem ht)
      (List.mem_singleton.1 hpk)
    rw [hut, ho]
    exact hop
  | deleteAccountTransactions owner account =>
    obtain ⟨⟨n, db₁⟩, hd, h⟩ := bind_eq_ok.1 h
    cases h
    simp only [deleteAccountTransactions, ite_error_eq_ok] at hd
    obtain ⟨-, -, hd⟩ := hd
    split_ifs at hd <;> cases hd
    · exact .refl db
    · refine deleteRows_untouched hdb fun u hu hpk => ?_
      obtain ⟨t, ht, hpk⟩ := List.mem_map.1 hpk
      obtain ⟨hmem, hc⟩ := List.mem_filter.1 ht
      rw [← List.inj_on_of_nodup_map hdb.transaction_nodup hmem hu hpk, (of_decide_eq_true hc).1]
      exact hop
  | createAccount owner data =>
    simp only [Vault67.step, accountCreateView, bind_eq_ok] at h
    obtain ⟨c, -, row, hrow, ⟨details, db₁⟩, hd, h⟩ := h
    have hinsert : Untouched user db db₁ := by
      rw [saveFixedTermDetails_ok hd]
      exact insertAccount_untouched hdb ((saveAccount_ok hrow).1 ▸ hop)
    cases details with
    | none =>
      cases h
      exact hinsert
    | some details =>
      refine hinsert.trans ?_
      simp only [fundFixedTerm] at h
      cases hfunding : c.fundingAccount with
      | some source =>
        rw [hfunding] at h
        exact createTransfer_untouched hop h
      | none =>
        rw [hfunding] at h
        exact create_untouched hop h
  | updateAccount owner account data =>
    simp only [Vault67.step, accountUpdateView] at h
    split_ifs at h with hown
    simp only [bind_eq_ok] at h
    obtain ⟨c, -, row, hrow, ⟨details, db₁⟩, hd, h⟩ := h
    cases h
    rw [saveFixedTermDetails_ok hd]
    exact updateAccount_untouched hdb hown.1 (hown.2 ▸ hop) (saveAccount_ok hrow).1 fun b hb =>
      Function.update_of_ne hb _ _
  | archiveAccount owner account =>
    simp only [Vault67.step, archiveAccount] at h
    split_ifs at h with hown
    cases h
    exact updateAccount_untouched hdb hown.1 (hown.2 ▸ hop) rfl fun _ _ => rfl

end Vault67
