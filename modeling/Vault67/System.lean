/-
The whole system as one machine: every operation that writes to the ledger, the account table or the investment
details, by any user, in any order. `step db op` is the state after an accepted operation, or the exception.

`step_writes`: an accepted operation is a sequence of primitive writes (`Write`), or the edit of an account. Every
invariant of the system is proved once for each kind of write.
-/
import Mathlib.Tactic
import Vault67.Ledger.Imports
import Vault67.Investments.Posting
import Vault67.Accounts.Views

namespace Vault67

open Ledger Investments Accounts Fallible

/-! ## Operations -/

inductive Op where
  | createDeposit (owner account : ℕ) (amount : ℚ) (date : Date) (description : String)
      (transactionType : TransactionType) (notes : String)
  | createWithdrawal (owner account : ℕ) (amount : ℚ) (date : Date) (description : String)
      (transactionType : TransactionType) (notes : String)
  | createTransfer (owner source destination : ℕ) (amount : ℚ) (date : Date) (description notes : String)
  | importTransactions (owner account : ℕ) (rows : List ImportedRow)
  | createInvestmentTransaction (p : InvestmentPosting)
  | deleteTransaction (owner pk : ℕ)
  | deleteAccountTransactions (owner account : ℕ)
  | createAccount (user : ℕ) (data : FormData)
  | updateAccount (user account : ℕ) (data : FormData)
  | archiveAccount (user account : ℕ)

/-- `get_object_or_404(Transaction, pk=pk, owner=owner)` -/
def getTransaction (db : Db) (owner pk : ℕ) : Except Error Transaction :=
  match db.transactions.find? fun t => t.pk = pk ∧ t.owner = owner with
  | some t => .ok t
  | none => .error .notFound

def step (db : Db) : Op → Except Error Db
  | .createDeposit owner account amount date description type notes =>
    createDeposit db owner account amount date description type notes
  | .createWithdrawal owner account amount date description type notes =>
    createWithdrawal db owner account amount date description type notes
  | .createTransfer owner source destination amount date description notes =>
    createTransfer db owner source destination amount date description notes
  | .importTransactions owner account rows => do
    let (_, db') ← importTransactions db owner account rows
    .ok db'
  | .createInvestmentTransaction p => createInvestmentTransaction db p
  | .deleteTransaction owner pk => do
    let t ← getTransaction db owner pk
    deleteTransaction db owner t
  | .deleteAccountTransactions owner account => do
    let (_, db') ← deleteAccountTransactions db owner account
    .ok db'
  | .createAccount user data => accountCreateView db user data
  | .updateAccount user account data => accountUpdateView db user account data
  | .archiveAccount user account => archiveAccount db user account

/-- the types of a transaction with one entry and no detail; no caller passes another to a deposit or a withdrawal -/
def singleEntry (t : TransactionType) : Prop := t ≠ .transfer ∧ t ≠ .buy ∧ t ≠ .sell

instance (t : TransactionType) : Decidable (singleEntry t) := inferInstanceAs (Decidable (_ ∧ _ ∧ _))

/-- the type that the caller of a deposit or a withdrawal passes is one of S -/
def Op.Posts (S : TransactionType → Prop) : Op → Prop
  | .createDeposit _ _ _ _ _ type _ => S type
  | .createWithdrawal _ _ _ _ _ type _ => S type
  | _ => True

instance (S : TransactionType → Prop) [DecidablePred S] (op : Op) : Decidable (op.Posts S) := by
  cases op <;> (unfold Op.Posts; infer_instance)

theorem Op.Posts.of_forall {S : TransactionType → Prop} (hS : ∀ t, S t) (op : Op) : op.Posts S := by
  cases op with
  | createDeposit owner account amount date description type notes => exact hS type
  | createWithdrawal owner account amount date description type notes => exact hS type
  | _ => exact trivial

def Op.legal (op : Op) : Prop := op.Posts singleEntry

instance (op : Op) : Decidable op.legal := inferInstanceAs (Decidable (op.Posts singleEntry))

/-! ## Primitive writes -/

/-- entry e of transaction t fits the account it is posted on -/
structure EntryFor (db : Db) (t : Transaction) (e : TransactionEntry) : Prop where
  transaction : e.transaction = t
  account_mem : e.account ∈ db.accountIds
  owner : (db.account e.account).owner = t.owner
  currency : e.currency = (db.account e.account).currency

/-- S: the types that are posted as a single entry without a detail -/
inductive Write (S : TransactionType → Prop) (db : Db) : Db → Prop
  | entry {t : Transaction} {e : TransactionEntry} (ht : t.pk = db.nextTransaction) (hS : S t.transactionType)
      (he : EntryFor db t e) (hpk : e.pk = db.nextEntry) : Write S db (db.post t [e] [])
  | transfer {t : Transaction} {source destination : TransactionEntry} (ht : t.pk = db.nextTransaction)
      (htype : t.transactionType = .transfer) (hs : EntryFor db t source) (hd : EntryFor db t destination)
      (hspk : source.pk = db.nextEntry) (hdpk : destination.pk = db.nextEntry + 1)
      (hne : source.account ≠ destination.account) (hcur : source.currency = destination.currency)
      (hpos : 0 < destination.amount) (hneg : source.amount = -destination.amount) :
      Write S db (db.post t [source, destination] [])
  | investment {i : InvestmentTransaction} {e : TransactionEntry} (h : Posted db i e) :
      Write S db (db.post i.transaction [e] [i])
  | delete {ids : List ℕ} (h : ∀ i ∈ db.investments, i.transaction.pk ∉ ids) : Write S db (deleteRows db ids)
  | newAccount {row : FinancialAccount} : Write S db (insertAccount db row)
  | keep (account : ℕ → FinancialAccount) (fixedTerm : ℕ → Option FixedTermDetails)
      (h : ∀ i, (account i).owner = (db.account i).owner ∧ (account i).currency = (db.account i).currency ∧
        (account i).accountType = (db.account i).accountType) :
      Write S db { db with account := account, fixedTerm := fixedTerm }

/-- a sequence of writes -/
def Writes (S : TransactionType → Prop) : Db → Db → Prop := Relation.ReflTransGen (Write S)

theorem Write.mono {S S' : TransactionType → Prop} (hS : ∀ t, S t → S' t) {db db' : Db} (h : Write S db db') :
    Write S' db db' := by
  cases h with
  | entry ht hs he hpk => exact .entry ht (hS _ hs) he hpk
  | transfer ht htype hs hd hspk hdpk hne hcur hpos hneg => exact .transfer ht htype hs hd hspk hdpk hne hcur hpos hneg
  | investment h => exact .investment h
  | delete h => exact .delete h
  | newAccount => exact .newAccount
  | keep account fixedTerm h => exact .keep account fixedTerm h

theorem Writes.mono {S S' : TransactionType → Prop} (hS : ∀ t, S t → S' t) {db db' : Db} (h : Writes S db db') :
    Writes S' db db' := by
  induction h with
  | refl => exact .refl
  | tail _ hw ih => exact ih.tail (hw.mono hS)

/-- what every write keeps, a sequence of writes keeps -/
theorem Writes.inv {S : TransactionType → Prop} {I : Db → Prop} (hI : ∀ db db', I db → Write S db db' → I db')
    {db db' : Db} (h : Writes S db db') (hdb : I db) : I db' := by
  induction h with
  | refl => exact hdb
  | tail _ hw ih => exact hI _ _ ih hw

/-! ## Each service in terms of writes -/

theorem create_write {db db' : Db} {owner account : ℕ} {amount : ℚ} {type : TransactionType} {date : Date}
    {description notes reference : String}
    (h : create db owner account amount type date description notes reference = .ok db') :
    Write (· = type) db db' := by
  simp only [create, ite_error_eq_ok, bind_eq_ok, not_not] at h
  obtain ⟨-, howner, ⟨t, db₁⟩, ht, he⟩ := h
  obtain ⟨hpk, hto, -, htt, rfl⟩ := createTransaction_ok ht
  obtain ⟨e, hacc, hepk, het, hea, -, hecur, -, rfl⟩ := createEntry_ok he
  rw [Db.addEntry_addTransaction]
  refine .entry hpk htt ⟨het, hea ▸ hacc, ?_, ?_⟩ hepk
  · rw [hea, howner, hto]
  · rw [hecur, hea]

theorem createDeposit_write {db db' : Db} {owner account : ℕ} {amount : ℚ} {type : TransactionType} {date : Date}
    {description notes : String} (h : createDeposit db owner account amount date description type notes = .ok db') :
    Write (· = type) db db' := create_write h

theorem createWithdrawal_write {db db' : Db} {owner account : ℕ} {amount : ℚ} {type : TransactionType} {date : Date}
    {description notes : String} (h : createWithdrawal db owner account amount date description type notes = .ok db') :
    Write (· = type) db db' := by
  unfold createWithdrawal at h
  split_ifs at h
  exact create_write h

theorem createTransfer_write {S : TransactionType → Prop} {db db' : Db} {owner source destination : ℕ} {amount : ℚ}
    {date : Date} {description notes : String}
    (h : createTransfer db owner source destination amount date description notes = .ok db') : Write S db db' := by
  simp only [createTransfer, ite_error_eq_ok, bind_eq_ok, not_not, not_or, not_le] at h
  obtain ⟨hpos, hne, ⟨hos, hod⟩, hcur, ⟨t, db₁⟩, ht, db₂, hs, hd⟩ := h
  obtain ⟨hpk, hto, -, htt, rfl⟩ := createTransaction_ok ht
  obtain ⟨e, hacc, hepk, het, hea, hes, hecur, -, rfl⟩ := createEntry_ok hs
  obtain ⟨e', hacc', hepk', het', hea', hes', hecur', -, rfl⟩ := createEntry_ok hd
  have hneg : e.amount = -e'.amount := storeMoney_neg hes' hes
  have hamount : 0 < e'.amount := lt_of_le_of_ne (storeMoney_nonneg hes' hpos.le) e'.amount_ne.symm
  rw [Db.addEntry_addEntry]
  refine .transfer hpk htt ⟨het, hea ▸ hacc, ?_, ?_⟩ ⟨het', hea' ▸ hacc', ?_, ?_⟩ hepk hepk' ?_ ?_ hamount hneg
  · rw [hea, hos, hto]
  · rw [hecur, hea]
  · rw [hea', hod, hto]
  · rw [hecur', hea']
  · rwa [hea, hea']
  · rw [hecur, hecur', hcur]

theorem importTransactions_writes {db db' : Db} {owner account n : ℕ} {rows : List ImportedRow}
    (h : importTransactions db owner account rows = .ok (n, db')) : Writes singleEntry db db' := by
  simp only [importTransactions, ite_error_eq_ok, bind_eq_ok, Except.ok.injEq, Prod.mk.injEq] at h
  obtain ⟨-, -, _, hrows, -, rfl⟩ := h
  refine foldlM_inv (I := fun db' => Writes singleEntry db db') ?_ .refl hrows
  intro db₁ db₂ row _ hdb hrow
  refine hdb.tail ((create_write hrow).mono ?_)
  rintro _ rfl
  have hm := row.type_mem
  revert hm
  cases row.transactionType <;> decide

theorem createInvestmentTransaction_write {S : TransactionType → Prop} {db db' : Db} {p : InvestmentPosting}
    (h : createInvestmentTransaction db p = .ok db') : Write S db db' := by
  obtain ⟨i, e, hp, -, -, -, rfl⟩ := createInvestmentTransaction_ok h
  exact .investment hp

theorem deleteTransaction_write {S : TransactionType → Prop} {db db' : Db} {owner : ℕ} {t : Transaction}
    (h : deleteTransaction db owner t = .ok db') : Write S db db' := by
  simp only [deleteTransaction, ite_error_eq_ok, Except.ok.injEq] at h
  obtain ⟨-, hd, rfl⟩ := h
  refine .delete fun i hi => ?_
  simp only [List.mem_singleton]
  exact fun e => hd ⟨i, hi, e⟩

theorem deleteAccountTransactions_writes {S : TransactionType → Prop} {db db' : Db} {owner account n : ℕ}
    (h : deleteAccountTransactions db owner account = .ok (n, db')) : Writes S db db' := by
  simp only [deleteAccountTransactions, ite_error_eq_ok] at h
  obtain ⟨-, -, h⟩ := h
  split_ifs at h with hnil hd <;> cases h
  · exact .refl
  · refine .single (.delete fun i hi hm => ?_)
    obtain ⟨t, ht, he⟩ := List.mem_map.1 hm
    exact hd ⟨t, ht, i, hi, he.symm⟩

theorem fundFixedTerm_write {db db' : Db} {user account : ℕ} {details : FixedTermDetails} {funding : Option ℕ}
    (h : fundFixedTerm db user account details funding = .ok db') : Write singleEntry db db' := by
  unfold fundFixedTerm at h
  cases funding with
  | some source => exact createTransfer_write h
  | none =>
    refine (createDeposit_write h).mono ?_
    rintro _ rfl
    decide

theorem accountCreateView_writes {db db' : Db} {user : ℕ} {data : FormData}
    (h : accountCreateView db user data = .ok db') : Writes singleEntry db db' := by
  simp only [accountCreateView, bind_eq_ok] at h
  obtain ⟨c, -, row, -, ⟨details, db₁⟩, hd, h⟩ := h
  have h₁ : Writes singleEntry db db₁ := by
    rw [saveFixedTermDetails_ok hd]
    exact (Relation.ReflTransGen.single .newAccount).tail (.keep _ _ fun i => ⟨rfl, rfl, rfl⟩)
  cases details with
  | none => cases h; exact h₁
  | some details => exact h₁.tail (fundFixedTerm_write h)

theorem archiveAccount_write {S : TransactionType → Prop} {db db' : Db} {user account : ℕ}
    (h : archiveAccount db user account = .ok db') : Write S db db' := by
  unfold archiveAccount at h
  split_ifs at h
  cases h
  refine .keep _ db.fixedTerm fun i => ?_
  by_cases hi : i = account
  · rw [hi, Function.update_self]
    exact ⟨rfl, rfl, rfl⟩
  · rw [Function.update_of_ne hi]
    exact ⟨rfl, rfl, rfl⟩

/-! ## Account edits -/

/-- an accepted edit: the row of the user's own account is replaced, the owner and the type stay -/
structure Edited (db : Db) (user account : ℕ) (data : FormData) (row : FinancialAccount) : Prop where
  account_mem : account ∈ db.accountIds
  user : (db.account account).owner = user
  owner : row.owner = (db.account account).owner
  currency : data.currency = some row.currency
  accountType : row.accountType = (db.account account).accountType

theorem accountUpdateView_ok {db db' : Db} {user account : ℕ} {data : FormData}
    (h : accountUpdateView db user account data = .ok db') :
    ∃ row fixedTerm, Edited db user account data row ∧
      db' = { updateAccount db account row with fixedTerm := fixedTerm } := by
  unfold accountUpdateView at h
  split_ifs at h with hc
  simp only [bind_eq_ok] at h
  obtain ⟨c, hcd, row, hrow, ⟨details, db₁⟩, hd, h⟩ := h
  cases h
  obtain ⟨hro, hrc, hrt⟩ := saveAccount_ok hrow
  refine ⟨row, _, ⟨hc.1, hc.2, hro, ?_, FinancialAccountForm.cleanData_accountType hcd rfl hrt⟩,
    saveFixedTermDetails_ok hd⟩
  rw [← FinancialAccountForm.cleanData_currency hcd, hrc]

/-- an edit that keeps the currency is a write like any other -/
theorem Edited.write {S : TransactionType → Prop} {db : Db} {user account : ℕ} {data : FormData}
    {row : FinancialAccount} {fixedTerm : ℕ → Option FixedTermDetails} (h : Edited db user account data row)
    (hcur : row.currency = (db.account account).currency) :
    Write S db { updateAccount db account row with fixedTerm := fixedTerm } := by
  refine .keep (Function.update db.account account row) fixedTerm fun i => ?_
  by_cases hi : i = account
  · rw [hi, Function.update_self]
    exact ⟨h.owner, hcur, h.accountType⟩
  · rw [Function.update_of_ne hi]
    exact ⟨rfl, rfl, rfl⟩

/-! ## The step -/

def Op.isEdit : Op → Prop
  | .updateAccount .. => True
  | _ => False

instance (op : Op) : Decidable op.isEdit := by
  cases op <;> (unfold Op.isEdit; infer_instance)

/-- **What an accepted operation has written**, except for an account edit: a sequence of primitive writes, in which
only types of S are posted as a single entry. -/
theorem step_writes {S : TransactionType → Prop} {db db' : Db} {op : Op} (hS : ∀ t, singleEntry t → S t)
    (hop : ¬op.isEdit) (hposts : op.Posts S) (h : step db op = .ok db') : Writes S db db' := by
  cases op with
  | createDeposit owner account amount date description type notes =>
    refine .single ((createDeposit_write h).mono ?_)
    rintro _ rfl
    exact hposts
  | createWithdrawal owner account amount date description type notes =>
    refine .single ((createWithdrawal_write h).mono ?_)
    rintro _ rfl
    exact hposts
  | createTransfer owner source destination amount date description notes => exact .single (createTransfer_write h)
  | importTransactions owner account rows =>
    obtain ⟨⟨n, db₁⟩, hi, h⟩ := bind_eq_ok.1 h
    cases h
    exact (importTransactions_writes hi).mono hS
  | createInvestmentTransaction p => exact .single (createInvestmentTransaction_write h)
  | deleteTransaction owner pk =>
    obtain ⟨t, -, h⟩ := bind_eq_ok.1 h
    exact .single (deleteTransaction_write h)
  | deleteAccountTransactions owner account =>
    obtain ⟨⟨n, db₁⟩, hd, h⟩ := bind_eq_ok.1 h
    cases h
    exact deleteAccountTransactions_writes hd
  | createAccount user data => exact (accountCreateView_writes h).mono hS
  | updateAccount user account data => exact absurd trivial hop
  | archiveAccount user account => exact .single (archiveAccount_write h)

end Vault67
