/-
Investment details and their cash.

Every detail keeps its ledger transaction and the one cash entry it was posted with (`CashLink`), whatever services run
after it. The two deletion services select generic transactions, an account's through its entries; neither reaches a
transaction with a detail.

- `write_kept`: no write changes or removes a detail, its transaction or its entry.
- `write_links`: every write keeps the links, and a posting adds one.
- `investments_linked`: for every sequence of requests.
-/
import Mathlib.Tactic
import Vault67.Sessions
import Vault67.Ledger.Currency
import Vault67.Ledger.Shape

namespace Vault67.Investments

open Accounts Ledger Machine Session

/-- e is the cash entry of detail i -/
structure CashLink (db : Db) (i : InvestmentTransaction) (e : TransactionEntry) : Prop where
  transaction : i.transaction ∈ db.transactions
  owner : i.transaction.owner = (db.account i.account).owner
  only_entry : db.entriesOf i.transaction = [e]
  account : e.account = i.account
  brokerage : (db.account i.account).accountType = .brokerage
  amount_ne : e.amount ≠ 0
  /-- the net cash impact at the rate stored on the entry, rounded to 4 decimals -/
  cash : ∃ rate, e.exchangeRate = some rate ∧ quantize (i.netCashImpactNative * rate) = .ok e.amount

structure Links (db : Db) : Prop where
  linked : ∀ i ∈ db.investments, ∃ e, CashLink db i e

/-- no detail of the first database, nor its transaction or entries, is changed or removed in the second -/
structure Kept (db db' : Db) : Prop where
  details : db.investments <+: db'.investments
  transactions : ∀ i ∈ db.investments, i.transaction ∈ db.transactions → i.transaction ∈ db'.transactions
  entries : ∀ i ∈ db.investments, db'.entriesOf i.transaction = db.entriesOf i.transaction

theorem Kept.refl (db : Db) : Kept db db := ⟨List.prefix_refl _, fun _ _ h => h, fun _ _ => rfl⟩

theorem Kept.trans {db db' db'' : Db} (h : Kept db db') (h' : Kept db' db'') : Kept db db'' := by
  have hmem : ∀ i ∈ db.investments, i ∈ db'.investments := fun i hi => h.details.subset hi
  refine ⟨h.details.trans h'.details, fun i hi ht => ?_, fun i hi => ?_⟩
  · exact h'.transactions i (hmem i hi) (h.transactions i hi ht)
  · rw [h'.entries i (hmem i hi), h.entries i hi]

/-! ## Writes -/

variable {S : TransactionType → Prop} {db db' : Db}

theorem kept_post (h : Integrity db) {t : Transaction} {es : List TransactionEntry} {is : List InvestmentTransaction}
    (ht : t.pk = db.nextTransaction) (hes : ∀ e ∈ es, e.transaction = t) : Kept db (db.post t es is) :=
  ⟨List.prefix_append _ _, fun _ _ hmem => List.mem_append_left _ hmem,
    fun i hi => entriesOf_post_old h ht hes (h.detail_transaction i hi)⟩

/-- **No write reaches a detail.** Every detail stays, with its transaction and its cash entry. -/
theorem write_kept (h : Integrity db) (hw : Write S db db') : Kept db db' := by
  cases hw with
  | entry ht hS he hpk => exact kept_post h ht (by simpa using he.transaction)
  | transfer ht htype hs hd hspk hdpk hne hcur hpos hneg =>
    exact kept_post h ht (by simpa using ⟨hs.transaction, hd.transaction⟩)
  | investment hp => exact kept_post h hp.pk (by simpa using hp.entry_transaction)
  | delete hids =>
    refine ⟨List.prefix_refl _, fun i hi ht => ?_, fun i hi => entriesOf_deleteRows db (hids i hi)⟩
    exact List.mem_filter.2 ⟨ht, decide_eq_true (hids i hi)⟩
  | newAccount => exact ⟨List.prefix_refl _, fun _ _ ht => ht, fun _ _ => rfl⟩
  | keep account fixedTerm hk => exact ⟨List.prefix_refl _, fun _ _ ht => ht, fun _ _ => rfl⟩

/-- a link holds as long as the account keeps its owner and its type -/
theorem CashLink.kept {i : InvestmentTransaction} {e : TransactionEntry} (h : CashLink db i e)
    (hi : i ∈ db.investments) (hk : Kept db db') (howner : (db'.account i.account).owner = (db.account i.account).owner)
    (htype : (db'.account i.account).accountType = (db.account i.account).accountType) : CashLink db' i e where
  transaction := hk.transactions i hi h.transaction
  owner := by rw [howner, h.owner]
  only_entry := by rw [hk.entries i hi, h.only_entry]
  account := h.account
  brokerage := by rw [htype, h.brokerage]
  amount_ne := h.amount_ne
  cash := h.cash

/-- the detail of a posting and its entry -/
theorem Posted.cashLink {i : InvestmentTransaction} {e : TransactionEntry} (h : Integrity db) (hp : Posted db i e) :
    CashLink (db.post i.transaction [e] [i]) i e where
  transaction := List.mem_append_right _ (List.mem_singleton_self _)
  owner := hp.account_owner.symm
  only_entry := entriesOf_post_new h hp.pk (by simpa using hp.entry_transaction)
  account := hp.entry_account
  brokerage := hp.account_type
  amount_ne := e.amount_ne
  cash := by
    obtain ⟨rate, hrate, hcash⟩ := hp.cash
    exact ⟨rate, hp.entry_rate.trans hrate, hcash⟩

theorem write_links (h : Integrity db) (hl : Links db) (hw : Write S db db') : Links db' := by
  have hk := write_kept h hw
  refine ⟨fun i hi => ?_⟩
  have hold : i ∈ db.investments → (db'.account i.account).owner = (db.account i.account).owner →
      (db'.account i.account).accountType = (db.account i.account).accountType → ∃ e, CashLink db' i e := by
    intro hmem howner htype
    obtain ⟨e, he⟩ := hl.linked i hmem
    exact ⟨e, he.kept hmem hk howner htype⟩
  cases hw with
  | entry ht hS he hpk => exact hold (by simpa using hi) rfl rfl
  | transfer ht htype hs hd hspk hdpk hne hcur hpos hneg => exact hold (by simpa using hi) rfl rfl
  | investment hp =>
    rcases List.mem_append.1 hi with hmem | hnew
    · exact hold hmem rfl rfl
    · obtain rfl := List.mem_singleton.1 hnew
      exact ⟨_, hp.cashLink h⟩
  | delete hids => exact hold hi rfl rfl
  | newAccount =>
    -- a new account has a key that no detail refers to
    have hne : i.account ≠ db.nextAccount := (h.account_lt _ (h.detail_account i hi)).ne
    refine hold hi ?_ ?_
    · rw [insertAccount_account, Function.update_of_ne hne]
    · rw [insertAccount_account, Function.update_of_ne hne]
  | keep account fixedTerm hkeep => exact hold hi (hkeep i.account).1 (hkeep i.account).2.2

/-- an edit of an account keeps its owner and its type, whatever currency it sets -/
theorem edit_links (hl : Links db) {user account : ℕ} {data : FormData} {row : FinancialAccount}
    {fixedTerm : ℕ → Option FixedTermDetails} (he : Edited db user account data row) :
    Links { updateAccount db account row with fixedTerm := fixedTerm } := by
  have hk : Kept db { updateAccount db account row with fixedTerm := fixedTerm } :=
    ⟨List.prefix_refl _, fun _ _ ht => ht, fun _ _ => rfl⟩
  refine ⟨fun i hi => ?_⟩
  obtain ⟨e, hlink⟩ := hl.linked i hi
  refine ⟨e, hlink.kept hi hk ?_ ?_⟩
  · by_cases h : i.account = account
    · rw [updateAccount_account, h, Function.update_self, he.owner]
    · rw [updateAccount_account, Function.update_of_ne h]
  · by_cases h : i.account = account
    · rw [updateAccount_account, h, Function.update_self, he.accountType]
    · rw [updateAccount_account, Function.update_of_ne h]

/-! ## Runs -/

theorem step_links {op : Op} (h : Integrity db) (hl : Links db) (hs : step db op = .ok db') :
    Integrity db' ∧ Links db' ∧ Kept db db' := by
  refine ⟨step_integrity h hs, ?_⟩
  by_cases hedit : op.isEdit
  · cases op with
    | updateAccount user account data =>
      obtain ⟨row, fixedTerm, he, rfl⟩ := accountUpdateView_ok hs
      exact ⟨edit_links hl he, List.prefix_refl _, fun _ _ ht => ht, fun _ _ => rfl⟩
    | _ => exact absurd hedit id
  · have hwrites := step_writes (S := fun _ => True) (fun _ _ => trivial) hedit (.of_forall (fun _ => trivial) _) hs
    exact (hwrites.inv (I := fun db' => Integrity db' ∧ Links db' ∧ Kept db db')
      (fun _ _ hI hw => ⟨write_integrity hI.1 hw, write_links hI.1 hI.2.1 hw, hI.2.2.trans (write_kept hI.1 hw)⟩)
      ⟨h, hl, Kept.refl db⟩).2

theorem run_links (h : Integrity db) (hl : Links db) (ops : List Op) :
    Integrity (run step db ops) ∧ Links (run step db ops) ∧ Kept db (run step db ops) := by
  refine run_inv (fun _ => True) (I := fun db' => Integrity db' ∧ Links db' ∧ Kept db db') ?_ (fun _ _ => trivial)
    ⟨h, hl, Kept.refl db⟩
  intro db₁ op db₂ hI _ hs
  obtain ⟨hintegrity, hlinks, hkept⟩ := step_links hI.1 hI.2.1 hs
  exact ⟨hintegrity, hlinks, hI.2.2.trans hkept⟩

/-- **Details and cash stay linked.** After any sequence of requests, every detail is linked to its cash, no two details
share a transaction, later requests keep every detail with its transaction and entry, and a request that raises leaves
the database as it was. -/
theorem investments_linked (currencyCode : ℕ → String) (security : ℕ → Security) (ops : List Op) :
    let db := serve session (Db.init currencyCode security) ops
    (∀ i ∈ db.investments, ∃ e, CashLink db i e) ∧
      (db.investments.map fun i => i.transaction.pk).Nodup ∧
      (∀ later, Kept db (serve session db later)) ∧
      ∀ op e, ((session op).exec db).1 = .error e → ((session op).exec db).2 = db := by
  intro db
  have hdb : db = run step (Db.init currencyCode security) ops := serve_session _ _
  have hinit : Links (Db.init currencyCode security) := ⟨fun i hi => by simp [Db.init] at hi⟩
  obtain ⟨hintegrity, hlinks, -⟩ := run_links (init_integrity currencyCode security) hinit ops
  rw [← hdb] at hintegrity hlinks
  refine ⟨hlinks.linked, hintegrity.detail_nodup, fun later => ?_, fun op e => session_error⟩
  rw [serve_session]
  exact (run_links hintegrity hlinks later).2.2

/-- a purchase, a deposit on another account, and attempts to delete them -/
example :
    let db := serve session (Db.init (fun _ => "EUR") fun _ => ⟨"ETF", 1, true⟩)
      [.createAccount 1 (plainForm .brokerage 1), .createAccount 1 (plainForm .checking 1),
        .createInvestmentTransaction (tradeAtTen .buy 10 10), .createDeposit 1 1 20 30 "Salary" .deposit "",
        .deleteTransaction 1 0, .deleteAccountTransactions 1 0, .deleteAccountTransactions 1 1]
    db.investments.length = 1 ∧ db.entries.length = 1 := by
  decide +kernel

end Vault67.Investments
