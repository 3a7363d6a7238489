/-
`create_investment_transaction` in several requests at a time.

Each posting holds the row lock of its account (`select_for_update`) from before the holding check to its commit. Its
own rows are seen by others from the commit on; the numbers it draws from the counters are gone in any case. Between two
statements of a posting, statements of other postings and other requests may run.

- `createInvestmentTransaction_eq`: the statements, one after another, are the service.
- `postings_rule`: what a posting knows survives the statements of postings to other accounts and all other requests.
- `postings_serialize`: in every schedule, a posting that finishes leaves behind what the service leaves behind when it
  is called at that moment.
- `postings_integrity`: keys and references stay intact in every schedule.
- `postings_finish`: no posting waits for good.
-/
import Mathlib.Tactic
import Vault67.Ledger.Integrity
import Vault67.Investments.ShortSelling
import Vault67.Lib.CriticalSection

namespace Vault67.Investments

open Ledger Accounts Fallible CriticalSection OrderBy Rows

/-! ## Statements -/

/-- `Transaction.objects.create`, under the number pk -/
def postedTransaction (db : Db) (p : InvestmentPosting) (pk : ℕ) : Except Error Transaction := do
  let name := title p.transactionType
  let symbol := (db.security p.security).symbol
  let description ← storeText 255 s!"{name} {symbol}"
  let reference ← storeText 100 p.reference
  .ok ⟨pk, p.owner, p.tradeDate, description, p.transactionType, reference, p.notes⟩

/-- the cash amount and `TransactionEntry.objects.create`, under the number pk -/
def cashEntry (db : Db) (p : InvestmentPosting) (detail : InvestmentTransaction) (pk : ℕ) :
    Except Error TransactionEntry := do
  let rate ← notNone (if p.currency = (db.account p.account).currency then some 1 else p.exchangeRate)
  let cashAmount ← quantize (detail.netCashImpactNative * rate)
  if cashAmount = 0 then .error (.message (.text "Net cash impact must not be zero."))
  else do
    let stored ← storeMoney cashAmount
    if h : p.account ∈ db.accountIds ∧ stored ≠ 0 then
      .ok ⟨pk, detail.transaction, p.account, stored, (db.account p.account).currency, some rate, some cashAmount,
        TransactionType.value p.transactionType, h.2⟩
    else .error .database

/-- the guards in front of the atomic block, and the row that is locked -/
structure Ready (db : Db) (p : InvestmentPosting) : Prop where
  owner : (db.account p.account).owner = p.owner
  accountType : (db.account p.account).accountType = .brokerage
  supported : supported p.transactionType
  account_mem : p.account ∈ db.accountIds

instance (db : Db) (p : InvestmentPosting) : Decidable (Ready db p) :=
  decidable_of_iff ((db.account p.account).owner = p.owner ∧ (db.account p.account).accountType = .brokerage ∧
      Investments.supported p.transactionType ∧ p.account ∈ db.accountIds)
    ⟨fun ⟨h1, h2, h3, h4⟩ => ⟨h1, h2, h3, h4⟩, fun ⟨h1, h2, h3, h4⟩ => ⟨h1, h2, h3, h4⟩⟩

/-- how far a posting has come in its atomic block -/
inductive Progress where
  | locked
  | checked
  | numbered (t : Transaction)
  | detailed (i : InvestmentTransaction)
  | entered (i : InvestmentTransaction) (e : TransactionEntry)
deriving DecidableEq, Repr

/-- other values of the counters -/
@[simps] def numbered (db : Db) (nextTransaction nextEntry : ℕ) : Db :=
  { db with nextTransaction := nextTransaction, nextEntry := nextEntry }

/-- the rows of a posting become visible -/
@[simps] def commit (db : Db) (i : InvestmentTransaction) (e : TransactionEntry) : Db :=
  { db with
    transactions := db.transactions ++ [i.transaction]
    entries := db.entries ++ [e]
    investments := db.investments ++ [i] }

/-- an exception rolls the atomic block back -/
def proceed {α : Type} (db : Db) (statement : Except Error α) (next : α → Db × Progress) : Outcome Db Progress :=
  match statement with
  | .ok a => .next (next a).1 (next a).2
  | .error _ => .leave db

/-- the next statement -/
def work (p : InvestmentPosting) (db : Db) : Progress → Outcome Db Progress
  | .locked => proceed db (checkHolding db p) fun _ => (db, .checked)
  | .checked => proceed db (postedTransaction db p db.nextTransaction) fun t =>
    (numbered db (db.nextTransaction + 1) db.nextEntry, .numbered t)
  | .numbered t => proceed db (fullClean db (p.draft t)) fun i => (db, .detailed i)
  | .detailed i => proceed db (cashEntry db p i db.nextEntry) fun e =>
    (numbered db db.nextTransaction (db.nextEntry + 1), .entered i e)
  | .entered i e => .leave (commit db i e)

/-- what happens besides postings -/
inductive Other where
  | draw (transactions entries : ℕ)
  | request (op : Op)

/-- a posting is no other request, and no account is edited while the postings run: they read its currency, from the
caller's instance -/
def Other.apply (db : Db) : Other → Db
  | .draw transactions entries => numbered db (db.nextTransaction + transactions) (db.nextEntry + entries)
  | .request (.createInvestmentTransaction _) => db
  | .request (.updateAccount _ _ _) => db
  | .request op => Machine.attempt Vault67.step db op

/-- the requests, each with the lock of its account -/
def sessions (postings : ℕ → InvestmentPosting) : Sessions Db ℕ ℕ Progress Other where
  key n := (postings n).account
  enter n db := if Ready db (postings n) then some .locked else none
  work n := work (postings n)
  outside o db := o.apply db

/-! ## The statements are the service -/

/-- **Alone, the statements are the service.** For a ready posting that nothing runs beside, the check, the transaction,
the detail and the entry, one after another, are `create_investment_transaction`. -/
theorem createInvestmentTransaction_eq {db : Db} {p : InvestmentPosting} (h : Ready db p) :
    createInvestmentTransaction db p = (do
      checkHolding db p
      let t ← postedTransaction db p db.nextTransaction
      let i ← fullClean db (p.draft t)
      let e ← cashEntry db p i db.nextEntry
      .ok (db.post t [e] [i])) := by
  rw [createInvestmentTransaction, if_neg (not_not.2 h.owner), if_neg (not_not.2 h.accountType),
    if_neg (not_not.2 h.supported)]
  apply bind_congr
  intro _
  simp only [createTransaction, postedTransaction, bind_assoc]
  apply bind_congr
  intro description
  apply bind_congr
  intro reference
  change fullClean db _ >>= _ = fullClean db _ >>= _
  cases hi : fullClean db (p.draft _) with
  | error e => rfl
  | ok i =>
    have ht := congrArg InvestmentDraft.transaction (fullClean_ok hi).1
    change notNone _ >>= _ = cashEntry db p i db.nextEntry >>= _
    simp only [cashEntry, createEntry, bind_assoc]
    apply bind_congr
    intro rate
    apply bind_congr
    intro cash
    by_cases hzero : cash = 0
    · rw [if_pos hzero, if_pos hzero]
      rfl
    · rw [if_neg hzero, if_neg hzero, bind_assoc]
      apply bind_congr
      intro stored
      by_cases hc : p.account ∈ db.accountIds ∧ stored ≠ 0
      · refine (dif_pos hc).trans ?_
        rw [dif_pos hc, ht]
        exact congrArg Except.ok (Db.addEntry_addInvestment db _ _ i)
      · refine (dif_neg hc).trans ?_
        rw [dif_neg hc]
        rfl

/-- only a posting that is ready can be accepted -/
theorem ready_of_ok {db db' : Db} {p : InvestmentPosting} (h : createInvestmentTransaction db p = .ok db') :
    Ready db p := by
  obtain ⟨i, e, hp, hdraft, htype, -, -⟩ := createInvestmentTransaction_ok h
  have hacc : i.account = p.account := congrArg InvestmentDraft.account hdraft
  simp only [createInvestmentTransaction, ite_error_eq_ok, not_not] at h
  exact ⟨h.1, hacc ▸ hp.account_type, htype ▸ hp.supported, hacc ▸ hp.account_mem⟩

/-! ## What other statements leave -/

/-- what a posting to the account reads -/
structure Keeps (account : ℕ) (db db' : Db) : Prop where
  account_mem : account ∈ db.accountIds
  account_mem' : account ∈ db'.accountIds
  security : db'.security = db.security
  owner : (db'.account account).owner = (db.account account).owner
  accountType : (db'.account account).accountType = (db.account account).accountType
  currency : (db'.account account).currency = (db.account account).currency
  investments : (db'.investments.filter fun i => i.account = account) =
    db.investments.filter fun i => i.account = account

theorem Keeps.numbered {db : Db} {account : ℕ} (h : account ∈ db.accountIds) (k l : ℕ) :
    Keeps account db (Investments.numbered db k l) := ⟨h, h, rfl, rfl, rfl, rfl, rfl⟩

section Keeps

variable {db db' : Db} {p : InvestmentPosting}

theorem Keeps.ready (h : Keeps p.account db db') (hready : Ready db p) : Ready db' p :=
  ⟨h.owner.trans hready.owner, h.accountType.trans hready.accountType, hready.supported, h.account_mem'⟩

theorem Keeps.transactions {account : ℕ} (h : Keeps account db db') (security : Option ℕ) (asOfDate : Option Date) :
    transactions db' account security asOfDate = transactions db account security asOfDate := by
  rw [Investments.transactions, Investments.transactions, filter_agree_of_imp h.investments]
  exact fun i hi => hi.1

theorem Keeps.calculateFromItems {account : ℕ} (h : Keeps account db db') (security : ℕ)
    {items : List InvestmentTransaction} (hitems : ∀ i ∈ items, i.account = account) :
    calculateFromItems db' security items = calculateFromItems db security items := by
  have hitem : ∀ i ∈ items, ∀ s,
      replayItem db' (db.security security).symbol s i = replayItem db (db.security security).symbol s i := by
    intro i hi s
    have hrate : rateToAccount db' i = rateToAccount db i := by
      rw [rateToAccount, rateToAccount, hitems i hi, h.currency]
    rw [replayItem, replayItem, hrate]
  rw [Investments.calculateFromItems, Investments.calculateFromItems, replay, replay, h.security, foldlM_congr hitem]
  apply bind_congr
  intro s
  rw [snapshot, snapshot, h.security]

theorem Keeps.calculateHolding {account : ℕ} (h : Keeps account db db') (security : ℕ) (asOfDate : Option Date) :
    calculateHolding db' account security asOfDate = calculateHolding db account security asOfDate := by
  rw [Investments.calculateHolding, Investments.calculateHolding, h.transactions]
  refine h.calculateFromItems security fun i hi => ?_
  rw [Investments.transactions, mem_orderBy, List.mem_filter] at hi
  exact (of_decide_eq_true hi.2).1

theorem Keeps.checkHolding (h : Keeps p.account db db') : checkHolding db' p = checkHolding db p := by
  simp only [Investments.checkHolding, calculateHoldingQuantity, h.calculateHolding]

theorem Keeps.postedTransaction (h : Keeps p.account db db') (pk : ℕ) :
    postedTransaction db' p pk = postedTransaction db p pk := by
  rw [Investments.postedTransaction, Investments.postedTransaction, h.security]

theorem Keeps.fullClean (h : Keeps p.account db db') (t : Transaction) :
    fullClean db' (p.draft t) = fullClean db (p.draft t) := by
  have hclean : clean db' (p.draft t) = clean db (p.draft t) := by
    simp only [clean, InvestmentPosting.draft, h.owner, h.accountType, h.currency, h.security]
    rfl
  rw [Investments.fullClean, Investments.fullClean, hclean]

theorem Keeps.cashEntry (h : Keeps p.account db db') (i : InvestmentTransaction) (pk : ℕ) :
    cashEntry db' p i pk = cashEntry db p i pk := by
  simp only [Investments.cashEntry, h.currency, h.account_mem, h.account_mem']

end Keeps

/-! ## What a posting knows -/

/-- the statements so far would come out the same now -/
def Valid (db : Db) (p : InvestmentPosting) : Progress → Prop
  | .locked => True
  | .checked => checkHolding db p = .ok ()
  | .numbered t => checkHolding db p = .ok () ∧ postedTransaction db p t.pk = .ok t
  | .detailed i =>
    checkHolding db p = .ok () ∧ postedTransaction db p i.transaction.pk = .ok i.transaction ∧
      fullClean db (p.draft i.transaction) = .ok i
  | .entered i e =>
    checkHolding db p = .ok () ∧ postedTransaction db p i.transaction.pk = .ok i.transaction ∧
      fullClean db (p.draft i.transaction) = .ok i ∧ cashEntry db p i e.pk = .ok e

/-- the number drawn for the transaction -/
def Progress.transaction : Progress → Option ℕ
  | .locked => none
  | .checked => none
  | .numbered t => some t.pk
  | .detailed i => some i.transaction.pk
  | .entered i _ => some i.transaction.pk

/-- the number drawn for the entry -/
def Progress.entry : Progress → Option ℕ
  | .entered _ e => some e.pk
  | _ => none

/-- the numbers drawn are gone, no row has them, and the details of the account have smaller ones -/
structure Unused (db : Db) (account : ℕ) (x : Progress) : Prop where
  transaction_lt : ∀ k ∈ x.transaction, k < db.nextTransaction
  transaction_ne : ∀ k ∈ x.transaction, ∀ t ∈ db.transactions, t.pk ≠ k
  detail_lt : ∀ k ∈ x.transaction, ∀ i ∈ db.investments, i.account = account → i.transaction.pk < k
  entry_lt : ∀ l ∈ x.entry, l < db.nextEntry
  entry_ne : ∀ l ∈ x.entry, ∀ e ∈ db.entries, e.pk ≠ l

structure Knows (db : Db) (p : InvestmentPosting) (x : Progress) : Prop where
  ready : Ready db p
  valid : Valid db p x
  unused : Unused db p.account x

/-- two postings have not drawn the same numbers -/
structure Apart (x y : Progress) : Prop where
  transaction : ∀ k ∈ x.transaction, k ∉ y.transaction
  entry : ∀ l ∈ x.entry, l ∉ y.entry

theorem Apart.symm {x y : Progress} (h : Apart x y) : Apart y x :=
  ⟨fun k hy hx => h.transaction k hx hy, fun l hy hx => h.entry l hx hy⟩

/-- the tables are intact, and every posted trade can be replayed -/
structure Stored (db : Db) : Prop where
  integrity : Integrity db
  replayable : ∀ i ∈ db.investments, isTrade i → Replayable db i

theorem Keeps.valid {db db' : Db} {p : InvestmentPosting} {x : Progress} (h : Keeps p.account db db')
    (hx : Valid db p x) : Valid db' p x := by
  cases x with
  | locked => trivial
  | checked => exact h.checkHolding.trans hx
  | numbered t => exact ⟨h.checkHolding.trans hx.1, (h.postedTransaction _).trans hx.2⟩
  | detailed i =>
    exact ⟨h.checkHolding.trans hx.1, (h.postedTransaction _).trans hx.2.1, (h.fullClean _).trans hx.2.2⟩
  | entered i e =>
    exact ⟨h.checkHolding.trans hx.1, (h.postedTransaction _).trans hx.2.1, (h.fullClean _).trans hx.2.2.1,
      (h.cashEntry _ _).trans hx.2.2.2⟩

/-- **The service would accept the posting now**, with the numbers it has drawn, and would write the rows it has
entered. -/
theorem Knows.accepted {db : Db} {p : InvestmentPosting} {i : InvestmentTransaction} {e : TransactionEntry}
    (h : Knows db p (.entered i e)) :
    createInvestmentTransaction (numbered db i.transaction.pk e.pk) p =
      .ok ((numbered db i.transaction.pk e.pk).post i.transaction [e] [i]) := by
  obtain ⟨hhold, ht, hi, he⟩ := h.valid
  have hkeeps := Keeps.numbered h.ready.account_mem i.transaction.pk e.pk
  rw [createInvestmentTransaction_eq (hkeeps.ready h.ready), hkeeps.checkHolding, hhold, hkeeps.postedTransaction]
  change (postedTransaction db p i.transaction.pk >>= _) = _
  rw [ht]
  change (Investments.fullClean (numbered db i.transaction.pk e.pk) (p.draft i.transaction) >>= _) = _
  rw [hkeeps.fullClean, hi]
  change (Investments.cashEntry (numbered db i.transaction.pk e.pk) p i e.pk >>= _) = _
  rw [hkeeps.cashEntry, he]
  rfl

/-- so the rows it is about to write are sound -/
theorem Knows.posted {db : Db} {p : InvestmentPosting} {i : InvestmentTransaction} {e : TransactionEntry}
    (h : Knows db p (.entered i e)) :
    Posted (numbered db i.transaction.pk e.pk) i e ∧ i.toInvestmentDraft = p.draft i.transaction := by
  obtain ⟨i', e', hp, hdraft, -, -, hpost⟩ := createInvestmentTransaction_ok h.accepted
  have hi : i' = i := by
    have hinv := congrArg Db.investments hpost
    rw [Db.post_investments, Db.post_investments, List.append_cancel_left_eq, List.singleton_inj] at hinv
    exact hinv.symm
  have he : e' = e := by
    have hent := congrArg Db.entries hpost
    rw [Db.post_entries, Db.post_entries, List.append_cancel_left_eq, List.singleton_inj] at hent
    exact hent.symm
  rw [hi, he] at hp
  rw [hi] at hdraft
  exact ⟨hp, hdraft⟩

/-! ## One statement -/

/-- what the next statement does -/
inductive Move (db : Db) (x : Progress) : Outcome Db Progress → Prop
  | stay {y : Progress} (ht : y.transaction = x.transaction) (he : y.entry = x.entry) : Move db x (.next db y)
  | transaction {t : Transaction} (hx : x = .checked) (ht : t.pk = db.nextTransaction) :
    Move db x (.next (numbered db (db.nextTransaction + 1) db.nextEntry) (.numbered t))
  | entry {i : InvestmentTransaction} {e : TransactionEntry} (hx : x = .detailed i) (he : e.pk = db.nextEntry) :
    Move db x (.next (numbered db db.nextTransaction (db.nextEntry + 1)) (.entered i e))
  | commit {i : InvestmentTransaction} {e : TransactionEntry} (hx : x = .entered i e) :
    Move db x (.leave (commit db i e))
  | rollback : Move db x (.leave db)

theorem postedTransaction_ok {db : Db} {p : InvestmentPosting} {pk : ℕ} {t : Transaction}
    (h : postedTransaction db p pk = .ok t) : t.pk = pk := by
  simp only [postedTransaction, bind_eq_ok, Except.ok.injEq] at h
  obtain ⟨_, -, _, -, rfl⟩ := h
  rfl

theorem cashEntry_ok {db : Db} {p : InvestmentPosting} {i : InvestmentTransaction} {pk : ℕ} {e : TransactionEntry}
    (h : cashEntry db p i pk = .ok e) : e.pk = pk := by
  simp only [cashEntry, bind_eq_ok, ite_error_eq_ok] at h
  obtain ⟨rate, -, cash, -, -, stored, -, h⟩ := h
  split_ifs at h
  cases h
  rfl

theorem proceed_move {α : Type} {db : Db} {x : Progress} {statement : Except Error α} {next : α → Db × Progress}
    (h : ∀ a, statement = .ok a → Move db x (.next (next a).1 (next a).2)) :
    Move db x (proceed db statement next) := by
  cases statement with
  | ok a => exact h a rfl
  | error e => exact .rollback

theorem work_move (p : InvestmentPosting) (db : Db) (x : Progress) : Move db x (work p db x) := by
  cases x with
  | locked => exact proceed_move fun _ _ => .stay rfl rfl
  | checked => exact proceed_move fun t ht => .transaction rfl (postedTransaction_ok ht)
  | numbered t =>
    refine proceed_move fun i hi => .stay ?_ rfl
    exact congrArg (fun d => some d.transaction.pk) (fullClean_ok hi).1
  | detailed i => exact proceed_move fun e he => .entry rfl (cashEntry_ok he)
  | entered i e => exact .commit rfl

theorem proceed_next {α : Type} {db s : Db} {statement : Except Error α} {next : α → Db × Progress} {y : Progress}
    (h : proceed db statement next = .next s y) : ∃ a, statement = .ok a ∧ next a = (s, y) := by
  cases statement with
  | error e => cases h
  | ok a =>
    cases h
    exact ⟨a, rfl, rfl⟩

theorem proceed_leave {α : Type} {db s : Db} {statement : Except Error α} {next : α → Db × Progress}
    (h : proceed db statement next = .leave s) : (∃ err, statement = .error err) ∧ db = s := by
  cases statement with
  | ok a => cases h
  | error err =>
    cases h
    exact ⟨⟨err, rfl⟩, rfl⟩

/-- what a posting that goes on has found -/
theorem work_valid {p : InvestmentPosting} {db s : Db} {x y : Progress} (hx : Valid db p x)
    (h : work p db x = .next s y) : Valid db p y := by
  cases x with
  | locked =>
    obtain ⟨_, hs, hy⟩ := proceed_next h
    cases hy
    exact hs
  | checked =>
    obtain ⟨t, hs, hy⟩ := proceed_next h
    cases hy
    exact ⟨hx, (postedTransaction_ok hs) ▸ hs⟩
  | numbered t =>
    obtain ⟨i, hs, hy⟩ := proceed_next h
    cases hy
    have ht : i.transaction = t := congrArg InvestmentDraft.transaction (fullClean_ok hs).1
    rw [← ht] at hs hx
    exact ⟨hx.1, hx.2, hs⟩
  | detailed i =>
    obtain ⟨e, hs, hy⟩ := proceed_next h
    cases hy
    exact ⟨hx.1, hx.2.1, hx.2.2, (cashEntry_ok hs) ▸ hs⟩
  | entered i e => cases h

/-! ## The tables -/

theorem numbered_stored {db : Db} (h : Stored db) {k l : ℕ} (hk : db.nextTransaction ≤ k) (hl : db.nextEntry ≤ l) :
    Stored (numbered db k l) :=
  ⟨{ h.integrity with
      transaction_lt := fun t ht => (h.integrity.transaction_lt t ht).trans_le hk
      entry_lt := fun e he => (h.integrity.entry_lt e he).trans_le hl },
    fun i hi htrade => ⟨htrade, (h.replayable i hi htrade).quantity, (h.replayable i hi htrade).rate⟩⟩

theorem commit_stored {db : Db} {p : InvestmentPosting} {i : InvestmentTransaction} {e : TransactionEntry}
    (h : Stored db) (hknown : Knows db p (.entered i e)) : Stored (commit db i e) := by
  obtain ⟨hp, -⟩ := hknown.posted
  have hfresh := hknown.unused
  have hdetail : ∀ j ∈ db.investments, j.transaction.pk ≠ i.transaction.pk := fun j hj =>
    hfresh.transaction_ne _ rfl _ (h.integrity.detail_transaction j hj)
  refine ⟨?_, fun j hj htrade => ?_⟩
  · constructor <;> simp only [commit_accountIds, commit_nextAccount, commit_transactions, commit_nextTransaction,
      commit_entries, commit_nextEntry, commit_account, commit_investments, List.mem_append, List.mem_singleton]
    case account_lt => exact h.integrity.account_lt
    case account_nodup => exact h.integrity.account_nodup
    case transaction_lt =>
      intro t ht
      rcases ht with ht | rfl
      · exact h.integrity.transaction_lt t ht
      · exact hfresh.transaction_lt _ rfl
    case transaction_nodup => exact nodup_map_concat_of_ne h.integrity.transaction_nodup (hfresh.transaction_ne _ rfl)
    case entry_lt =>
      intro e' he'
      rcases he' with he' | rfl
      · exact h.integrity.entry_lt e' he'
      · exact hfresh.entry_lt _ rfl
    case entry_nodup => exact nodup_map_concat_of_ne h.integrity.entry_nodup (hfresh.entry_ne _ rfl)
    case entry_transaction =>
      intro e' he'
      rcases he' with he' | rfl
      · exact .inl (h.integrity.entry_transaction e' he')
      · exact .inr hp.entry_transaction
    case entry_account =>
      intro e' he'
      rcases he' with he' | rfl
      · exact h.integrity.entry_account e' he'
      · exact hp.entry_account ▸ hp.account_mem
    case owner =>
      intro e' he'
      rcases he' with he' | rfl
      · exact h.integrity.owner e' he'
      · rw [hp.entry_account, hp.entry_transaction]
        exact hp.account_owner
    case detail_transaction =>
      intro j hj
      rcases hj with hj | rfl
      · exact .inl (h.integrity.detail_transaction j hj)
      · exact .inr rfl
    case detail_account =>
      intro j hj
      rcases hj with hj | rfl
      · exact h.integrity.detail_account j hj
      · exact hp.account_mem
    case detail_nodup => exact nodup_map_concat_of_ne h.integrity.detail_nodup hdetail
    case detail_entry =>
      intro j hj
      rcases hj with hj | rfl
      · obtain ⟨e', he', hrefs⟩ := h.integrity.detail_entry j hj
        exact ⟨e', .inl he', hrefs⟩
      · exact ⟨e, .inr rfl, hp.entry_transaction, hp.entry_account⟩
  · rcases List.mem_append.1 hj with hj | hj
    · exact ⟨htrade, (h.replayable j hj htrade).quantity, (h.replayable j hj htrade).rate⟩
    · rw [List.mem_singleton.1 hj] at htrade ⊢
      exact ⟨htrade, (hp.replayable htrade).quantity, (hp.replayable htrade).rate⟩

/-! ## Other requests -/

/-- rows are added under new numbers, and accounts keep what postings read of them -/
structure Extends (db db' : Db) : Prop where
  security : db'.security = db.security
  account_mem : ∀ a ∈ db.accountIds, a ∈ db'.accountIds
  owner : ∀ a ∈ db.accountIds, (db'.account a).owner = (db.account a).owner
  accountType : ∀ a ∈ db.accountIds, (db'.account a).accountType = (db.account a).accountType
  currency : ∀ a ∈ db.accountIds, (db'.account a).currency = (db.account a).currency
  nextTransaction : db.nextTransaction ≤ db'.nextTransaction
  nextEntry : db.nextEntry ≤ db'.nextEntry
  transactions : ∀ t ∈ db'.transactions, t ∈ db.transactions ∨ db.nextTransaction ≤ t.pk
  entries : ∀ e ∈ db'.entries, e ∈ db.entries ∨ db.nextEntry ≤ e.pk

theorem Extends.refl (db : Db) : Extends db db :=
  ⟨rfl, fun _ h => h, fun _ _ => rfl, fun _ _ => rfl, fun _ _ => rfl, le_rfl, le_rfl, fun _ => .inl, fun _ => .inl⟩

theorem Extends.trans {db₁ db₂ db₃ : Db} (h : Extends db₁ db₂) (h' : Extends db₂ db₃) : Extends db₁ db₃ where
  security := h'.security.trans h.security
  account_mem a ha := h'.account_mem a (h.account_mem a ha)
  owner a ha := (h'.owner a (h.account_mem a ha)).trans (h.owner a ha)
  accountType a ha := (h'.accountType a (h.account_mem a ha)).trans (h.accountType a ha)
  currency a ha := (h'.currency a (h.account_mem a ha)).trans (h.currency a ha)
  nextTransaction := h.nextTransaction.trans h'.nextTransaction
  nextEntry := h.nextEntry.trans h'.nextEntry
  transactions t ht := by
    rcases h'.transactions t ht with ht | hk
    · exact h.transactions t ht
    · exact .inr (h.nextTransaction.trans hk)
  entries e he := by
    rcases h'.entries e he with he | hk
    · exact h.entries e he
    · exact .inr (h.nextEntry.trans hk)

theorem post_extends {db : Db} {t : Transaction} {es : List TransactionEntry} {is : List InvestmentTransaction}
    (ht : t.pk = db.nextTransaction) (hes : ∀ e ∈ es, db.nextEntry ≤ e.pk) : Extends db (db.post t es is) where
  security := rfl
  account_mem _ ha := ha
  owner _ _ := rfl
  accountType _ _ := rfl
  currency _ _ := rfl
  nextTransaction := Nat.le_succ _
  nextEntry := Nat.le_add_right _ _
  transactions u hu := by
    rcases List.mem_append.1 hu with hu | hu
    · exact .inl hu
    · exact .inr (List.mem_singleton.1 hu ▸ ht.ge)
  entries e he := by
    rcases List.mem_append.1 he with he | he
    · exact .inl he
    · exact .inr (hes e he)

theorem write_extends {S : TransactionType → Prop} {db db' : Db} (h : Integrity db) (hw : Write S db db') :
    Extends db db' := by
  cases hw with
  | entry ht hS he hpk => exact post_extends ht (by simp [hpk])
  | transfer ht htype hs hd hspk hdpk hne hcur hpos hneg => exact post_extends ht (by simp [hspk, hdpk])
  | @investment i e hp => exact post_extends hp.pk (by simp [hp.entry_pk])
  | delete hids =>
    exact { Extends.refl db with
      transactions := fun t ht => .inl (List.mem_filter.1 ht).1
      entries := fun e he => .inl (List.mem_filter.1 he).1 }
  | @newAccount row =>
    have hold : ∀ a ∈ db.accountIds, (insertAccount db row).account a = db.account a := fun a ha =>
      Function.update_of_ne (h.account_lt a ha).ne _ _
    exact { Extends.refl db with
      account_mem := fun a ha => List.mem_append_left _ ha
      owner := fun a ha => congrArg FinancialAccount.owner (hold a ha)
      accountType := fun a ha => congrArg FinancialAccount.accountType (hold a ha)
      currency := fun a ha => congrArg FinancialAccount.currency (hold a ha) }
  | keep account fixedTerm hk =>
    exact { Extends.refl db with
      owner := fun a _ => (hk a).1
      accountType := fun a _ => (hk a).2.2
      currency := fun a _ => (hk a).2.1 }

theorem writes_extends {S : TransactionType → Prop} {db db' : Db} (h : Integrity db) (hw : Writes S db db') :
    Extends db db' := by
  have hinv : Integrity db' ∧ Extends db db' :=
    hw.inv (I := fun db' => Integrity db' ∧ Extends db db')
      (fun _ _ h hw => ⟨write_integrity h.1 hw, h.2.trans (write_extends h.1 hw)⟩) ⟨h, .refl db⟩
  exact hinv.2

theorem create_investments {db db' : Db} {owner account : ℕ} {amount : ℚ} {type : TransactionType} {date : Date}
    {description notes reference : String}
    (h : create db owner account amount type date description notes reference = .ok db') :
    db'.investments = db.investments := by
  simp only [create, ite_error_eq_ok, bind_eq_ok] at h
  obtain ⟨-, -, ⟨t, db₁⟩, ht, he⟩ := h
  obtain ⟨-, -, -, -, rfl⟩ := createTransaction_ok ht
  obtain ⟨e, -, -, -, -, -, -, -, rfl⟩ := createEntry_ok he
  rfl

theorem createWithdrawal_investments {db db' : Db} {owner account : ℕ} {amount : ℚ} {type : TransactionType}
    {date : Date} {description notes : String}
    (h : createWithdrawal db owner account amount date description type notes = .ok db') :
    db'.investments = db.investments := by
  unfold createWithdrawal at h
  split_ifs at h
  exact create_investments h

theorem createTransfer_investments {db db' : Db} {owner source destination : ℕ} {amount : ℚ} {date : Date}
    {description notes : String}
    (h : createTransfer db owner source destination amount date description notes = .ok db') :
    db'.investments = db.investments := by
  simp only [createTransfer, ite_error_eq_ok, bind_eq_ok] at h
  obtain ⟨-, -, -, -, ⟨t, db₁⟩, ht, db₂, hs, hd⟩ := h
  obtain ⟨-, -, -, -, rfl⟩ := createTransaction_ok ht
  obtain ⟨e, -, -, -, -, -, -, -, rfl⟩ := createEntry_ok hs
  obtain ⟨e', -, -, -, -, -, -, -, rfl⟩ := createEntry_ok hd
  rfl

theorem accountCreateView_investments {db db' : Db} {user : ℕ} {data : FormData}
    (h : accountCreateView db user data = .ok db') : db'.investments = db.investments := by
  simp only [accountCreateView, bind_eq_ok] at h
  obtain ⟨c, -, row, -, ⟨details, db₁⟩, hd, h⟩ := h
  have h₁ : db₁.investments = db.investments := by
    rw [saveFixedTermDetails_ok hd]
    rfl
  cases details with
  | none => cases h; exact h₁
  | some details =>
    rw [← h₁]
    simp only [fundFixedTerm] at h
    cases hfunding : c.fundingAccount with
    | some source =>
      rw [hfunding] at h
      exact createTransfer_investments h
    | none =>
      rw [hfunding] at h
      exact create_investments h

/-- only postings write details -/
theorem step_investments {db db' : Db} {op : Op} (hop : ∀ p, op ≠ .createInvestmentTransaction p)
    (h : Vault67.step db op = .ok db') : db'.investments = db.investments := by
  cases op with
  | createDeposit owner account amount date description type notes => exact create_investments h
  | createWithdrawal owner account amount date description type notes => exact createWithdrawal_investments h
  | createTransfer owner source destination amount date description notes => exact createTransfer_investments h
  | importTransactions owner account rows =>
    obtain ⟨⟨n, db₁⟩, hi, h⟩ := bind_eq_ok.1 h
    cases h
    simp only [importTransactions, ite_error_eq_ok, bind_eq_ok, Except.ok.injEq, Prod.mk.injEq] at hi
    obtain ⟨-, -, _, hrows, -, rfl⟩ := hi
    refine foldlM_inv (I := fun db' => db'.investments = db.investments) ?_ rfl hrows
    exact fun db₁ db₂ row _ hdb hrow => (create_investments hrow).trans hdb
  | createInvestmentTransaction p => exact absurd rfl (hop p)
  | deleteTransaction owner pk =>
    obtain ⟨t, -, h⟩ := bind_eq_ok.1 h
    simp only [deleteTransaction, ite_error_eq_ok, Except.ok.injEq] at h
    obtain ⟨-, -, rfl⟩ := h
    rfl
  | deleteAccountTransactions owner account =>
    obtain ⟨⟨n, db₁⟩, hd, h⟩ := bind_eq_ok.1 h
    cases h
    simp only [deleteAccountTransactions, ite_error_eq_ok] at hd
    obtain ⟨-, -, hd⟩ := hd
    split_ifs at hd <;> cases hd <;> rfl
  | createAccount user data => exact accountCreateView_investments h
  | updateAccount user account data =>
    obtain ⟨row, fixedTerm, -, rfl⟩ := accountUpdateView_ok h
    rfl
  | archiveAccount user account =>
    simp only [Vault67.step, archiveAccount] at h
    split_ifs at h
    cases h
    rfl

/-- the requests that run beside postings -/
def beside (op : Op) : Prop := (∀ p, op ≠ .createInvestmentTransaction p) ∧ ¬op.isEdit

/-- **Other requests.** They add rows under new numbers, write no details and leave the tables intact. -/
theorem request_extends {db : Db} (h : Integrity db) {op : Op} (hop : beside op) :
    Extends db (Machine.attempt Vault67.step db op) ∧
      (Machine.attempt Vault67.step db op).investments = db.investments ∧
        Integrity (Machine.attempt Vault67.step db op) := by
  refine Machine.attempt_inv (I := fun db' => Extends db db' ∧ db'.investments = db.investments ∧ Integrity db')
    ⟨.refl db, rfl, h⟩ fun db' hdb' => ?_
  have hwrites : Writes (fun _ => True) db db' :=
    step_writes (fun _ _ => trivial) hop.2 (.of_forall (fun _ => trivial) _) hdb'
  exact ⟨writes_extends h hwrites, step_investments hop.1 hdb', step_integrity h hdb'⟩

theorem Stored.extends {db db' : Db} (h : Stored db) (hext : Extends db db')
    (hinv : db'.investments = db.investments) (hintegrity : Integrity db') : Stored db' := by
  refine ⟨hintegrity, fun i hi htrade => ?_⟩
  rw [hinv] at hi
  obtain ⟨-, hquantity, rate, hrate⟩ := h.replayable i hi htrade
  refine ⟨htrade, hquantity, rate, ?_⟩
  rw [rateToAccount, hext.currency _ (h.integrity.detail_account i hi)]
  exact hrate

theorem numbered_extends (db : Db) {k l : ℕ} (hk : db.nextTransaction ≤ k) (hl : db.nextEntry ≤ l) :
    Extends db (numbered db k l) :=
  { Extends.refl db with nextTransaction := hk, nextEntry := hl }

theorem other_extends {db : Db} (h : Stored db) (o : Other) :
    Extends db (o.apply db) ∧ (o.apply db).investments = db.investments ∧ Stored (o.apply db) := by
  cases o with
  | draw k l =>
    exact ⟨numbered_extends db (Nat.le_add_right _ _) (Nat.le_add_right _ _), rfl,
      numbered_stored h (Nat.le_add_right _ _) (Nat.le_add_right _ _)⟩
  | request op =>
    by_cases hop : beside op
    · have happly : (Other.request op).apply db = Machine.attempt Vault67.step db op := by
        cases op with
        | createInvestmentTransaction p => exact absurd rfl (hop.1 p)
        | updateAccount user account data => exact absurd trivial hop.2
        | _ => rfl
      obtain ⟨hext, hinv, hintegrity⟩ := request_extends h.integrity hop
      rw [happly]
      exact ⟨hext, hinv, h.extends hext hinv hintegrity⟩
    · have happly : (Other.request op).apply db = db := by
        cases op with
        | createInvestmentTransaction p => rfl
        | updateAccount user account data => rfl
        | _ => exact absurd ⟨by simp, id⟩ hop
      rw [happly]
      exact ⟨.refl db, rfl, h⟩

/-! ## The rule -/

/-- what a posting knows survives new rows of others -/
theorem Knows.extends {db db' : Db} {p : InvestmentPosting} {x : Progress} (h : Knows db p x) (hext : Extends db db')
    (hinv : db'.investments = db.investments) : Knows db' p x := by
  have hacc := h.ready.account_mem
  have hkeeps : Keeps p.account db db' :=
    ⟨hacc, hext.account_mem _ hacc, hext.security, hext.owner _ hacc, hext.accountType _ hacc, hext.currency _ hacc,
      by rw [hinv]⟩
  refine ⟨hkeeps.ready h.ready, hkeeps.valid h.valid, ?_⟩
  constructor
  case transaction_lt => exact fun k hk => (h.unused.transaction_lt k hk).trans_le hext.nextTransaction
  case transaction_ne =>
    intro k hk t ht
    rcases hext.transactions t ht with ht | hle
    · exact h.unused.transaction_ne k hk t ht
    · exact ((h.unused.transaction_lt k hk).trans_le hle).ne'
  case detail_lt =>
    rw [hinv]
    exact h.unused.detail_lt
  case entry_lt => exact fun l hl => (h.unused.entry_lt l hl).trans_le hext.nextEntry
  case entry_ne =>
    intro l hl e he
    rcases hext.entries e he with he | hle
    · exact h.unused.entry_ne l hl e he
    · exact ((h.unused.entry_lt l hl).trans_le hle).ne'

/-- and the commit of a posting to another account -/
theorem Knows.commit {db : Db} {p q : InvestmentPosting} {x : Progress} {i : InvestmentTransaction}
    {e : TransactionEntry} (h : Knows db p x) (hq : Knows db q (.entered i e)) (hapart : Apart x (.entered i e))
    (hne : p.account ≠ q.account) : Knows (commit db i e) p x := by
  have hacc : i.account ≠ p.account := by
    rw [show i.account = q.account from congrArg InvestmentDraft.account hq.posted.2]
    exact hne.symm
  have hinv : ((db.investments ++ [i]).filter fun j => j.account = p.account) =
      db.investments.filter fun j => j.account = p.account := by
    rw [List.filter_append, List.filter_cons_of_neg (by simpa using hacc), List.filter_nil, List.append_nil]
  have hkeeps : Keeps p.account db (Investments.commit db i e) :=
    ⟨h.ready.account_mem, h.ready.account_mem, rfl, rfl, rfl, rfl, hinv⟩
  refine ⟨hkeeps.ready h.ready, hkeeps.valid h.valid, ?_⟩
  constructor
  case transaction_lt => exact h.unused.transaction_lt
  case transaction_ne =>
    intro k hk t ht
    rcases List.mem_append.1 ht with ht | ht
    · exact h.unused.transaction_ne k hk t ht
    · rw [List.mem_singleton.1 ht]
      rintro rfl
      exact hapart.transaction _ hk rfl
  case detail_lt =>
    intro k hk j hj hja
    rcases List.mem_append.1 hj with hj | hj
    · exact h.unused.detail_lt k hk j hj hja
    · rw [List.mem_singleton.1 hj] at hja
      exact absurd hja hacc
  case entry_lt => exact h.unused.entry_lt
  case entry_ne =>
    intro l hl e' he'
    rcases List.mem_append.1 he' with he' | he'
    · exact h.unused.entry_ne l hl e' he'
    · rw [List.mem_singleton.1 he']
      rintro rfl
      exact hapart.entry _ hl rfl

/-- a number is drawn once -/
theorem Unused.ne {db : Db} {account : ℕ} {x : Progress} (h : Unused db account x) :
    (∀ k ∈ x.transaction, k ≠ db.nextTransaction) ∧ ∀ l ∈ x.entry, l ≠ db.nextEntry :=
  ⟨fun k hk => (h.transaction_lt k hk).ne, fun l hl => (h.entry_lt l hl).ne⟩

/-- the posting's own next statement -/
theorem Knows.work {db s : Db} {p : InvestmentPosting} {x y : Progress} (hdb : Stored db) (h : Knows db p x)
    (hwork : work p db x = .next s y) : Knows s p y := by
  have hvalid : Valid db p y := work_valid h.valid hwork
  have hkeeps := Keeps.numbered h.ready.account_mem
  have hmove := work_move p db x
  rw [hwork] at hmove
  have hdetail : ∀ j ∈ db.investments, j.transaction.pk < db.nextTransaction := fun j hj =>
    hdb.integrity.transaction_lt _ (hdb.integrity.detail_transaction j hj)
  cases hmove with
  | stay ht he =>
    refine ⟨h.ready, hvalid, ?_⟩
    obtain ⟨h1, h2, h3, h4, h5⟩ := h.unused
    exact ⟨ht ▸ h1, ht ▸ h2, ht ▸ h3, he ▸ h4, he ▸ h5⟩
  | @transaction t hx ht =>
    have hunused : Unused (numbered db (db.nextTransaction + 1) db.nextEntry) p.account (.numbered t) := by
      constructor
      case transaction_lt =>
        rintro k ⟨⟩
        exact ht ▸ Nat.lt_succ_self _
      case transaction_ne =>
        rintro k ⟨⟩ u hu
        exact ht ▸ (hdb.integrity.transaction_lt u hu).ne
      case detail_lt =>
        rintro k ⟨⟩ j hj -
        exact ht ▸ hdetail j hj
      case entry_lt => rintro l ⟨⟩
      case entry_ne => rintro l ⟨⟩
    exact ⟨(hkeeps _ _).ready h.ready, (hkeeps _ _).valid hvalid, hunused⟩
  | @entry i e hx he =>
    subst hx
    have hunused : Unused (numbered db db.nextTransaction (db.nextEntry + 1)) p.account (.entered i e) := by
      constructor
      case transaction_lt => exact h.unused.transaction_lt
      case transaction_ne => exact h.unused.transaction_ne
      case detail_lt => exact h.unused.detail_lt
      case entry_lt =>
        rintro l ⟨⟩
        exact he ▸ Nat.lt_succ_self _
      case entry_ne =>
        rintro l ⟨⟩ e' he'
        exact he ▸ (hdb.integrity.entry_lt e' he').ne
    exact ⟨(hkeeps _ _).ready h.ready, (hkeeps _ _).valid hvalid, hunused⟩

/-- **Postings keep out of each other's way.** What a posting knows of the database survives the commits of the others while
it holds the lock of its account. -/
theorem postings_rule (postings : ℕ → InvestmentPosting) :
    Rule (sessions postings) Stored (fun db n => Knows db (postings n)) Apart := by
  constructor
  case symm => exact Apart.symm
  case enter =>
    intro db n x hdb he
    simp only [sessions] at he
    split_ifs at he with hready
    cases he
    exact ⟨⟨hready, trivial, by constructor <;> rintro _ ⟨⟩⟩, fun y => ⟨by rintro _ ⟨⟩, by rintro _ ⟨⟩⟩⟩
  case own => exact fun hdb h hwork => h.work hdb hwork
  case store =>
    intro db n x hdb h
    have hmove := work_move (postings n) db x
    change Stored (work (postings n) db x).shared
    generalize hwork : work (postings n) db x = o at hmove
    cases hmove with
    | stay => exact hdb
    | transaction => exact numbered_stored hdb (Nat.le_succ _) le_rfl
    | entry => exact numbered_stored hdb le_rfl (Nat.le_succ _)
    | commit hx => exact commit_stored hdb (hx ▸ h)
    | rollback => exact hdb
  case others =>
    intro db n m x y hdb hn hm hapart hkey
    have hmove := work_move (postings m) db y
    change Knows (work (postings m) db y).shared (postings n) x
    generalize hwork : work (postings m) db y = o at hmove
    cases hmove with
    | stay => exact hn
    | transaction => exact hn.extends (numbered_extends db (Nat.le_succ _) le_rfl) rfl
    | entry => exact hn.extends (numbered_extends db le_rfl (Nat.le_succ _)) rfl
    | commit hy =>
      rw [hy] at hm hapart
      exact hn.commit hm hapart hkey
    | rollback => exact hn
  case apart =>
    intro db n m x y s' y' hdb hn hm hapart hkey hwork
    have hmove := work_move (postings m) db y
    rw [show work (postings m) db y = .next s' y' from hwork] at hmove
    cases hmove with
    | stay ht he => exact ⟨ht ▸ hapart.transaction, he ▸ hapart.entry⟩
    | transaction hy ht =>
      refine ⟨fun k hk hk' => ?_, by rintro _ - ⟨⟩⟩
      cases hk'
      exact hn.unused.ne.1 _ hk ht
    | entry hy he =>
      rw [hy] at hapart
      refine ⟨hapart.transaction, fun l hl hl' => ?_⟩
      cases hl'
      exact hn.unused.ne.2 _ hl he
  case outside_store => exact fun hdb => (other_extends hdb _).2.2
  case outside =>
    intro db n x o hdb hn
    obtain ⟨hext, hinv, -⟩ := other_extends hdb o
    exact hn.extends hext hinv

variable (postings : ℕ → InvestmentPosting)

theorem postings_safe {db : Db} (h : Stored db) (schedule : List (Event ℕ Other)) :
    Safe (sessions postings) Stored (fun db n => Knows db (postings n)) Apart
      (run (sessions postings) (start db) schedule) :=
  run_safe (postings_rule postings) (start_safe h) schedule

/-! ## Every posting happens at once -/

/-- the service, called under the numbers k and l, which no row has -/
def PostedAtOnce (db : Db) (p : InvestmentPosting) (db' : Db) : Prop :=
  ∃ k l, (∀ t ∈ db.transactions, t.pk ≠ k) ∧ (∀ e ∈ db.entries, e.pk ≠ l) ∧
    db' = numbered (Machine.attempt createInvestmentTransaction (numbered db k l) p) db.nextTransaction db.nextEntry

theorem PostedAtOnce.refused {db : Db} {p : InvestmentPosting} {k l : ℕ} {e : Error}
    (hk : ∀ t ∈ db.transactions, t.pk ≠ k) (hl : ∀ e ∈ db.entries, e.pk ≠ l)
    (h : createInvestmentTransaction (numbered db k l) p = .error e) : PostedAtOnce db p db := by
  refine ⟨k, l, hk, hl, ?_⟩
  rw [Machine.attempt, h]
  rfl

/-- the posting that leaves has been accepted or refused by the service -/
theorem Knows.leave {db s : Db} {p : InvestmentPosting} {x : Progress} (hdb : Stored db) (h : Knows db p x)
    (hwork : Investments.work p db x = .leave s) : PostedAtOnce db p s := by
  have hkeeps := Keeps.numbered h.ready.account_mem
  have hcheck : ∀ k l, checkHolding (numbered db k l) p = checkHolding db p := fun k l => (hkeeps k l).checkHolding
  have hservice : ∀ k l, createInvestmentTransaction (numbered db k l) p = _ := fun k l =>
    createInvestmentTransaction_eq ((hkeeps k l).ready h.ready)
  have hk : ∀ t ∈ db.transactions, t.pk ≠ db.nextTransaction := fun t ht => (hdb.integrity.transaction_lt t ht).ne
  have hl : ∀ e ∈ db.entries, e.pk ≠ db.nextEntry := fun e he => (hdb.integrity.entry_lt e he).ne
  cases x with
  | locked =>
    obtain ⟨⟨err, hs⟩, rfl⟩ := proceed_leave hwork
    refine .refused hk hl (e := err) ?_
    rw [hservice, hcheck, hs]
    rfl
  | checked =>
    obtain ⟨⟨err, hs⟩, rfl⟩ := proceed_leave hwork
    refine .refused hk hl (e := err) ?_
    rw [hservice, hcheck, h.valid]
    change (postedTransaction _ p db.nextTransaction >>= _) = _
    rw [(hkeeps _ _).postedTransaction, hs]
    rfl
  | numbered t =>
    obtain ⟨⟨err, hs⟩, rfl⟩ := proceed_leave hwork
    refine .refused (h.unused.transaction_ne _ rfl) hl (e := err) ?_
    rw [hservice, hcheck, h.valid.1]
    change (postedTransaction _ p t.pk >>= _) = _
    rw [(hkeeps _ _).postedTransaction, h.valid.2]
    change (fullClean _ (p.draft t) >>= _) = _
    rw [(hkeeps _ _).fullClean, hs]
    rfl
  | detailed i =>
    obtain ⟨⟨err, hs⟩, rfl⟩ := proceed_leave hwork
    refine .refused (h.unused.transaction_ne _ rfl) hl (e := err) ?_
    rw [hservice, hcheck, h.valid.1]
    change (postedTransaction _ p i.transaction.pk >>= _) = _
    rw [(hkeeps _ _).postedTransaction, h.valid.2.1]
    change (fullClean _ (p.draft i.transaction) >>= _) = _
    rw [(hkeeps _ _).fullClean, h.valid.2.2]
    change (cashEntry _ p i db.nextEntry >>= _) = _
    rw [(hkeeps _ _).cashEntry, hs]
    rfl
  | entered i e =>
    cases hwork
    refine ⟨i.transaction.pk, e.pk, h.unused.transaction_ne _ rfl, h.unused.entry_ne _ rfl, ?_⟩
    rw [Machine.attempt_ok h.accepted]
    rfl

theorem turn_leaves {db : Db} (hdb : Stored db) (schedule : List (Event ℕ Other)) {n : ℕ}
    (hn : (run (sessions postings) (start db) schedule).stage n ≠ .finished)
    (hturn : (turn (sessions postings) (run (sessions postings) (start db) schedule) n).stage n = .finished) :
    PostedAtOnce (run (sessions postings) (start db) schedule).shared (postings n)
      (turn (sessions postings) (run (sessions postings) (start db) schedule) n).shared := by
  have hsafe := postings_safe postings hdb schedule
  generalize run (sessions postings) (start db) schedule = w at hn hturn hsafe ⊢
  cases hs : w.stage n with
  | finished => exact absurd hs hn
  | inside x =>
    cases hwork : (sessions postings).work n w.shared x with
    | next s y =>
      rw [turn_next hs hwork, put_stage_self] at hturn
      cases hturn
    | leave s =>
      rw [turn_leave hs hwork]
      exact (hsafe.known n x hs).leave hsafe.store hwork
  | waiting =>
    cases he : (sessions postings).enter n w.shared with
    | none =>
      -- refused by the guards in front of the lock
      rw [turn_refused hs he]
      have hready : ¬Ready (numbered w.shared w.shared.nextTransaction w.shared.nextEntry) (postings n) := by
        intro hready
        have hsome : (sessions postings).enter n w.shared = some .locked := if_pos hready
        rw [he] at hsome
        cases hsome
      obtain ⟨err, herr⟩ : ∃ err, createInvestmentTransaction
          (numbered w.shared w.shared.nextTransaction w.shared.nextEntry) (postings n) = .error err := by
        cases hok : createInvestmentTransaction (numbered w.shared w.shared.nextTransaction w.shared.nextEntry)
          (postings n) with
        | error err => exact ⟨err, rfl⟩
        | ok db' => exact absurd (ready_of_ok hok) hready
      exact .refused (fun t ht => (hsafe.store.integrity.transaction_lt t ht).ne)
        (fun e he => (hsafe.store.integrity.entry_lt e he).ne) herr
    | some x =>
      by_cases hfree : w.lock ((sessions postings).key n) = none
      · rw [turn_enter hs he hfree] at hturn
        have hself : (w.acquire ((sessions postings).key n) n x).stage n = .inside x := Function.update_self _ _ _
        rw [hself] at hturn
        cases hturn
      · rw [turn_blocked hs he hfree, hs] at hturn
        cases hturn

theorem turn_stays (w : World Db ℕ ℕ Progress) {n : ℕ}
    (hturn : (turn (sessions postings) w n).stage n ≠ .finished) :
    ∃ k l, w.shared.nextTransaction ≤ k ∧ w.shared.nextEntry ≤ l ∧
      (turn (sessions postings) w n).shared = numbered w.shared k l := by
  have hsame : ∃ k l, w.shared.nextTransaction ≤ k ∧ w.shared.nextEntry ≤ l ∧ w.shared = numbered w.shared k l :=
    ⟨_, _, le_rfl, le_rfl, rfl⟩
  cases hs : w.stage n with
  | finished =>
    rw [turn_finished hs] at hturn
    exact absurd hs hturn
  | waiting =>
    cases he : (sessions postings).enter n w.shared with
    | none =>
      rw [turn_refused hs he, put_stage_self] at hturn
      exact absurd rfl hturn
    | some x =>
      by_cases hfree : w.lock ((sessions postings).key n) = none
      · rw [turn_enter hs he hfree]
        exact hsame
      · rw [turn_blocked hs he hfree]
        exact hsame
  | inside x =>
    have hmove := work_move (postings n) w.shared x
    cases hwork : work (postings n) w.shared x with
    | leave s =>
      have hself : (w.release ((sessions postings).key n) n s).stage n = .finished := Function.update_self _ _ _
      rw [turn_leave hs hwork, hself] at hturn
      exact absurd rfl hturn
    | next s y =>
      rw [turn_next hs hwork]
      rw [hwork] at hmove
      cases hmove with
      | stay => exact hsame
      | transaction => exact ⟨_, _, Nat.le_succ _, le_rfl, rfl⟩
      | entry => exact ⟨_, _, le_rfl, Nat.le_succ _, rfl⟩

/-- one purchase, and two sales of the same shares -/
def rivalSales (n : ℕ) : InvestmentPosting := if n = 0 then tradeAtTen .buy 10 1 else tradeAtTen .sell 10 31

/-- the purchase, then both sales start, and the second waits until the first has committed -/
def rivalTurns : List (Event ℕ Other) :=
  List.replicate 6 (.turn 0) ++ [.turn 1, .turn 2] ++ List.replicate 5 (.turn 1) ++ [.turn 2]

theorem brokerageDb_stored : Stored brokerageDb := by
  refine ⟨?_, fun i hi => absurd hi List.not_mem_nil⟩
  constructor <;> simp [brokerageDb, Db.init]

/-- **Postings are serialized.** In every schedule, a statement that does not finish its posting changes no table; the
one that does leaves behind what the service leaves behind when it is called at that moment, accepted or refused. -/
theorem postings_serialize {db : Db} (hdb : Stored db) (schedule : List (Event ℕ Other)) (n : ℕ) :
    let w := run (sessions postings) (start db) schedule
    let w' := turn (sessions postings) w n
    (w'.stage n ≠ .finished → ∃ k l, w.shared.nextTransaction ≤ k ∧ w.shared.nextEntry ≤ l ∧
      w'.shared = numbered w.shared k l) ∧
    (w.stage n ≠ .finished → w'.stage n = .finished → PostedAtOnce w.shared (postings n) w'.shared) :=
  ⟨turn_stays postings _, turn_leaves postings hdb schedule⟩

/-- the second sale is refused, as the service refuses it after the first -/
theorem postings_serialize_rivalSales :
    PostedAtOnce (run (sessions rivalSales) (start brokerageDb) rivalTurns).shared (rivalSales 2)
      (turn (sessions rivalSales) (run (sessions rivalSales) (start brokerageDb) rivalTurns) 2).shared :=
  (postings_serialize rivalSales brokerageDb_stored rivalTurns 2).2 (by decide +kernel) (by decide +kernel)

example : (turn (sessions rivalSales) (run (sessions rivalSales) (start brokerageDb) rivalTurns) 2).shared.investments.map
    (·.transactionType) = [.buy, .sell] := by
  decide +kernel

/-! ## Keys and locks -/

/-- **Every schedule keeps the tables intact**, and at most one posting of an account is in its atomic block. -/
theorem postings_integrity {db : Db} (hdb : Stored db) (schedule : List (Event ℕ Other)) :
    Integrity (run (sessions postings) (start db) schedule).shared ∧
      ∀ n m x y, (run (sessions postings) (start db) schedule).stage n = .inside x →
        (run (sessions postings) (start db) schedule).stage m = .inside y →
          (postings n).account = (postings m).account → n = m :=
  have hsafe := postings_safe postings hdb schedule
  ⟨hsafe.store.integrity, fun _ _ _ _ hn hm hkey => hsafe.exclusive hn hm hkey⟩

theorem postings_integrity_rivalSales :
    Integrity (run (sessions rivalSales) (start brokerageDb) rivalTurns).shared :=
  (postings_integrity rivalSales brokerageDb_stored rivalTurns).1

/-- statements still to come -/
def Progress.rank : Progress → ℕ
  | .locked => 4
  | .checked => 3
  | .numbered _ => 2
  | .detailed _ => 1
  | .entered _ _ => 0

theorem work_rank {p : InvestmentPosting} {db s : Db} {x y : Progress} (h : work p db x = .next s y) :
    y.rank < x.rank := by
  cases x with
  | locked =>
    obtain ⟨_, -, hy⟩ := proceed_next h
    cases hy
    exact Nat.lt_succ_self _
  | checked =>
    obtain ⟨_, -, hy⟩ := proceed_next h
    cases hy
    exact Nat.lt_succ_self _
  | numbered t =>
    obtain ⟨_, -, hy⟩ := proceed_next h
    cases hy
    exact Nat.lt_succ_self _
  | detailed i =>
    obtain ⟨_, -, hy⟩ := proceed_next h
    cases hy
    exact Nat.lt_succ_self _
  | entered i e => cases h

/-- **No posting waits for good.** Whatever has happened, turns of the posting that holds its lock, and then its own,
finish it. -/
theorem postings_finish {db : Db} (hdb : Stored db) (schedule : List (Event ℕ Other)) (n : ℕ) :
    ∃ turns : List ℕ, (∀ m ∈ turns, (postings m).account = (postings n).account) ∧
      (run (sessions postings) (start db) (schedule ++ turns.map .turn)).stage n = .finished := by
  obtain ⟨turns, hkeys, hfinished⟩ :=
    exists_finishes (P := sessions postings) work_rank (postings_safe postings hdb schedule) n
  refine ⟨turns, hkeys, ?_⟩
  rw [run, List.foldl_append]
  exact hfinished

/-- both sales have started -/
theorem postings_finish_rivalSales :
    ∃ turns : List ℕ, (∀ m ∈ turns, (rivalSales m).account = (rivalSales 2).account) ∧
      (run (sessions rivalSales) (start brokerageDb) (rivalTurns.take 8 ++ turns.map .turn)).stage 2 = .finished :=
  postings_finish rivalSales brokerageDb_stored (rivalTurns.take 8) 2

end Vault67.Investments
