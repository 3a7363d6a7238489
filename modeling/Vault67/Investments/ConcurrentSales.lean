/-
No short selling when postings run at the same time.

The row lock is there so that two sales cannot both be checked against the same holding. It is enough for that: in a
schedule of postings and other requests, the only way to a short history is the one of a single request after another,
a sale that a posted sale of a later date needs.

- `commit_noShortSelling_iff`: one commit, for the holdings and sales of the moment.
- `concurrent_noShortSelling_iff`: every schedule.
-/
import Mathlib.Tactic
import Vault67.Investments.Concurrent

namespace Vault67.Investments

open Ledger Fallible AverageCost CriticalSection OrderBy

variable {db : Db} {p : InvestmentPosting} {i : InvestmentTransaction} {e : TransactionEntry}

theorem Stored.sound (h : Stored db) : Sound db :=
  ⟨h.replayable, fun i hi => h.integrity.transaction_lt _ (h.integrity.detail_transaction i hi),
    h.integrity.detail_nodup⟩

theorem securityTrades_of_investments {db db' : Db} (h : db'.investments = db.investments) (account security : ℕ) :
    securityTrades db' account security none = securityTrades db account security none := by
  rw [securityTrades_none, securityTrades_none, tradeRows, h, tradeRows]

/-- only the details matter -/
theorem noShortSelling_congr {db db' : Db} (h : Sound db) (h' : Sound db') (hinv : db'.investments = db.investments) :
    NoShortSelling db' ↔ NoShortSelling db := by
  simp only [noShortSelling_iff h, noShortSelling_iff h', securityTrades_of_investments hinv]

/-! ## One commit -/

/-- the database as far as the account's postings read it -/
def accountView (db : Db) (account : ℕ) : Db :=
  { db with investments := db.investments.filter fun i => i.account = account }

theorem accountView_keeps {account : ℕ} (h : account ∈ db.accountIds) : Keeps account db (accountView db account) := by
  refine ⟨h, h, rfl, rfl, rfl, rfl, ?_⟩
  rw [accountView, List.filter_filter]
  simp only [Bool.and_self]

theorem accountView_knows {x : Progress} (h : Knows db p x) : Knows (accountView db p.account) p x := by
  have hkeeps := accountView_keeps h.ready.account_mem
  exact ⟨hkeeps.ready h.ready, hkeeps.valid h.valid, h.unused.transaction_lt, h.unused.transaction_ne,
    fun k hk j hj => h.unused.detail_lt k hk j (List.mem_filter.1 hj).1, h.unused.entry_lt, h.unused.entry_ne⟩

/-- the account's postings see a database in which the drawn number is the next one -/
theorem accountView_sound (h : Stored db) {k l : ℕ}
    (hk : ∀ j ∈ db.investments, j.account = p.account → j.transaction.pk < k) :
    Sound (numbered (accountView db p.account) k l) := by
  refine ⟨fun j hj htrade => ?_, fun j hj => ?_, ?_⟩
  · have hrow := h.replayable j (List.mem_filter.1 hj).1 htrade
    exact ⟨htrade, hrow.quantity, hrow.rate⟩
  · obtain ⟨hmem, hacc⟩ := List.mem_filter.1 hj
    exact hk j hmem (of_decide_eq_true hacc)
  · exact h.integrity.detail_nodup.sublist (List.filter_sublist.map _)

theorem securityTrades_accountView (db : Db) (account security k l : ℕ) :
    securityTrades (numbered (accountView db account) k l) account security none =
      securityTrades db account security none := by
  rw [securityTrades_none, securityTrades_none, tradeRows, numbered_investments, accountView, List.filter_filter,
    tradeRows]
  refine congrArg _ (List.filter_congr fun j _ => ?_)
  rw [← Bool.decide_and]
  exact decide_eq_decide.2 (by tauto)

theorem coversLaterSells_accountView (db : Db) (p : InvestmentPosting) (k l : ℕ) :
    CoversLaterSells (numbered (accountView db p.account) k l) p ↔ CoversLaterSells db p := by
  have hheld : ∀ j : InvestmentTransaction, j.account = p.account →
      heldAfter (numbered (accountView db p.account) k l) j = heldAfter db j := by
    intro j hj
    rw [heldAfter, numbered_investments, accountView, List.filter_filter, heldAfter]
    refine congrArg List.sum (congrArg _ (List.filter_congr fun i _ => ?_))
    rw [← Bool.decide_and, hj]
    exact decide_eq_decide.2 (by tauto)
  refine ⟨?_, ?_⟩
  · intro h hsell q hq j hj hja hjs hjsell hdate
    rw [← hheld j hja]
    exact h hsell q hq j (List.mem_filter.2 ⟨hj, decide_eq_true hja⟩) hja hjs hjsell hdate
  · intro h hsell q hq j hj hja hjs hjsell hdate
    rw [hheld j hja]
    exact h hsell q hq j (List.mem_filter.1 hj).1 hja hjs hjsell hdate

/-- the histories of the posting's account after the commit, and those of other accounts -/
theorem securityTrades_commit (hacc : i.account = p.account) (k l account security : ℕ) :
    securityTrades (commit db i e) account security none =
      if account = p.account then
        securityTrades ((numbered (accountView db p.account) k l).post i.transaction [e] [i]) account security none
      else securityTrades db account security none := by
  have hcommit : securityTrades (commit db i e) account security none =
      orderBy replayKey (tradeRows (db.post i.transaction [e] [i]) account security) :=
    securityTrades_none (commit db i e) account security
  rw [hcommit, tradeRows_post]
  split_ifs with hrow haccount haccount
  · rw [securityTrades_none, tradeRows_post, if_pos hrow]
    congr 2
    rw [tradeRows, tradeRows, numbered_investments, accountView, List.filter_filter, haccount]
    refine List.filter_congr fun j _ => ?_
    rw [← Bool.decide_and]
    exact decide_eq_decide.2 (by tauto)
  · exact absurd (hrow.1.symm.trans hacc) haccount
  · rw [securityTrades_none, tradeRows_post, if_neg hrow]
    congr 1
    rw [tradeRows, tradeRows, numbered_investments, accountView, List.filter_filter, haccount]
    refine List.filter_congr fun j _ => ?_
    rw [← Bool.decide_and]
    exact decide_eq_decide.2 (by tauto)
  · rw [securityTrades_none]

/-- **One commit.** It leads to no short state exactly when the posted sale is covered by the sales of a later date too. -/
theorem commit_noShortSelling_iff (h : Stored db) (hknown : Knows db p (.entered i e)) (hn : NoShortSelling db) :
    NoShortSelling (commit db i e) ↔ CoversLaterSells db p := by
  have hacc : i.account = p.account := congrArg InvestmentDraft.account hknown.posted.2
  have hview := accountView_knows hknown
  have hsound : Sound (numbered (accountView db p.account) i.transaction.pk e.pk) :=
    accountView_sound h (hknown.unused.detail_lt _ rfl)
  have hold := (noShortSelling_iff h.sound).1 hn
  have hcovered : NoShortSelling (numbered (accountView db p.account) i.transaction.pk e.pk) := by
    rw [noShortSelling_iff hsound]
    intro account security
    by_cases haccount : account = p.account
    · rw [haccount, securityTrades_accountView]
      exact hold p.account security
    · have hnone : tradeRows (numbered (accountView db p.account) i.transaction.pk e.pk) account security = [] := by
        refine List.filter_eq_nil_iff.2 fun j hj => ?_
        have hja : j.account = p.account := of_decide_eq_true (List.mem_filter.1 hj).2
        simp [hja, Ne.symm haccount]
      rw [securityTrades_none, hnone]
      trivial
  rw [← coversLaterSells_accountView db p i.transaction.pk e.pk,
    ← step_noShortSelling_iff hsound hcovered hview.accepted,
    noShortSelling_iff (commit_stored h hknown).sound, noShortSelling_iff (hsound.post hview.posted.1)]
  refine ⟨?_, ?_⟩
  · intro hall account security
    by_cases haccount : account = p.account
    · have hown := hall account security
      rwa [securityTrades_commit hacc i.transaction.pk e.pk, if_pos haccount] at hown
    · rw [securityTrades_post_other fun hc => haccount (hc.1.symm.trans hacc)]
      exact (noShortSelling_iff hsound).1 hcovered account security
  · intro hall account security
    rw [securityTrades_commit hacc i.transaction.pk e.pk]
    split_ifs with haccount
    · exact hall account security
    · exact hold account security

/-! ## Schedules -/

variable (postings : ℕ → InvestmentPosting)

/-- one event of a schedule, which is never refused -/
def move (w : World Db ℕ ℕ Progress) (event : Event ℕ Other) : Except Empty (World Db ℕ ℕ Progress) :=
  .ok (CriticalSection.step (sessions postings) w event)

/-- the event is no commit of a sale that a posted sale of a later date needs -/
def CommitCovered (w : World Db ℕ ℕ Progress) (event : Event ℕ Other) : Prop :=
  ∀ n i e, event = .turn n → w.stage n = .inside (.entered i e) → CoversLaterSells w.shared (postings n)

variable {w : World Db ℕ ℕ Progress}

/-- a statement other than the commit writes no detail -/
theorem turn_investments {n : ℕ} (hcommit : ∀ i e, w.stage n ≠ .inside (.entered i e)) :
    (turn (sessions postings) w n).shared.investments = w.shared.investments := by
  cases hs : w.stage n with
  | finished => rw [turn_finished hs]
  | waiting =>
    cases he : (sessions postings).enter n w.shared with
    | none =>
      rw [turn_refused hs he]
      rfl
    | some x =>
      by_cases hfree : w.lock ((sessions postings).key n) = none
      · rw [turn_enter hs he hfree]
        rfl
      · rw [turn_blocked hs he hfree]
  | inside x =>
    have hmove := work_move (postings n) w.shared x
    cases hwork : work (postings n) w.shared x with
    | next s y =>
      rw [turn_next hs hwork]
      rw [hwork] at hmove
      cases hmove <;> rfl
    | leave s =>
      rw [turn_leave hs hwork]
      rw [hwork] at hmove
      cases hmove with
      | rollback => rfl
      | @commit i e hx => exact absurd (hx ▸ hs) (hcommit i e)

/-- nor does any event other than a commit -/
theorem step_investments_eq (hsafe : Safe (sessions postings) Stored (fun db n => Knows db (postings n)) Apart w)
    {event : Event ℕ Other} (hcommit : ∀ n i e, event = .turn n → w.stage n ≠ .inside (.entered i e)) :
    (CriticalSection.step (sessions postings) w event).shared.investments = w.shared.investments := by
  cases event with
  | turn n => exact turn_investments postings fun i e => hcommit n i e rfl
  | abort n =>
    cases hs : w.stage n with
    | inside x =>
      simp only [CriticalSection.step, hs]
      rfl
    | waiting => simp only [CriticalSection.step, hs]
    | finished => simp only [CriticalSection.step, hs]
  | outside o => exact (other_extends hsafe.store o).2.1

theorem move_noShortSelling_iff
    (hsafe : Safe (sessions postings) Stored (fun db n => Knows db (postings n)) Apart w)
    (hn : NoShortSelling w.shared) (event : Event ℕ Other) :
    NoShortSelling (CriticalSection.step (sessions postings) w event).shared ↔ CommitCovered postings w event := by
  have hnext := step_safe (postings_rule postings) hsafe event
  by_cases hcommit : ∃ n i e, event = .turn n ∧ w.stage n = .inside (.entered i e)
  · obtain ⟨n, i, e, rfl, hs⟩ := hcommit
    have hshared : (CriticalSection.step (sessions postings) w (.turn n)).shared = commit w.shared i e := by
      rw [CriticalSection.step, turn_leave hs (s := commit w.shared i e) rfl]
      rfl
    rw [hshared, commit_noShortSelling_iff hsafe.store (hsafe.known n _ hs) hn]
    refine ⟨fun h m j f hm _ => ?_, fun h => h n i e rfl hs⟩
    cases hm
    exact h
  · have hnone : ∀ n i e, event = .turn n → w.stage n ≠ .inside (.entered i e) := fun n i e hevent hs =>
      hcommit ⟨n, i, e, hevent, hs⟩
    rw [noShortSelling_congr hsafe.store.sound hnext.store.sound (step_investments_eq postings hsafe hnone)]
    exact iff_of_true hn fun n i e hevent hs => absurd hs (hnone n i e hevent)

/-- **No short selling, in any schedule.** No state of a schedule is short exactly when every sale that commits is
covered by all sales of a later date that are posted at that moment. -/
theorem concurrent_noShortSelling_iff {db : Db} (hdb : Stored db) (hn : NoShortSelling db)
    (events : List (Event ℕ Other)) :
    Machine.Throughout (move postings) (fun w => NoShortSelling w.shared) (start db) events ↔
      Machine.Guarded (move postings) (CommitCovered postings) (start db) events := by
  refine Machine.throughout_iff (I := Safe (sessions postings) Stored (fun db n => Knows db (postings n)) Apart)
    (fun w event w' hsafe hw' => ?_) (fun w event w' hsafe hshort hw' => ?_) events (start_safe hdb) hn
  · cases hw'
    exact step_safe (postings_rule postings) hsafe event
  · cases hw'
    exact move_noShortSelling_iff postings hsafe hshort event

/-- two sales of the same shares start together -/
theorem concurrent_noShortSelling_rivalSales :
    Machine.Throughout (move rivalSales) (fun w => NoShortSelling w.shared) (start brokerageDb) rivalTurns ↔
      Machine.Guarded (move rivalSales) (CommitCovered rivalSales) (start brokerageDb) rivalTurns :=
  concurrent_noShortSelling_iff rivalSales brokerageDb_stored (empty_noShortSelling rfl) rivalTurns

end Vault67.Investments
