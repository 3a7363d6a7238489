/-
No short selling, over whole runs of `create_investment_transaction`.

The posting check compares a sale with the holding as of the sale's own date; the replay is run again over a history
into which the sale is inserted in date order, so that the sales dated after it see a smaller quantity.

- `noShortSelling_iff`: the replays return for every account, security and date exactly when each security's history of
  trades is covered.
- `step_noShortSelling_iff`: an accepted posting keeps this exactly when it is no sale, or every posted sale of a later
  date leaves at least the quantity it sells (`CoversLaterSells`).
- `noShortSelling_throughout_iff`: so no state of a run is short exactly when all its accepted postings are of this kind.
- `backdatedSale_short`: three accepted postings after which no replay returns.
-/
import Mathlib.Tactic
import Vault67.Investments.ReplayAgreement
import Vault67.Investments.Posting
import Vault67.Lib.Machine
import Vault67.Lib.Rows

namespace Vault67.Investments

open OrderBy Fallible AverageCost Machine

/-! ## The property and the condition -/

/-- every replay returns, and no prefix of one holds a negative quantity -/
structure NoShortSelling (db : Db) : Prop where
  holding : ∀ account security asOfDate, ∃ h, calculateHolding db account security asOfDate = .ok h
  holdings : ∀ account asOfDate includeClosed, ∃ hs, calculateHoldings db account asOfDate includeClosed = .ok hs
  gains : ∀ account asOfDate, ∃ events, calculateRealizedGainEvents db account asOfDate = .ok events
  prefixes : ∀ account security asOfDate pre, pre <+: transactions db account (some security) asOfDate →
    ∃ s, replay db security .empty pre = .ok s ∧ 0 ≤ s.quantity

/-- change of the quantity held -/
def signedShares (i : InvestmentTransaction) : ℚ :=
  if i.transactionType = .buy then shares i else if i.transactionType = .sell then -shares i else 0

/-- bought minus sold of j's security on j's account, up to and with j in replay order -/
def heldAfter (db : Db) (j : InvestmentTransaction) : ℚ :=
  ((db.investments.filter fun i =>
    i.account = j.account ∧ i.security = j.security ∧ replayKey i ≤ replayKey j).map signedShares).sum

/-- a sale that every posted sale of a later date still covers -/
def CoversLaterSells (db : Db) (p : InvestmentPosting) : Prop :=
  p.transactionType = .sell → ∀ q ∈ p.quantity, ∀ j ∈ db.investments, j.account = p.account → j.security = p.security →
    j.transactionType = .sell → p.tradeDate < j.tradeDate → q ≤ heldAfter db j

/-! ## Histories -/

/-- what postings keep of the stored details -/
structure Sound (db : Db) : Prop where
  replayable : ∀ i ∈ db.investments, isTrade i → Replayable db i
  pk_lt : ∀ i ∈ db.investments, i.transaction.pk < db.nextTransaction
  pk_nodup : (db.investments.map fun i => i.transaction.pk).Nodup

/-- the trades of one security on one account, as the table has them -/
def tradeRows (db : Db) (account security : ℕ) : List InvestmentTransaction :=
  db.investments.filter fun i => i.account = account ∧ i.security = security ∧ isTrade i

theorem mem_tradeRows {db : Db} {account security : ℕ} {i : InvestmentTransaction} :
    i ∈ tradeRows db account security ↔
      i ∈ db.investments ∧ i.account = account ∧ i.security = security ∧ isTrade i := by
  simp only [tradeRows, List.mem_filter, decide_eq_true_eq]

theorem securityTrades_eq (db : Db) (account security : ℕ) (asOfDate : Option Date) :
    securityTrades db account security asOfDate =
      orderBy replayKey ((tradeRows db account security).filter fun i => onOrBefore asOfDate i) := by
  rw [securityTrades, transactions, filter_orderBy, List.filter_filter, tradeRows, List.filter_filter]
  refine congrArg _ (List.filter_congr fun i _ => ?_)
  simp only [← Bool.decide_and, Option.mem_def, Option.some.injEq, forall_eq']
  exact decide_eq_decide.2 (by tauto)

theorem securityTrades_none (db : Db) (account security : ℕ) :
    securityTrades db account security none = orderBy replayKey (tradeRows db account security) := by
  rw [securityTrades_eq]
  congr 1
  exact List.filter_eq_self.2 fun i _ => by simp [onOrBefore]

/-- the trades up to a date come first -/
theorem securityTrades_split (db : Db) (account security : ℕ) (asOfDate : Option Date) :
    securityTrades db account security none =
      securityTrades db account security asOfDate ++
        orderBy replayKey ((tradeRows db account security).filter fun i => !decide (onOrBefore asOfDate i)) := by
  rw [securityTrades_none, securityTrades_eq]
  refine orderBy_split (fun a b hab hb => ?_) _
  apply decide_eq_true
  intro d hd
  exact (tradeDate_le_of_key_le hab).trans (of_decide_eq_true hb d hd)

theorem Sound.securityTrades {db : Db} (h : Sound db) (account security : ℕ) (asOfDate : Option Date) :
    ∀ i ∈ securityTrades db account security asOfDate, Replayable db i := by
  intro i hi
  obtain ⟨hmem, -, -, -, htrade⟩ := mem_securityTrades.1 hi
  exact h.replayable i hmem htrade

/-- **Short selling is about each security's history.** No state is short on any day exactly when, in replay order, no
sale of any account and security exceeds what was held before it. -/
theorem noShortSelling_iff {db : Db} (h : Sound db) :
    NoShortSelling db ↔
      ∀ account security, Covered 0 ((securityTrades db account security none).map nativeTrade) := by
  refine ⟨?_, ?_⟩
  · intro hn account security
    obtain ⟨r, hr⟩ := exists_calculateHolding_ok_iff.1 (hn.holding account security none)
    exact (exists_replay_ok_iff (h.securityTrades account security none)).1 ⟨r, hr⟩
  · intro hc
    have hcover : ∀ account security asOfDate,
        Covered 0 ((securityTrades db account security asOfDate).map nativeTrade) := by
      intro account security asOfDate
      have hsplit := hc account security
      rw [securityTrades_split db account security asOfDate, List.map_append] at hsplit
      exact (covered_append.1 hsplit).1
    have hreplay : ∀ account security asOfDate,
        ∃ r, replay db security .empty (securityTrades db account security asOfDate) = .ok r := by
      intro account security asOfDate
      exact (exists_replay_ok_iff (h.securityTrades account security asOfDate)).2 (hcover account security asOfDate)
    refine ⟨fun account security asOfDate => ?_, fun account asOfDate includeClosed => ?_,
      fun account asOfDate => ?_, fun account security asOfDate pre hpre => ?_⟩
    · exact exists_calculateHolding_ok_iff.2 (hreplay account security asOfDate)
    · obtain ⟨hs, hhs⟩ := exists_calculateHoldings_ok_iff.2 fun s => hreplay account s asOfDate
      exact exists_calculateHoldings_ok includeClosed hhs
    · exact exists_calculateRealizedGainEvents_ok_iff.2 fun s => hreplay account s asOfDate
    · have htrades : pre.filter (fun i => isTrade i) <+: securityTrades db account security asOfDate := hpre.filter _
      obtain ⟨rest, hrest⟩ := htrades
      have hpreplay : ∀ i ∈ pre.filter (fun i => isTrade i), Replayable db i := by
        intro i hi
        exact h.securityTrades account security asOfDate i (hrest ▸ List.mem_append_left rest hi)
      have hpcover : Covered 0 ((pre.filter fun i => isTrade i).map nativeTrade) := by
        have hall := hcover account security asOfDate
        rw [← hrest, List.map_append] at hall
        exact (covered_append.1 hall).1
      obtain ⟨s, hs⟩ : ∃ s, replay db security .empty (pre.filter fun i => isTrade i) = .ok s :=
        (exists_replay_ok_iff hpreplay).2 hpcover
      refine ⟨s, (replay_trades db security .empty pre).trans hs, ?_⟩
      have hq := replay_quantity (replay_native hpreplay hs)
      have hpos : ∀ t ∈ (pre.filter fun i => isTrade i).map nativeTrade, 0 < t.quantity := by
        intro t ht
        obtain ⟨i, hi, rfl⟩ := List.mem_map.1 ht
        rw [nativeTrade_quantity]
        exact (hpreplay i hi).shares_pos
      calc 0 ≤ 0 + (((pre.filter fun i => isTrade i).map nativeTrade).map Trade.signed).sum :=
            covered_nonneg le_rfl hpos hpcover
        _ = s.quantity := hq.symm

/-! ## One posting -/

variable {db : Db} {i : InvestmentTransaction} {e : TransactionEntry}

theorem Posted.replayable (hp : Posted db i e) (hi : isTrade i) : Replayable db i := by
  obtain ⟨rate, hr, -⟩ := hp.cash
  exact ⟨hi, hp.trade_quantity hi, rate, hr⟩

theorem Sound.post (h : Sound db) (hp : Posted db i e) : Sound (db.post i.transaction [e] [i]) := by
  refine ⟨fun j hj htrade => ?_, fun j hj => ?_, ?_⟩
  · rcases List.mem_append.1 hj with hj | hj
    · exact ⟨htrade, (h.replayable j hj htrade).quantity, (h.replayable j hj htrade).rate⟩
    · rw [List.mem_singleton.1 hj] at htrade ⊢
      exact ⟨htrade, (hp.replayable htrade).quantity, (hp.replayable htrade).rate⟩
  · rw [Db.post_nextTransaction]
    rcases List.mem_append.1 hj with hj | hj
    · exact (h.pk_lt j hj).trans (Nat.lt_succ_self _)
    · rw [List.mem_singleton.1 hj, hp.pk]
      exact Nat.lt_succ_self _
  · exact Rows.nodup_map_concat (fun i : InvestmentTransaction => i.transaction.pk) h.pk_nodup fun j hj =>
      hp.pk ▸ h.pk_lt j hj

theorem tradeRows_post (db : Db) (i : InvestmentTransaction) (e : TransactionEntry) (account security : ℕ) :
    tradeRows (db.post i.transaction [e] [i]) account security =
      if i.account = account ∧ i.security = security ∧ isTrade i then tradeRows db account security ++ [i]
      else tradeRows db account security := by
  rw [tradeRows, Db.post_investments, List.filter_append, tradeRows]
  split_ifs with hc
  · rw [List.filter_cons_of_pos (by simpa using hc), List.filter_nil]
  · rw [List.filter_cons_of_neg (by simpa using hc), List.filter_nil, List.append_nil]

/-- the posted trades of a later date than i -/
def laterTrades (db : Db) (i : InvestmentTransaction) : List InvestmentTransaction :=
  orderBy replayKey
    ((tradeRows db i.account i.security).filter fun j => !decide (onOrBefore (some i.tradeDate) j))

/-- the primary key of a new row is above all others, so among the rows of its date it comes last -/
theorem key_le_iff {j : InvestmentTransaction} (hpk : j.transaction.pk < i.transaction.pk) :
    replayKey j ≤ replayKey i ↔ onOrBefore (some i.tradeDate) j := by
  simp only [onOrBefore, Option.mem_def, Option.some.injEq, forall_eq']
  refine ⟨tradeDate_le_of_key_le, fun hle => Prod.Lex.toLex_le_toLex.2 ?_⟩
  rcases hle.lt_or_eq with hlt | heq
  · exact Or.inl hlt
  · exact Or.inr ⟨heq, hpk.le⟩

/-- **Insertion.** The new trade stands between the trades up to its date and the later ones, since its key is the
largest. -/
theorem securityTrades_post (hfresh : ∀ j ∈ db.investments, j.transaction.pk < db.nextTransaction) (hp : Posted db i e)
    (hi : isTrade i) :
    securityTrades (db.post i.transaction [e] [i]) i.account i.security none =
      securityTrades db i.account i.security (some i.tradeDate) ++ i :: laterTrades db i := by
  have hlt : ∀ j ∈ tradeRows db i.account i.security, j.transaction.pk < i.transaction.pk := by
    intro j hj
    exact hp.pk ▸ hfresh j (mem_tradeRows.1 hj).1
  have hfront : (tradeRows db i.account i.security).filter (fun j => decide (replayKey j ≤ replayKey i)) =
      (tradeRows db i.account i.security).filter fun j => decide (onOrBefore (some i.tradeDate) j) :=
    List.filter_congr fun j hj => decide_eq_decide.2 (key_le_iff (hlt j hj))
  have hback : (tradeRows db i.account i.security).filter (fun j => !decide (replayKey j ≤ replayKey i)) =
      (tradeRows db i.account i.security).filter fun j => !decide (onOrBefore (some i.tradeDate) j) :=
    List.filter_congr fun j hj => by rw [decide_eq_decide.2 (key_le_iff (hlt j hj))]
  rw [securityTrades_none, tradeRows_post, if_pos ⟨rfl, rfl, hi⟩, orderBy_concat, hfront, hback, ← securityTrades_eq,
    laterTrades]

theorem securityTrades_append_later (db : Db) (i : InvestmentTransaction) :
    securityTrades db i.account i.security none =
      securityTrades db i.account i.security (some i.tradeDate) ++ laterTrades db i :=
  securityTrades_split db i.account i.security (some i.tradeDate)

/-- a posting leaves the histories of other securities and accounts as they were -/
theorem securityTrades_post_other {account security : ℕ}
    (hne : ¬(i.account = account ∧ i.security = security ∧ isTrade i)) :
    securityTrades (db.post i.transaction [e] [i]) account security none = securityTrades db account security none := by
  rw [securityTrades_none, tradeRows_post, if_neg hne, ← securityTrades_none]

/-- so a posting keeps all histories covered when it keeps its own covered -/
theorem covered_post_iff (h : Sound db) (hn : NoShortSelling db) (hp : Posted db i e) (hi : isTrade i) :
    NoShortSelling (db.post i.transaction [e] [i]) ↔
      Covered 0 ((securityTrades db i.account i.security (some i.tradeDate) ++ i :: laterTrades db i).map
        nativeTrade) := by
  rw [noShortSelling_iff (h.post hp)]
  refine ⟨?_, ?_⟩
  · intro hall
    have hown := hall i.account i.security
    rwa [securityTrades_post h.pk_lt hp hi] at hown
  · intro hown account security
    by_cases hc : i.account = account ∧ i.security = security ∧ isTrade i
    · obtain ⟨rfl, rfl, -⟩ := hc
      rwa [securityTrades_post h.pk_lt hp hi]
    · rw [securityTrades_post_other hc]
      exact (noShortSelling_iff h).1 hn account security

/-! ## Later sales -/

theorem nativeTrade_signed {j : InvestmentTransaction} (hj : isTrade j) : (nativeTrade j).signed = signedShares j := by
  rcases hj with hb | hs
  · simp [nativeTrade, signedShares, hb, Trade.signed]
  · simp [nativeTrade, signedShares, hs, Trade.signed]

theorem signedShares_of_not_trade {j : InvestmentTransaction} (hj : ¬isTrade j) : signedShares j = 0 := by
  obtain ⟨hb, hs⟩ := not_or.1 hj
  rw [signedShares, if_neg hb, if_neg hs]

/-- up to j means: the trades in front of j in the ordered history, and j -/
theorem heldAfter_eq (h : Sound db) {j : InvestmentTransaction} {front back : List InvestmentTransaction}
    (hj : securityTrades db j.account j.security none = front ++ j :: back) :
    heldAfter db j = ((front ++ [j]).map signedShares).sum := by
  have hkeys : ((tradeRows db j.account j.security).map replayKey).Nodup := by
    have hpks : ((tradeRows db j.account j.security).map fun i => i.transaction.pk).Nodup :=
      h.pk_nodup.sublist (List.filter_sublist.map _)
    refine (List.Nodup.of_map (fun k => (ofLex k).2) ?_)
    rwa [List.map_map]
  rw [securityTrades_none] at hj
  have hperm := filter_le_perm hkeys hj
  rw [← (hperm.map signedShares).sum_eq, heldAfter,
    Rows.sum_filter_split (fun i : InvestmentTransaction => isTrade i)]
  have hrest : ((db.investments.filter fun i => ¬isTrade i ∧ i.account = j.account ∧ i.security = j.security ∧
      replayKey i ≤ replayKey j).map signedShares).sum = 0 := by
    apply List.sum_eq_zero
    intro x hx
    obtain ⟨i, hi, rfl⟩ := List.mem_map.1 hx
    exact signedShares_of_not_trade (of_decide_eq_true (List.mem_filter.1 hi).2).1
  rw [hrest, add_zero, tradeRows, List.filter_filter]
  refine congrArg List.sum (congrArg _ (List.filter_congr fun i _ => ?_))
  rw [← Bool.decide_and]
  exact decide_eq_decide.2 (by tauto)

theorem mem_laterTrades {j : InvestmentTransaction} :
    j ∈ laterTrades db i ↔
      j ∈ db.investments ∧ j.account = i.account ∧ j.security = i.security ∧ isTrade j ∧ i.tradeDate < j.tradeDate := by
  simp only [laterTrades, mem_orderBy, List.mem_filter, mem_tradeRows, onOrBefore, Option.mem_def, Option.some.injEq,
    forall_eq', Bool.not_eq_true', decide_eq_false_iff_not, not_le, and_assoc]

theorem signedShares_sum {items : List InvestmentTransaction} (hitems : ∀ i ∈ items, isTrade i) :
    ((items.map nativeTrade).map Trade.signed).sum = (items.map signedShares).sum := by
  rw [List.map_map]
  exact congrArg List.sum (List.map_congr_left fun i hi => nativeTrade_signed (hitems i hi))

/-- what a later sale leaves, in the ordered history and in the table -/
theorem later_sale_leaves (h : Sound db) {j : InvestmentTransaction} {front back : List InvestmentTransaction}
    (hj : laterTrades db i = front ++ j :: back) (hs : j.transactionType = .sell) :
    0 + (((securityTrades db i.account i.security (some i.tradeDate)).map nativeTrade).map Trade.signed).sum +
      ((front.map nativeTrade).map Trade.signed).sum - shares j = heldAfter db j := by
  have hmem : j ∈ laterTrades db i := hj ▸ List.mem_append_right front List.mem_cons_self
  obtain ⟨-, ha, hsec, -, -⟩ := mem_laterTrades.1 hmem
  have hsplit : securityTrades db j.account j.security none =
      (securityTrades db i.account i.security (some i.tradeDate) ++ front) ++ j :: back := by
    rw [ha, hsec, securityTrades_append_later, hj, List.append_assoc]
  have hbefore : ∀ k ∈ securityTrades db i.account i.security (some i.tradeDate), isTrade k :=
    fun k hk => (mem_securityTrades.1 hk).2.2.2.2
  have hfront : ∀ k ∈ front, isTrade k := fun k hk =>
    (mem_laterTrades.1 (hj ▸ List.mem_append_left _ hk : k ∈ laterTrades db i)).2.2.2.1
  have hsigned : signedShares j = -shares j := by
    rw [signedShares, if_neg (by rw [hs]; decide), if_pos hs]
  rw [heldAfter_eq h hsplit, signedShares_sum hbefore, signedShares_sum hfront]
  simp only [List.map_append, List.sum_append, List.map_cons, List.map_nil, List.sum_cons, List.sum_nil, hsigned]
  ring

/-- the holding check: the trades up to the date of a sale leave what it sells -/
theorem Posted.held (h : Sound db) (hp : Posted db i e) (hs : i.transactionType = .sell) :
    shares i ≤ 0 + (((securityTrades db i.account i.security (some i.tradeDate)).map nativeTrade).map
      Trade.signed).sum := by
  obtain ⟨held, hheld, q, hq, hle⟩ := hp.holding hs
  obtain ⟨holding, hholding, hh⟩ := bind_eq_ok.1 hheld
  obtain ⟨r, hr, hsnap⟩ := calculateHolding_ok_iff.1 hholding
  have hrq := replay_quantity (replay_native (h.securityTrades i.account i.security (some i.tradeDate)) hr)
  have hshares : shares i = q := by
    rw [shares, Option.mem_def.1 hq]
    rfl
  calc shares i = q := hshares
    _ ≤ held := hle
    _ = r.quantity := by rw [← Except.ok.inj hh, hsnap]; rfl
    _ = 0 + _ := hrq

/-- **One posting.** From a state that is not short, it leads to no short state exactly when it covers the later sales. -/
theorem step_noShortSelling_iff {db' : Db} {p : InvestmentPosting} (h : Sound db) (hn : NoShortSelling db)
    (hstep : createInvestmentTransaction db p = .ok db') : NoShortSelling db' ↔ CoversLaterSells db p := by
  obtain ⟨i, e, hp, hdraft, htype, hdate, rfl⟩ := createInvestmentTransaction_ok hstep
  have hacc : i.account = p.account := congrArg InvestmentDraft.account hdraft
  have hsec : i.security = p.security := congrArg InvestmentDraft.security hdraft
  have hquantity : i.quantity = p.quantity := congrArg InvestmentDraft.quantity hdraft
  have hold := (noShortSelling_iff h).1 hn i.account i.security
  rw [securityTrades_append_later, List.map_append] at hold
  by_cases hi : isTrade i
  · rw [covered_post_iff h hn hp hi, List.map_append, List.map_cons]
    rcases hi with hb | hs
    · -- a purchase only adds to what later sales find
      have hpos : 0 ≤ shares i := (hp.replayable (Or.inl hb)).shares_pos.le
      rw [nativeTrade, if_pos hb]
      apply iff_of_true (covered_insert_buy hpos hold)
      intro hsell
      rw [← htype, hb] at hsell
      exact absurd hsell (by decide)
    · rw [nativeTrade_sell hs, covered_insert_sell hold]
      have hq : p.quantity = some (shares i) := hquantity ▸ (hp.replayable (Or.inr hs)).quantity_eq
      refine ⟨?_, ?_⟩
      · intro hcov _ q hqp j hj hja hjs hjsell hjdate
        have hmem : j ∈ laterTrades db i :=
          mem_laterTrades.2 ⟨hj, hja.trans hacc.symm, hjs.trans hsec.symm, Or.inr hjsell, hdate ▸ hjdate⟩
        obtain ⟨front, back, hsplit⟩ := List.append_of_mem hmem
        rw [← later_sale_leaves h hsplit hjsell]
        have hqs : q = shares i := Option.some.inj ((Option.mem_def.1 hqp).symm.trans hq)
        rw [hqs]
        refine hcov.2 (front.map nativeTrade) (shares j) (netProceeds j) (back.map nativeTrade) ?_
        rw [hsplit, List.map_append, List.map_cons, nativeTrade_sell hjsell]
      · intro hcov
        refine ⟨hp.held h hs, fun pre x r post hsplit => ?_⟩
        obtain ⟨front, rest, hlater, rfl, hrest⟩ := List.map_eq_append_iff.1 hsplit
        obtain ⟨j, back, rfl, hj, -⟩ := List.map_eq_cons_iff.1 hrest
        have hmem : j ∈ laterTrades db i := hlater ▸ List.mem_append_right front List.mem_cons_self
        obtain ⟨hjdb, hja, hjs, hjtrade, hjdate⟩ := mem_laterTrades.1 hmem
        have hjsell : j.transactionType = .sell := by
          rcases hjtrade with hb | hsell
          · simp [nativeTrade, hb] at hj
          · exact hsell
        rw [nativeTrade_sell hjsell] at hj
        cases hj
        rw [later_sale_leaves h hlater hjsell]
        exact hcov (htype ▸ hs) (shares i) hq j hjdb (hja.trans hacc) (hjs.trans hsec) hjsell (hdate ▸ hjdate)
  · -- a dividend, a fee or a tax is no trade
    refine iff_of_true ?_ fun hsell => absurd (Or.inr (htype.trans hsell)) hi
    rw [noShortSelling_iff (h.post hp)]
    intro account security
    rw [securityTrades_post_other fun hc => hi hc.2.2]
    exact (noShortSelling_iff h).1 hn account security

/-! ## Runs -/

theorem Sound.step {db' : Db} {p : InvestmentPosting} (h : Sound db)
    (hstep : createInvestmentTransaction db p = .ok db') : Sound db' := by
  obtain ⟨i, e, hp, -, -, -, rfl⟩ := createInvestmentTransaction_ok hstep
  exact h.post hp

theorem empty_sound (hdb : db.investments = []) : Sound db := by
  constructor <;> simp [hdb]

theorem empty_noShortSelling (hdb : db.investments = []) : NoShortSelling db := by
  rw [noShortSelling_iff (empty_sound hdb)]
  intro account security
  simp [securityTrades_none, tradeRows, hdb, Covered]

/-- **No short selling.** From a database without investments, no state of a run of postings is short, on any account,
security and date, exactly when every accepted sale is covered by all posted sales of a later date. -/
theorem noShortSelling_throughout_iff (db : Db) (hdb : db.investments = []) (posts : List InvestmentPosting) :
    Throughout createInvestmentTransaction NoShortSelling db posts ↔
      Guarded createInvestmentTransaction CoversLaterSells db posts :=
  throughout_iff (fun _ _ _ h => h.step) (fun _ _ _ => step_noShortSelling_iff) posts (empty_sound hdb)
    (empty_noShortSelling hdb)

/-- one brokerage account (0) of user 1 and one security (0), all in currency 1 -/
def brokerageDb : Db :=
  { Db.init (fun _ => "EUR") fun _ => ⟨"ETF", 1, true⟩ with
    account := fun _ => ⟨1, "Broker", .brokerage, 1, true, none⟩
    accountIds := [0]
    nextAccount := 1 }

/-- buy 10 on day 1, sell them on day 31, sell them again dated day 15 -/
def backdatedSale : List InvestmentPosting := [tradeAtTen .buy 10 1, tradeAtTen .sell 10 31, tradeAtTen .sell 10 15]

/-- the run of `backdatedSale` is not guarded: its last sale takes what the posted sale needs -/
theorem noShortSelling_throughout_backdatedSale :
    Throughout createInvestmentTransaction NoShortSelling brokerageDb backdatedSale ↔
      Guarded createInvestmentTransaction CoversLaterSells brokerageDb backdatedSale :=
  noShortSelling_throughout_iff brokerageDb rfl backdatedSale

/-- **The check is not enough.** All three postings are accepted, and then the holding cannot be calculated. -/
theorem backdatedSale_short : ¬NoShortSelling (run createInvestmentTransaction brokerageDb backdatedSale) := by
  intro hn
  obtain ⟨h, hh⟩ := hn.holding 0 0 none
  have hraise : calculateHolding (run createInvestmentTransaction brokerageDb backdatedSale) 0 0 none =
      .error (.message (.historicalOversell "ETF" 10 0)) := by
    decide +kernel
  rw [hraise] at hh
  cases hh

end Vault67.Investments
