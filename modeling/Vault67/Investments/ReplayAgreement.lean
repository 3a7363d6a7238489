/-
The replays of an account's trades agree: `calculate_holdings`, `calculate_holding` and the separately written pass of
`calculate_realized_gain_events`. No assumption on the stored items is made.

- `gainItem_agrees`: one trade of the interleaved pass is the same trade of the security's own replay.
- `gains_agree`: so the pass returns exactly when the replay of every security does, and its positions and the sums of
  its events are those of the replays.
- `gains_items`: its events are the sales, in replay order.
- `calculateRealizedGainEvents_split`: the pass up to a date is the beginning of every longer pass.
- `replays_agree`: the three calculations, for every history and every date.
-/
import Mathlib.Tactic
import Vault67.Investments.Replay

namespace Vault67.Investments

open OrderBy Fallible

variable {db : Db} {account : ℕ} {asOfDate : Option Date}

/-! ## One trade -/

/-- the sums over the events of one security -/
def eventSum (f : RealizedGainEvent → ℚ) (s : ℕ) (events : List RealizedGainEvent) : ℚ :=
  ((events.filter fun e => e.investmentTransaction.security = s).map f).sum

/-- the state of the interleaved pass against one replay state for each security -/
structure Agrees (t : GainReplay) (m : ℕ → Replay) : Prop where
  position : ∀ s, t.positions s = ⟨(m s).quantity, (m s).nativeCost, (m s).baseCost⟩
  gain : ∀ s, eventSum RealizedGainEvent.gain s t.events = (m s).realized
  gainBase : ∀ s, eventSum RealizedGainEvent.gainBase s t.events = (m s).realizedBase

/-- the replay step of an item's own security -/
def ownItem (db : Db) (s : Replay) (i : InvestmentTransaction) : Except Error Replay :=
  replayItem db (db.security i.security).symbol s i

theorem eventSum_concat (f : RealizedGainEvent → ℚ) (s : ℕ) (events : List RealizedGainEvent) (e : RealizedGainEvent) :
    eventSum f s (events ++ [e]) = eventSum f s events + if e.investmentTransaction.security = s then f e else 0 := by
  by_cases h : e.investmentTransaction.security = s <;> simp [eventSum, h]

variable {t t' : GainReplay} {s' : Replay} {m : ℕ → Replay} {i : InvestmentTransaction}

theorem gainItem_buy_ok (ha : i.account = account) (hb : i.transactionType = .buy) :
    gainItem db account t i = .ok t' ↔ ∃ q, i.quantity = some q ∧ ∃ rate, rateToAccount db i = some rate ∧
      (⟨Function.update t.positions i.security
        ⟨(t.positions i.security).quantity + q, (t.positions i.security).nativeCost + acquisitionCost i,
          (t.positions i.security).baseCost + acquisitionCost i * rate⟩, t.events⟩ : GainReplay) = t' := by
  subst ha
  simp only [gainItem, hb, if_true, bind_eq_ok, notNone_eq_ok, Except.ok.injEq, rateToAccount]

/-- the event of a sale out of lot -/
def saleEvent (i : InvestmentTransaction) (lot : Lot) (q rate : ℚ) : RealizedGainEvent where
  investmentTransaction := i
  netProceeds := netProceeds i
  allocatedCostBasis := lot.nativeCost / lot.quantity * q
  gain := netProceeds i - lot.nativeCost / lot.quantity * q
  netProceedsBase := netProceeds i * rate
  allocatedCostBasisBase := lot.baseCost / lot.quantity * q
  gainBase := netProceeds i * rate - lot.baseCost / lot.quantity * q

/-- what a sale leaves of lot -/
def Lot.sell (lot : Lot) (q : ℚ) : Lot :=
  ⟨lot.quantity - q, if lot.quantity - q = 0 then 0 else lot.nativeCost - lot.nativeCost / lot.quantity * q,
    if lot.quantity - q = 0 then 0 else lot.baseCost - lot.baseCost / lot.quantity * q⟩

theorem gainItem_sell_ok (ha : i.account = account) (hs : i.transactionType = .sell) :
    gainItem db account t i = .ok t' ↔ ∃ q, i.quantity = some q ∧
      ¬((t.positions i.security).quantity < q ∨ (t.positions i.security).quantity = 0) ∧
      ∃ rate, rateToAccount db i = some rate ∧
        (⟨Function.update t.positions i.security ((t.positions i.security).sell q),
          t.events ++ [saleEvent i (t.positions i.security) q rate]⟩ : GainReplay) = t' := by
  subst ha
  have hb : i.transactionType ≠ .buy := by rw [hs]; decide
  simp only [gainItem, hb, if_false, bind_eq_ok, notNone_eq_ok, ite_error_eq_ok, Except.ok.injEq, rateToAccount,
    Lot.sell, saleEvent]

theorem ownItem_buy_ok {s : Replay} (hb : i.transactionType = .buy) :
    ownItem db s i = .ok s' ↔ ∃ q, i.quantity = some q ∧ ∃ rate, rateToAccount db i = some rate ∧
      (⟨s.quantity + q, s.nativeCost + acquisitionCost i, s.baseCost + acquisitionCost i * rate, s.realized,
        s.realizedBase⟩ : Replay) = s' := by
  simp only [ownItem, replayItem, hb, bind_eq_ok, notNone_eq_ok, Except.ok.injEq]

theorem ownItem_sell_ok {s : Replay} (hs : i.transactionType = .sell) :
    ownItem db s i = .ok s' ↔ ∃ q, i.quantity = some q ∧ ¬s.quantity < q ∧ s.quantity ≠ 0 ∧
      ∃ rate, rateToAccount db i = some rate ∧
        (⟨s.quantity - q, if s.quantity - q = 0 then 0 else s.nativeCost - s.nativeCost / s.quantity * q,
          if s.quantity - q = 0 then 0 else s.baseCost - s.baseCost / s.quantity * q,
          s.realized + (netProceeds i - s.nativeCost / s.quantity * q),
          s.realizedBase + (netProceeds i * rate - s.baseCost / s.quantity * q)⟩ : Replay) = s' := by
  simp only [ownItem, replayItem, hs, bind_eq_ok, notNone_eq_ok, ite_error_eq_ok, Except.ok.injEq, ne_eq]

/-- a purchase changes the position of its security and adds no event -/
theorem Agrees.buy (h : Agrees t m) (cost q rate : ℚ) (k : ℕ) :
    Agrees ⟨Function.update t.positions k ⟨(t.positions k).quantity + q, (t.positions k).nativeCost + cost,
        (t.positions k).baseCost + cost * rate⟩, t.events⟩
      (Function.update m k ⟨(m k).quantity + q, (m k).nativeCost + cost, (m k).baseCost + cost * rate, (m k).realized,
        (m k).realizedBase⟩) := by
  refine ⟨fun s => ?_, fun s => ?_, fun s => ?_⟩ <;> by_cases hs : s = k
  · subst hs
    simp only [Function.update_self, h.position s]
  · simp only [Function.update_of_ne hs, h.position s]
  · subst hs
    simp only [Function.update_self, h.gain s]
  · simp only [Function.update_of_ne hs, h.gain s]
  · subst hs
    simp only [Function.update_self, h.gainBase s]
  · simp only [Function.update_of_ne hs, h.gainBase s]

/-- a sale changes the position of its security and adds its gain to the events of that security -/
theorem Agrees.sell (h : Agrees t m) (i : InvestmentTransaction) (q rate : ℚ) :
    Agrees ⟨Function.update t.positions i.security ((t.positions i.security).sell q),
        t.events ++ [saleEvent i (t.positions i.security) q rate]⟩
      (Function.update m i.security ⟨(m i.security).quantity - q,
        if (m i.security).quantity - q = 0 then 0
        else (m i.security).nativeCost - (m i.security).nativeCost / (m i.security).quantity * q,
        if (m i.security).quantity - q = 0 then 0
        else (m i.security).baseCost - (m i.security).baseCost / (m i.security).quantity * q,
        (m i.security).realized + (netProceeds i - (m i.security).nativeCost / (m i.security).quantity * q),
        (m i.security).realizedBase +
          (netProceeds i * rate - (m i.security).baseCost / (m i.security).quantity * q)⟩) := by
  refine ⟨fun s => ?_, fun s => ?_, fun s => ?_⟩ <;> by_cases hs : s = i.security
  · subst hs
    simp only [Function.update_self, h.position i.security, Lot.sell]
  · simp only [Function.update_of_ne hs, h.position s]
  · subst hs
    simp only [eventSum_concat, saleEvent, if_true, Function.update_self, h.gain, h.position]
  · simp only [eventSum_concat, saleEvent, if_neg (Ne.symm hs), add_zero, Function.update_of_ne hs, h.gain]
  · subst hs
    simp only [eventSum_concat, saleEvent, if_true, Function.update_self, h.gainBase, h.position]
  · simp only [eventSum_concat, saleEvent, if_neg (Ne.symm hs), add_zero, Function.update_of_ne hs, h.gainBase]

/-- **One trade.** The interleaved pass takes it exactly when its security's own replay does, and then both stay in
agreement on every security. -/
theorem gainItem_agrees (ha : i.account = account) (hi : isTrade i) (h : Agrees t m) :
    (∀ t', gainItem db account t i = .ok t' →
      ∃ s', ownItem db (m i.security) i = .ok s' ∧ Agrees t' (Function.update m i.security s')) ∧
    (∀ s', ownItem db (m i.security) i = .ok s' → ∃ t', gainItem db account t i = .ok t') := by
  have hquantity : (t.positions i.security).quantity = (m i.security).quantity := by rw [h.position]
  rcases hi with hb | hs
  · refine ⟨?_, ?_⟩
    · intro t' ht
      obtain ⟨q, hq, rate, hr, rfl⟩ := (gainItem_buy_ok ha hb).1 ht
      exact ⟨_, (ownItem_buy_ok hb).2 ⟨q, hq, rate, hr, rfl⟩, h.buy (acquisitionCost i) q rate i.security⟩
    · intro s' hs'
      obtain ⟨q, hq, rate, hr, -⟩ := (ownItem_buy_ok hb).1 hs'
      exact ⟨_, (gainItem_buy_ok ha hb).2 ⟨q, hq, rate, hr, rfl⟩⟩
  · refine ⟨?_, ?_⟩
    · intro t' ht
      obtain ⟨q, hq, hguard, rate, hr, rfl⟩ := (gainItem_sell_ok ha hs).1 ht
      obtain ⟨hlt, hne⟩ := not_or.1 hguard
      rw [hquantity] at hlt hne
      exact ⟨_, (ownItem_sell_ok hs).2 ⟨q, hq, hlt, hne, rate, hr, rfl⟩, h.sell i q rate⟩
    · intro s' hs'
      obtain ⟨q, hq, hlt, hne, rate, hr, -⟩ := (ownItem_sell_ok hs).1 hs'
      refine ⟨_, (gainItem_sell_ok ha hs).2 ⟨q, hq, ?_, rate, hr, rfl⟩⟩
      rw [hquantity]
      exact not_or.2 ⟨hlt, hne⟩

/-! ## The whole pass -/

theorem empty_agrees : Agrees .empty fun _ => .empty := ⟨fun _ => rfl, fun _ => rfl, fun _ => rfl⟩

theorem foldlM_ownItem {s : ℕ} {items : List InvestmentTransaction} (h : ∀ i ∈ items, i.security = s) (r : Replay) :
    items.foldlM (ownItem db) r = replay db s r items := by
  induction items generalizing r with
  | nil => rfl
  | cons i items ih =>
    have hi : i.security = s := h i List.mem_cons_self
    rw [replay, List.foldlM_cons, List.foldlM_cons, ownItem, hi]
    exact bind_congr fun r' => ih (fun j hj => h j (List.mem_cons_of_mem i hj)) r'

/-- **The interleaved pass against the replays of the securities.** It returns exactly when each of them does, and its
positions and the sums of its events are theirs. -/
theorem gains_agree_items {items : List InvestmentTransaction} (hitems : ∀ i ∈ items, i.account = account ∧ isTrade i) :
    (∀ t, items.foldlM (gainItem db account) .empty = .ok t →
      ∃ m, (∀ s, replay db s .empty (items.filter fun i => decide (i.security = s)) = .ok (m s)) ∧ Agrees t m) ∧
    ((∀ s, ∃ r, replay db s .empty (items.filter fun i => decide (i.security = s)) = .ok r) →
      ∃ t, items.foldlM (gainItem db account) .empty = .ok t) := by
  have key := @keyed_replay _ _ _ _ _ _ _ (fun i : InvestmentTransaction => i.security) (gainItem db account) (ownItem db) Agrees
    items (fun t m i hi h => gainItem_agrees (hitems i hi).1 (hitems i hi).2 h) _ _ empty_agrees
  have hgroup : ∀ s, (items.filter fun i => decide (i.security = s)).foldlM (ownItem db) .empty =
      replay db s .empty (items.filter fun i => decide (i.security = s)) := fun s =>
    foldlM_ownItem (fun i hi => of_decide_eq_true (List.mem_filter.1 hi).2) _
  simpa only [hgroup] using key

/-- the group of a security in the pass is replayed as `calculateHolding` replays it -/
theorem gains_agree (db : Db) (account : ℕ) (asOfDate : Option Date) :
    (∀ t, (trades db account asOfDate).foldlM (gainItem db account) .empty = .ok t →
      ∃ m, (∀ s, replay db s .empty (securityTrades db account s asOfDate) = .ok (m s)) ∧ Agrees t m) ∧
    ((∀ s, ∃ r, replay db s .empty (securityTrades db account s asOfDate) = .ok r) →
      ∃ t, (trades db account asOfDate).foldlM (gainItem db account) .empty = .ok t) := by
  have hitems : ∀ i ∈ trades db account asOfDate, i.account = account ∧ isTrade i := fun i hi =>
    ⟨(mem_trades.1 hi).2.1, (mem_trades.1 hi).2.2.1⟩
  simpa only [trades_filter_security] using gains_agree_items hitems

theorem gains_items {items : List InvestmentTransaction} (hitems : ∀ i ∈ items, i.account = account ∧ isTrade i)
    (h : items.foldlM (gainItem db account) t = .ok t') :
    t'.events.map RealizedGainEvent.investmentTransaction =
      t.events.map RealizedGainEvent.investmentTransaction ++ items.filter fun i => i.transactionType = .sell := by
  induction items generalizing t with
  | nil => cases h; simp
  | cons i items ih =>
    obtain ⟨t₁, h1, h2⟩ := foldlM_cons_ok.1 h
    obtain ⟨ha, htrade⟩ := hitems i List.mem_cons_self
    rw [ih (fun j hj => hitems j (List.mem_cons_of_mem i hj)) h2]
    rcases htrade with hb | hs
    · obtain ⟨q, -, rate, -, rfl⟩ := (gainItem_buy_ok ha hb).1 h1
      simp [hb]
    · obtain ⟨q, -, -, rate, -, rfl⟩ := (gainItem_sell_ok ha hs).1 h1
      simp [hs, saleEvent]

/-! ## Earlier dates -/

/-- the pass only appends events, one trade after the other -/
theorem gains_extend {items : List InvestmentTransaction} (hitems : ∀ i ∈ items, i.account = account ∧ isTrade i)
    (h : items.foldlM (gainItem db account) t = .ok t') :
    ∃ new, t'.events = t.events ++ new ∧ ∀ e ∈ new, e.investmentTransaction ∈ items := by
  induction items generalizing t with
  | nil =>
    cases h
    exact ⟨[], (List.append_nil _).symm, by simp⟩
  | cons i items ih =>
    obtain ⟨t₁, h1, h2⟩ := foldlM_cons_ok.1 h
    obtain ⟨ha, htrade⟩ := hitems i List.mem_cons_self
    obtain ⟨new, hnew, hmem⟩ := ih (fun j hj => hitems j (List.mem_cons_of_mem i hj)) h2
    rcases htrade with hb | hs
    · obtain ⟨q, -, rate, -, rfl⟩ := (gainItem_buy_ok ha hb).1 h1
      exact ⟨new, hnew, fun e he => List.mem_cons_of_mem i (hmem e he)⟩
    · obtain ⟨q, -, -, rate, -, rfl⟩ := (gainItem_sell_ok ha hs).1 h1
      refine ⟨saleEvent i (t.positions i.security) q rate :: new, ?_, ?_⟩
      · rw [hnew, List.append_assoc, List.singleton_append]
      · intro e he
        rcases List.mem_cons.1 he with rfl | he
        · exact List.mem_cons_self
        · exact List.mem_cons_of_mem i (hmem e he)

theorem trades_split (db : Db) (account : ℕ) {b c : Date} (hbc : b ≤ c) :
    ∃ later, trades db account (some c) = trades db account (some b) ++ later ∧
      ∀ i ∈ later, b < i.tradeDate ∧ i.account = account ∧ isTrade i := by
  have hprefix : ∀ i j : InvestmentTransaction, replayKey i ≤ replayKey j → decide (j.tradeDate ≤ b) = true →
      decide (i.tradeDate ≤ b) = true := fun i j hij hj =>
    decide_eq_true ((tradeDate_le_of_key_le hij).trans (of_decide_eq_true hj))
  have hsplit := orderBy_split hprefix
    (db.investments.filter fun i => i.account = account ∧ isTrade i ∧ onOrBefore (some c) i)
  refine ⟨_, hsplit.trans (congrArg (· ++ _) ?_), fun i hi => ?_⟩
  · rw [trades, List.filter_filter]
    refine congrArg _ (List.filter_congr fun i _ => ?_)
    rw [← Bool.decide_and]
    refine decide_eq_decide.2 ?_
    simp only [onOrBefore, Option.mem_def, Option.some.injEq, forall_eq']
    refine ⟨?_, ?_⟩
    · exact fun h => ⟨h.2.1, h.2.2.1, h.1⟩
    · exact fun h => ⟨h.2.2, h.1, h.2.1, h.2.2.trans hbc⟩
  · obtain ⟨hi, hlate⟩ := List.mem_filter.1 (mem_orderBy.1 hi)
    obtain ⟨ha, htrade, -⟩ := of_decide_eq_true (List.mem_filter.1 hi).2
    exact ⟨by simpa using hlate, ha, htrade⟩

/-- **Later trades change no earlier event.** A pass up to c starts with the events of the pass up to b, and what
follows is dated after b. -/
theorem calculateRealizedGainEvents_split {b c : Date} (hbc : b ≤ c) {events : List RealizedGainEvent}
    (h : calculateRealizedGainEvents db account (some c) = .ok events) :
    ∃ earlier later, calculateRealizedGainEvents db account (some b) = .ok earlier ∧ events = earlier ++ later ∧
      (∀ e ∈ earlier, e.investmentTransaction.tradeDate ≤ b) ∧ ∀ e ∈ later, b < e.investmentTransaction.tradeDate := by
  obtain ⟨later, hsplit, hlater⟩ := trades_split db account hbc
  obtain ⟨t, ht, hevents⟩ := bind_eq_ok.1 h
  rw [hsplit] at ht
  obtain ⟨t₁, h1, h2⟩ := foldlM_append_ok.1 ht
  obtain ⟨new, hnew, hmem⟩ := gains_extend (fun i hi => (hlater i hi).2) h2
  have hfirst : ∀ i ∈ trades db account (some b), i.account = account ∧ isTrade i := fun i hi =>
    ⟨(mem_trades.1 hi).2.1, (mem_trades.1 hi).2.2.1⟩
  obtain ⟨old, hold, holdmem⟩ := gains_extend hfirst h1
  refine ⟨t₁.events, new, bind_eq_ok.2 ⟨t₁, h1, rfl⟩, (Except.ok.inj hevents).symm.trans hnew, fun e he => ?_,
    fun e he => (hlater _ (hmem e he)).1⟩
  rw [hold] at he
  exact (mem_trades.1 (holdmem e he)).2.2.2 b rfl

/-! ## The three calculations -/

theorem exists_error_iff {α : Type} {x : Except Error α} : (∃ e, x = .error e) ↔ ¬∃ a, x = .ok a := by
  cases x <;> simp

theorem exists_calculateRealizedGainEvents_ok_iff :
    (∃ events, calculateRealizedGainEvents db account asOfDate = .ok events) ↔
      ∀ s, ∃ r, replay db s .empty (securityTrades db account s asOfDate) = .ok r := by
  obtain ⟨h1, h2⟩ := gains_agree db account asOfDate
  refine ⟨?_, ?_⟩
  · rintro ⟨events, h⟩
    obtain ⟨t, ht, -⟩ := bind_eq_ok.1 h
    obtain ⟨m, hm, -⟩ := h1 t ht
    exact fun s => ⟨m s, hm s⟩
  · intro h
    obtain ⟨t, ht⟩ := h2 h
    exact ⟨t.events, bind_eq_ok.2 ⟨t, ht, rfl⟩⟩

/-- **The replays agree.** For every history and date: one snapshot for each security, the one of `calculateHolding`;
the gain pass raises exactly when the holdings do; and otherwise its events are the sales in replay order, with the
realized gains of the snapshots as their sums. -/
theorem replays_agree (db : Db) (account : ℕ) (asOfDate : Option Date) :
    (∀ hs, calculateHoldings db account asOfDate true = .ok hs →
      (hs.map HoldingSnapshot.security).Nodup ∧
      (∀ s, s ∈ hs.map HoldingSnapshot.security ↔
        ∃ i ∈ db.investments, i.account = account ∧ i.security = s ∧ onOrBefore asOfDate i) ∧
      ∀ h ∈ hs, calculateHolding db account h.security asOfDate = .ok h) ∧
    ((∃ e, calculateRealizedGainEvents db account asOfDate = .error e) ↔
      ∃ e, calculateHoldings db account asOfDate true = .error e) ∧
    ∀ hs events, calculateHoldings db account asOfDate true = .ok hs →
      calculateRealizedGainEvents db account asOfDate = .ok events →
      (∀ h ∈ hs, eventSum RealizedGainEvent.gain h.security events = h.realizedGain ∧
        eventSum RealizedGainEvent.gainBase h.security events = h.realizedGainBase) ∧
      events.map RealizedGainEvent.investmentTransaction =
        (transactions db account none asOfDate).filter fun i => i.transactionType = .sell := by
  refine ⟨fun hs h => ?_, ?_, fun hs events h hev => ?_⟩
  · obtain ⟨hkeys, heach⟩ := calculateHoldings_securities h
    rw [hkeys]
    exact ⟨heldSecurities_nodup db account asOfDate, fun s => mem_heldSecurities, heach⟩
  · rw [exists_error_iff, exists_error_iff, exists_calculateRealizedGainEvents_ok_iff, exists_calculateHoldings_ok_iff]
  · obtain ⟨t, ht, htev⟩ := bind_eq_ok.1 hev
    cases htev
    obtain ⟨m, hm, hagree⟩ := (gains_agree db account asOfDate).1 t ht
    obtain ⟨-, heach⟩ := calculateHoldings_securities h
    refine ⟨?_, ?_⟩
    · intro holding hmem
      obtain ⟨r, hr, hsnap⟩ := calculateHolding_ok_iff.1 (heach holding hmem)
      have hmr : m holding.security = r := Except.ok.inj ((hm _).symm.trans hr)
      rw [hagree.gain, hagree.gainBase, hmr, hsnap]
      exact ⟨rfl, rfl⟩
    · rw [gains_items (fun i hi => ⟨(mem_trades.1 hi).2.1, (mem_trades.1 hi).2.2.1⟩) ht, trades_sales]
      rfl

end Vault67.Investments
