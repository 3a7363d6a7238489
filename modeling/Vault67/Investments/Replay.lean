/-
The holdings replay, item by item and security by security.

- `InContext.calculateHoldings_ok_iff`: the grouped calculation returns one snapshot for each security with an item, the
  one `calculateHolding` returns.
- `calculateHolding_ok_iff`: only the trades of the security matter.
- `exists_calculateHoldings_ok_iff`: the calculation returns exactly when the replay of every security does.
- `replay_native`, `replay_base`: a replay that returns is the weighted-average replay of its trades, once with native
  amounts and once with amounts in the account's currency.
- `exists_replay_ok_iff`: with positive quantities and rates, a replay returns exactly when no sale exceeds what is held.
-/
import Mathlib.Tactic
import Vault67.Investments.Holdings
import Vault67.Investments.InContext
import Vault67.Lib.AverageCost
import Vault67.Lib.Fallible
import Vault67.Lib.Rows

namespace Vault67.Investments

open OrderBy Fallible AverageCost

variable {db : Db} {account : ℕ} {asOfDate : Option Date}

/-! ## Securities -/

/-- the securities with at least one item, as `calculate_holdings` orders them -/
def heldSecurities (db : Db) (account : ℕ) (asOfDate : Option Date) : List ℕ :=
  orderBy (fun s => (db.security s).symbol) (groupKeys (transactions db account none asOfDate))

theorem heldSecurities_nodup (db : Db) (account : ℕ) (asOfDate : Option Date) :
    (heldSecurities db account asOfDate).Nodup := (orderBy_perm _ _).nodup_iff.2 (distinct_nodup _)

theorem tradeDate_le_of_key_le {a b : InvestmentTransaction} (h : replayKey a ≤ replayKey b) :
    a.tradeDate ≤ b.tradeDate := Prod.Lex.monotone_fst _ _ h

theorem mem_transactions {security : Option ℕ} {i : InvestmentTransaction} :
    i ∈ transactions db account security asOfDate ↔
      i ∈ db.investments ∧ i.account = account ∧ (∀ s ∈ security, i.security = s) ∧ onOrBefore asOfDate i := by
  simp only [transactions, mem_orderBy, List.mem_filter, decide_eq_true_eq]

theorem mem_heldSecurities {s : ℕ} :
    s ∈ heldSecurities db account asOfDate ↔
      ∃ i ∈ db.investments, i.account = account ∧ i.security = s ∧ onOrBefore asOfDate i := by
  simp only [heldSecurities, groupKeys, mem_orderBy, mem_distinct, List.mem_map, mem_transactions]
  refine ⟨?_, ?_⟩
  · intro h
    obtain ⟨i, ⟨hi, ha, -, hd⟩, hs⟩ := h
    exact ⟨i, hi, ha, hs, hd⟩
  · intro h
    obtain ⟨i, hi, ha, hs, hd⟩ := h
    exact ⟨i, ⟨hi, ha, by simp, hd⟩, hs⟩

/-- the group of a security is what `calculateHolding` selects -/
theorem transactions_filter_security (db : Db) (account : ℕ) (asOfDate : Option Date) (s : ℕ) :
    (transactions db account none asOfDate).filter (fun i => decide (i.security = s)) =
      transactions db account (some s) asOfDate := by
  rw [transactions, filter_orderBy, List.filter_filter, transactions]
  refine congrArg _ (List.filter_congr fun i _ => ?_)
  rw [← Bool.decide_and]
  congr 1
  simp only [Option.mem_def, reduceCtorEq, false_implies, implies_true, true_and, Option.some.injEq, forall_eq']
  exact propext and_left_comm

/-- leaving out closed positions does not change whether the calculation returns -/
theorem exists_calculateHoldings_ok (includeClosed : Bool) {hs : List HoldingSnapshot}
    (h : calculateHoldings db account asOfDate true = .ok hs) :
    ∃ hs, calculateHoldings db account asOfDate includeClosed = .ok hs := by
  obtain ⟨snapshots, hsnapshots, -⟩ := bind_eq_ok.1 h
  exact ⟨_, bind_eq_ok.2 ⟨snapshots, hsnapshots, rfl⟩⟩

/-! ## Trades -/

/-- the trades of one security -/
def securityTrades (db : Db) (account security : ℕ) (asOfDate : Option Date) : List InvestmentTransaction :=
  (transactions db account (some security) asOfDate).filter fun i => isTrade i

theorem mem_securityTrades {s : ℕ} {i : InvestmentTransaction} :
    i ∈ securityTrades db account s asOfDate ↔
      i ∈ db.investments ∧ i.account = account ∧ i.security = s ∧ onOrBefore asOfDate i ∧ isTrade i := by
  simp only [securityTrades, List.mem_filter, mem_transactions, decide_eq_true_eq, Option.mem_def, Option.some.injEq,
    forall_eq', and_assoc]

theorem securityTrades_eq_nil {s : ℕ} (hs : s ∉ heldSecurities db account asOfDate) :
    securityTrades db account s asOfDate = [] := by
  refine List.eq_nil_iff_forall_not_mem.2 fun i hi => hs (mem_heldSecurities.2 ?_)
  obtain ⟨hi, ha, hsec, hdate, -⟩ := mem_securityTrades.1 hi
  exact ⟨i, hi, ha, hsec, hdate⟩

/-! ## In a decimal context -/

namespace InContext

section Replays

variable {round : ℚ → ℚ} {security : ℕ} {hs : List HoldingSnapshot}

theorem replayItem_of_not_trade (symbol : String) (s : Replay) {i : InvestmentTransaction} (h : ¬isTrade i) :
    replayItem round db symbol s i = .ok s := by
  unfold isTrade at h
  unfold replayItem
  split
  · exact absurd (.inl ‹_›) h
  · exact absurd (.inr ‹_›) h
  · rfl

theorem replay_trades (s : Replay) (items : List InvestmentTransaction) :
    replay round db security s items = replay round db security s (items.filter fun i => isTrade i) :=
  foldlM_filter (p := fun i => decide (isTrade i)) (fun s _ h => replayItem_of_not_trade _ s (of_decide_eq_false h)) s items

theorem calculateHolding_ok_iff {h : HoldingSnapshot} :
    calculateHolding round db account security asOfDate = .ok h ↔
      ∃ r, replay round db security .empty (securityTrades db account security asOfDate) = .ok r ∧
        h = snapshot round db security r := by
  rw [calculateHolding, calculateFromItems, bind_eq_ok, replay_trades, ← securityTrades]
  simp only [Except.ok.injEq, eq_comm]

theorem calculateHoldings_ok_iff :
    calculateHoldings round db account asOfDate true = .ok hs ↔
      List.Forall₂ (fun s h => calculateHolding round db account s asOfDate = .ok h)
        (heldSecurities db account asOfDate) hs := by
  simp only [calculateHoldings, bind_eq_ok, mapM_ok_iff, transactions_filter_security, if_true, Except.ok.injEq,
    exists_eq_right]
  rfl

/-- each snapshot is the one of its security, in the order of the securities -/
theorem calculateHoldings_securities (h : calculateHoldings round db account asOfDate true = .ok hs) :
    hs.map HoldingSnapshot.security = heldSecurities db account asOfDate ∧
      ∀ h ∈ hs, calculateHolding round db account h.security asOfDate = .ok h := by
  refine Rows.forall₂_key HoldingSnapshot.security (fun s h hh => ?_) (calculateHoldings_ok_iff.1 h)
  obtain ⟨r, -, rfl⟩ := calculateHolding_ok_iff.1 hh
  rfl

theorem exists_calculateHolding_ok_iff :
    (∃ h, calculateHolding round db account security asOfDate = .ok h) ↔
      ∃ r, replay round db security .empty (securityTrades db account security asOfDate) = .ok r := by
  refine ⟨?_, ?_⟩
  · intro hholding
    obtain ⟨h, hh⟩ := hholding
    obtain ⟨r, hr, -⟩ := calculateHolding_ok_iff.1 hh
    exact ⟨r, hr⟩
  · intro hreplay
    obtain ⟨r, hr⟩ := hreplay
    exact ⟨_, calculateHolding_ok_iff.2 ⟨r, hr, rfl⟩⟩

/-- `calculate_holdings` returns exactly when the replay of every security does -/
theorem exists_calculateHoldings_ok_iff :
    (∃ hs, calculateHoldings round db account asOfDate true = .ok hs) ↔
      ∀ s, ∃ r, replay round db s .empty (securityTrades db account s asOfDate) = .ok r := by
  have hmapM : (∃ hs, calculateHoldings round db account asOfDate true = .ok hs) ↔
      ∀ s ∈ heldSecurities db account asOfDate, ∃ h, calculateHolding round db account s asOfDate = .ok h := by
    simp only [calculateHoldings_ok_iff, ← mapM_ok_iff, exists_mapM_ok_iff]
  rw [hmapM]
  simp only [exists_calculateHolding_ok_iff]
  refine ⟨fun h s => ?_, fun h s _ => h s⟩
  by_cases hs : s ∈ heldSecurities db account asOfDate
  · exact h s hs
  · -- a security without items is replayed over nothing
    rw [securityTrades_eq_nil hs]
    exact ⟨.empty, rfl⟩

end Replays

end InContext

/-! ## In exact arithmetic -/

theorem replay_trades (db : Db) (security : ℕ) (s : Replay) (items : List InvestmentTransaction) :
    replay db security s items = replay db security s (items.filter fun i => isTrade i) :=
  @InContext.replay_trades db id security s items

theorem calculateHolding_ok_iff {s : ℕ} {h : HoldingSnapshot} :
    calculateHolding db account s asOfDate = .ok h ↔
      ∃ r, replay db s .empty (securityTrades db account s asOfDate) = .ok r ∧ h = snapshot db s r :=
  @InContext.calculateHolding_ok_iff db account asOfDate id s h

theorem calculateHoldings_securities {hs : List HoldingSnapshot} (h : calculateHoldings db account asOfDate true = .ok hs) :
    hs.map HoldingSnapshot.security = heldSecurities db account asOfDate ∧
      ∀ h ∈ hs, calculateHolding db account h.security asOfDate = .ok h :=
  @InContext.calculateHoldings_securities db account asOfDate id hs h

theorem exists_calculateHolding_ok_iff {s : ℕ} :
    (∃ h, calculateHolding db account s asOfDate = .ok h) ↔
      ∃ r, replay db s .empty (securityTrades db account s asOfDate) = .ok r :=
  @InContext.exists_calculateHolding_ok_iff db account asOfDate id s

theorem exists_calculateHoldings_ok_iff :
    (∃ hs, calculateHoldings db account asOfDate true = .ok hs) ↔
      ∀ s, ∃ r, replay db s .empty (securityTrades db account s asOfDate) = .ok r :=
  @InContext.exists_calculateHoldings_ok_iff db account asOfDate id

/-! ## The trades of the gain pass -/

/-- the trades of `calculate_realized_gain_events`, security by security -/
theorem trades_filter_security (db : Db) (account : ℕ) (asOfDate : Option Date) (s : ℕ) :
    (trades db account asOfDate).filter (fun i => decide (i.security = s)) = securityTrades db account s asOfDate := by
  rw [trades, filter_orderBy, List.filter_filter, securityTrades, transactions, filter_orderBy, List.filter_filter]
  refine congrArg _ (List.filter_congr fun i _ => ?_)
  simp only [← Bool.decide_and, Option.mem_def, Option.some.injEq, forall_eq']
  congr 1
  exact propext (by tauto)

/-- the sales of the pass are the sales of the account, in the same order -/
theorem trades_sales (db : Db) (account : ℕ) (asOfDate : Option Date) :
    (trades db account asOfDate).filter (fun i => decide (i.transactionType = .sell)) =
      (transactions db account none asOfDate).filter (fun i => decide (i.transactionType = .sell)) := by
  rw [trades, filter_orderBy, List.filter_filter, transactions, filter_orderBy, List.filter_filter]
  refine congrArg _ (List.filter_congr fun i _ => ?_)
  by_cases hs : i.transactionType = .sell
  · simp [hs, isTrade]
  · simp [hs]

theorem mem_trades {i : InvestmentTransaction} :
    i ∈ trades db account asOfDate ↔ i ∈ db.investments ∧ i.account = account ∧ isTrade i ∧ onOrBefore asOfDate i := by
  simp only [trades, mem_orderBy, List.mem_filter, decide_eq_true_eq]

/-! ## The replay is a weighted-average replay -/

/-- what a replay needs of a trade -/
structure Replayable (db : Db) (i : InvestmentTransaction) : Prop where
  trade : isTrade i
  quantity : ∃ q, i.quantity = some q ∧ 0 < q
  rate : ∃ rate, rateToAccount db i = some rate

def shares (i : InvestmentTransaction) : ℚ := i.quantity.getD 0

def accountRate (db : Db) (i : InvestmentTransaction) : ℚ := (rateToAccount db i).getD 0

/-- the trade in its own currency -/
def nativeTrade (i : InvestmentTransaction) : Trade ℚ :=
  if i.transactionType = .buy then .buy (shares i) (acquisitionCost i) else .sell (shares i) (netProceeds i)

/-- the trade in the account's currency -/
def baseTrade (db : Db) (i : InvestmentTransaction) : Trade ℚ :=
  if i.transactionType = .buy then .buy (shares i) (acquisitionCost i * accountRate db i)
  else .sell (shares i) (netProceeds i * accountRate db i)

def Replay.native (s : Replay) : Position ℚ := ⟨s.quantity, s.nativeCost, s.realized⟩

def Replay.base (s : Replay) : Position ℚ := ⟨s.quantity, s.baseCost, s.realizedBase⟩

theorem Replayable.quantity_eq {i : InvestmentTransaction} (h : Replayable db i) : i.quantity = some (shares i) := by
  obtain ⟨q, hq, -⟩ := h.quantity
  rw [shares, hq]
  rfl

theorem Replayable.rate_eq {i : InvestmentTransaction} (h : Replayable db i) :
    rateToAccount db i = some (accountRate db i) := by
  obtain ⟨r, hr⟩ := h.rate
  rw [accountRate, hr]
  rfl

theorem Replayable.shares_pos {i : InvestmentTransaction} (h : Replayable db i) : 0 < shares i := by
  obtain ⟨q, hq, hpos⟩ := h.quantity
  rw [shares, hq]
  exact hpos

@[simp] theorem nativeTrade_quantity (i : InvestmentTransaction) : (nativeTrade i).quantity = shares i := by
  unfold nativeTrade
  split_ifs <;> rfl

@[simp] theorem baseTrade_quantity (i : InvestmentTransaction) : (baseTrade db i).quantity = shares i := by
  unfold baseTrade
  split_ifs <;> rfl

/-- the two trades change the quantity held in the same way -/
theorem baseTrade_signed (i : InvestmentTransaction) : (baseTrade db i).signed = (nativeTrade i).signed := by
  unfold baseTrade nativeTrade
  split_ifs <;> rfl

variable {symbol : String} {s s' : Replay} {i : InvestmentTransaction}

theorem replayItem_buy (h : Replayable db i) (hb : i.transactionType = .buy) :
    replayItem db symbol s i = .ok { s with
      quantity := s.quantity + shares i
      nativeCost := s.nativeCost + acquisitionCost i
      baseCost := s.baseCost + acquisitionCost i * accountRate db i } := by
  rw [replayItem, hb, h.quantity_eq, h.rate_eq]
  rfl

theorem replayItem_sell (h : Replayable db i) (hs : i.transactionType = .sell) :
    replayItem db symbol s i =
      if s.quantity < shares i then .error (.message (.historicalOversell symbol (shares i) s.quantity))
      else if s.quantity = 0 then .error .decimal
      else .ok {
        quantity := s.quantity - shares i
        nativeCost := if s.quantity - shares i = 0 then 0 else s.nativeCost - s.nativeCost / s.quantity * shares i
        baseCost := if s.quantity - shares i = 0 then 0 else s.baseCost - s.baseCost / s.quantity * shares i
        realized := s.realized + (netProceeds i - s.nativeCost / s.quantity * shares i)
        realizedBase :=
          s.realizedBase + (netProceeds i * accountRate db i - s.baseCost / s.quantity * shares i) } := by
  rw [replayItem, hs, h.quantity_eq, h.rate_eq]
  rfl

theorem nativeTrade_sell (hs : i.transactionType = .sell) : nativeTrade i = .sell (shares i) (netProceeds i) :=
  if_neg (by rw [hs]; decide)

theorem baseTrade_sell (hs : i.transactionType = .sell) :
    baseTrade db i = .sell (shares i) (netProceeds i * accountRate db i) := if_neg (by rw [hs]; decide)

/-- **One item.** It is replayed exactly when both weighted-average positions take the trade, the one in its own
currency and the one in account currency. -/
theorem replayItem_ok_iff (h : Replayable db i) :
    replayItem db symbol s i = .ok s' ↔
      s.native.apply (nativeTrade i) = some s'.native ∧ s.base.apply (baseTrade db i) = some s'.base := by
  rcases h.trade with hb | hs
  · rw [replayItem_buy h hb, nativeTrade, if_pos hb, baseTrade, if_pos hb]
    cases s'
    simp only [Position.apply, Replay.native, Replay.base, Except.ok.injEq, Option.some.injEq, Replay.mk.injEq,
      Position.mk.injEq]
    tauto
  · rw [replayItem_sell h hs, nativeTrade_sell hs, baseTrade_sell hs]
    by_cases hlt : s.quantity < shares i
    · rw [if_pos hlt, apply_sell_of_lt (show s.native.quantity < shares i from hlt)]
      simp
    · have hle : shares i ≤ s.quantity := not_lt.1 hlt
      rw [if_neg hlt, if_neg (h.shares_pos.trans_le hle).ne',
        apply_sell_of_le (show shares i ≤ s.native.quantity from hle),
        apply_sell_of_le (show shares i ≤ s.base.quantity from hle)]
      cases s'
      simp only [Replay.native, Replay.base, Except.ok.injEq, Option.some.injEq, Replay.mk.injEq, Position.mk.injEq]
      tauto

/-- the positions hold the same quantity, so one takes the trade when the other does -/
theorem exists_replayItem_ok_iff (symbol : String) (h : Replayable db i) :
    (∃ s', replayItem db symbol s i = .ok s') ↔ ∃ p, s.native.apply (nativeTrade i) = some p := by
  refine ⟨?_, ?_⟩
  · intro hitem
    obtain ⟨s', hs'⟩ := hitem
    exact ⟨_, ((replayItem_ok_iff h).1 hs').1⟩
  · intro htrade
    obtain ⟨p, hp⟩ := htrade
    obtain ⟨p', hp'⟩ : ∃ p', s.base.apply (baseTrade db i) = some p' := by
      have hcover := apply_isSome_iff.1 ⟨p, hp⟩
      apply apply_isSome_iff.2
      intro q r e
      rcases h.trade with hb | hs
      · simp [baseTrade, hb] at e
      · rw [baseTrade_sell hs] at e
        cases e
        exact hcover _ _ (nativeTrade_sell hs)
    have hq : p'.quantity = p.quantity := by
      rw [apply_quantity hp, apply_quantity hp', baseTrade_signed]
      rfl
    refine ⟨⟨p.quantity, p.cost, p'.cost, p.realized, p'.realized⟩, (replayItem_ok_iff h).2 ⟨hp, ?_⟩⟩
    rw [hp', Replay.base, ← hq]

variable {security : ℕ} {items : List InvestmentTransaction}

theorem replay_cons_ok :
    replay db security s (i :: items) = .ok s' ↔
      ∃ s₁, replayItem db (db.security security).symbol s i = .ok s₁ ∧ replay db security s₁ items = .ok s' :=
  foldlM_cons_ok

/-- a trade that was replayed has a quantity and a rate -/
theorem replayable_of_ok (htrade : isTrade i) (h : replayItem db symbol s i = .ok s') : Replayable db i := by
  have hpos : ∀ q, i.quantity = some q → 0 < q := fun q hq => i.constraints.quantity_pos q hq
  rcases htrade with hb | hs
  · simp only [replayItem, hb, bind_eq_ok, notNone_eq_ok] at h
    obtain ⟨q, hq, rate, hrate, -⟩ := h
    exact ⟨.inl hb, ⟨q, hq, hpos q hq⟩, rate, hrate⟩
  · simp only [replayItem, hs, bind_eq_ok, notNone_eq_ok, ite_error_eq_ok] at h
    obtain ⟨q, hq, -, -, rate, hrate, -⟩ := h
    exact ⟨.inr hs, ⟨q, hq, hpos q hq⟩, rate, hrate⟩

theorem replayable_of_replay (htrades : ∀ i ∈ items, isTrade i) (h : replay db security s items = .ok s') :
    ∀ i ∈ items, Replayable db i := by
  induction items generalizing s with
  | nil => simp
  | cons i items ih =>
    obtain ⟨s₁, h1, h2⟩ := replay_cons_ok.1 h
    intro j hj
    rcases List.mem_cons.1 hj with rfl | hj
    · exact replayable_of_ok (htrades j List.mem_cons_self) h1
    · exact ih (fun k hk => htrades k (List.mem_cons_of_mem i hk)) h2 j hj

theorem replay_append_ok {before after : List InvestmentTransaction} :
    replay db security s (before ++ after) = .ok s' ↔
      ∃ s₁, replay db security s before = .ok s₁ ∧ replay db security s₁ after = .ok s' :=
  foldlM_append_ok

theorem replay_native (hitems : ∀ i ∈ items, Replayable db i) (h : replay db security s items = .ok s') :
    s.native.replay (items.map nativeTrade) = some s'.native := by
  induction items generalizing s with
  | nil => cases h; rfl
  | cons i items ih =>
    obtain ⟨s₁, h1, h2⟩ := replay_cons_ok.1 h
    exact replay_cons.2 ⟨s₁.native, ((replayItem_ok_iff (hitems i List.mem_cons_self)).1 h1).1,
      ih (fun j hj => hitems j (List.mem_cons_of_mem i hj)) h2⟩

theorem replay_base (hitems : ∀ i ∈ items, Replayable db i) (h : replay db security s items = .ok s') :
    s.base.replay (items.map (baseTrade db)) = some s'.base := by
  induction items generalizing s with
  | nil => cases h; rfl
  | cons i items ih =>
    obtain ⟨s₁, h1, h2⟩ := replay_cons_ok.1 h
    exact replay_cons.2 ⟨s₁.base, ((replayItem_ok_iff (hitems i List.mem_cons_self)).1 h1).2,
      ih (fun j hj => hitems j (List.mem_cons_of_mem i hj)) h2⟩

/-- the positions take every trade exactly when the replay takes every item -/
theorem exists_replay_native_iff (hitems : ∀ i ∈ items, Replayable db i) :
    (∃ s', replay db security s items = .ok s') ↔ ∃ p, s.native.replay (items.map nativeTrade) = some p := by
  refine ⟨?_, ?_⟩
  · intro hreplay
    obtain ⟨s', h⟩ := hreplay
    exact ⟨s'.native, replay_native hitems h⟩
  · intro hnative
    obtain ⟨p, hp⟩ := hnative
    induction items generalizing s with
    | nil => exact ⟨s, rfl⟩
    | cons i items ih =>
      have hi := hitems i List.mem_cons_self
      obtain ⟨p₁, h1, h2⟩ := replay_cons.1 hp
      obtain ⟨s₁, hs₁⟩ := (exists_replayItem_ok_iff (db.security security).symbol hi).2 ⟨p₁, h1⟩
      have hnative : s₁.native = p₁ := Option.some.inj (((replayItem_ok_iff hi).1 hs₁).1.symm.trans h1)
      rw [← hnative] at h2
      obtain ⟨s', hs'⟩ := ih (fun j hj => hitems j (List.mem_cons_of_mem i hj)) h2
      exact ⟨s', replay_cons_ok.2 ⟨s₁, hs₁, hs'⟩⟩

/-- **A replay returns exactly when no sale exceeds the quantity held before it**, whatever the amounts and the rates
are. -/
theorem exists_replay_ok_iff (hitems : ∀ i ∈ items, Replayable db i) :
    (∃ s', replay db security s items = .ok s') ↔ Covered s.quantity (items.map nativeTrade) := by
  rw [exists_replay_native_iff hitems, replay_isSome_iff]
  rfl

end Vault67.Investments
