/-
The weighted-average position, item by item: what holds after every prefix of the items that `_calculate_from_items`
replays. A replay of items is the replay of their trades (`replay_trades`), and that is a weighted-average replay twice
over, with native amounts and with amounts in the account's currency.

- `positions_sound`: the quantity is bought minus sold, nothing is negative, a closed position costs nothing, and the
  average lies between unit costs of the buys since the position was last closed.
-/
import Mathlib.Tactic
import Vault67.Investments.ShortSelling

namespace Vault67.Investments

open Fallible AverageCost Machine

variable {db : Db} {security : ℕ} {symbol : String} {s s' : Replay} {i : InvestmentTransaction}
  {items : List InvestmentTransaction}

/-! ## Replayed trades -/

/-- the trades of a list of items -/
def tradesOf (items : List InvestmentTransaction) : List InvestmentTransaction := items.filter fun i => isTrade i

/-- the trades that were replayed, as the weighted-average trades of both positions -/
theorem replay_positions (h : replay db security s items = .ok s') :
    (∀ i ∈ tradesOf items, Replayable db i) ∧
      s.native.replay ((tradesOf items).map nativeTrade) = some s'.native ∧
        s.base.replay ((tradesOf items).map (baseTrade db)) = some s'.base := by
  rw [replay_trades] at h
  have hreplayable := replayable_of_replay (fun i hi => of_decide_eq_true (List.mem_filter.1 hi).2) h
  exact ⟨hreplayable, replay_native hreplayable h, replay_base hreplayable h⟩

/-! ## What holds after every prefix -/

def bought (items : List InvestmentTransaction) : ℚ := ((items.filter fun i => i.transactionType = .buy).map shares).sum

def sold (items : List InvestmentTransaction) : ℚ := ((items.filter fun i => i.transactionType = .sell).map shares).sum

/-- what a buy cost per unit, in its own currency -/
def unitCost (i : InvestmentTransaction) : ℚ := acquisitionCost i / shares i

/-- what a buy cost per unit, in the account's currency -/
def unitCostBase (db : Db) (i : InvestmentTransaction) : ℚ := acquisitionCost i * accountRate db i / shares i

/-- between the smallest and the largest unit cost of the buys -/
def BetweenUnitCosts (cost : InvestmentTransaction → ℚ) (items : List InvestmentTransaction) (average : ℚ) : Prop :=
  (∃ i ∈ items, i.transactionType = .buy ∧ cost i ≤ average) ∧ ∃ i ∈ items, i.transactionType = .buy ∧ average ≤ cost i

/-- the items leave nothing of the position -/
def Closes (db : Db) (security : ℕ) (items : List InvestmentTransaction) : Prop :=
  ∃ s, replay db security .empty items = .ok s ∧ s.quantity = 0

/-- the position after the items -/
structure PositionSound (db : Db) (security : ℕ) (items : List InvestmentTransaction) (s : Replay) : Prop where
  quantity_eq : s.quantity = bought items - sold items
  quantity_nonneg : 0 ≤ s.quantity
  native_nonneg : 0 ≤ s.nativeCost
  base_nonneg : 0 ≤ s.baseCost
  closed : s.quantity = 0 → s.nativeCost = 0 ∧ s.baseCost = 0
  native_average : 0 < s.quantity → ∀ earlier since, items = earlier ++ since → Closes db security earlier →
    BetweenUnitCosts unitCost since (s.nativeCost / s.quantity)
  base_average : 0 < s.quantity → ∀ earlier since, items = earlier ++ since → Closes db security earlier →
    BetweenUnitCosts (unitCostBase db) since (s.baseCost / s.quantity)

theorem nativeTrade_signed_buy (hb : i.transactionType = .buy) : (nativeTrade i).signed = shares i := by
  rw [nativeTrade, if_pos hb, Trade.signed]

theorem nativeTrade_signed_sell (hs : i.transactionType = .sell) : (nativeTrade i).signed = -shares i := by
  rw [nativeTrade_sell hs, Trade.signed]

theorem signed_sum (items : List InvestmentTransaction) :
    (((tradesOf items).map nativeTrade).map Trade.signed).sum = bought items - sold items := by
  induction items with
  | nil => simp [tradesOf, bought, sold]
  | cons i items ih =>
    unfold tradesOf bought sold at ih ⊢
    cases htype : i.transactionType with
    | buy =>
      have htrade : isTrade i := .inl htype
      rw [List.filter_cons_of_pos (by simpa using htrade), List.filter_cons_of_pos (by simp [htype]),
        List.filter_cons_of_neg (by simp [htype])]
      simp only [List.map_cons, List.sum_cons, nativeTrade_signed_buy htype, ih]
      ring
    | sell =>
      have htrade : isTrade i := .inr htype
      rw [List.filter_cons_of_pos (by simpa using htrade), List.filter_cons_of_neg (by simp [htype]),
        List.filter_cons_of_pos (by simp [htype])]
      simp only [List.map_cons, List.sum_cons, nativeTrade_signed_sell htype, ih]
      ring
    | _ =>
      have hother : ¬isTrade i := by simp [isTrade, htype]
      rw [List.filter_cons_of_neg (by simpa using hother), List.filter_cons_of_neg (by simp [htype]),
        List.filter_cons_of_neg (by simp [htype])]
      exact ih

theorem acquisitionCost_nonneg (i : InvestmentTransaction) : 0 ≤ acquisitionCost i :=
  add_nonneg (add_nonneg i.constraints.gross_nonneg i.constraints.fees_nonneg) i.constraints.taxes_nonneg

theorem nativeTrade_valid (h : Replayable db i) : (nativeTrade i).Valid := by
  unfold nativeTrade
  split_ifs
  · exact ⟨h.shares_pos, acquisitionCost_nonneg i⟩
  · exact h.shares_pos

theorem baseTrade_valid (h : Replayable db i) (hrate : ∀ rate, rateToAccount db i = some rate → 0 < rate) :
    (baseTrade db i).Valid := by
  unfold baseTrade
  split_ifs
  · exact ⟨h.shares_pos, mul_nonneg (acquisitionCost_nonneg i) (hrate _ h.rate_eq).le⟩
  · exact h.shares_pos

theorem nativeTrade_eq_buy {q c : ℚ} (h : nativeTrade i = .buy q c) :
    i.transactionType = .buy ∧ c / q = unitCost i := by
  unfold nativeTrade at h
  split_ifs at h with hb
  cases h
  exact ⟨hb, rfl⟩

theorem baseTrade_eq_buy {q c : ℚ} (h : baseTrade db i = .buy q c) :
    i.transactionType = .buy ∧ c / q = unitCostBase db i := by
  unfold baseTrade at h
  split_ifs at h with hb
  cases h
  exact ⟨hb, rfl⟩

theorem valid_of_mem {trade : InvestmentTransaction → Trade ℚ} (h : ∀ i ∈ items, (trade i).Valid) :
    ∀ t ∈ items.map trade, t.Valid := by
  intro t ht
  obtain ⟨i, hi, rfl⟩ := List.mem_map.1 ht
  exact h i hi

/-- the average of a position, in terms of the items that opened it -/
theorem betweenUnitCosts_of_replay {trade : InvestmentTransaction → Trade ℚ} {cost : InvestmentTransaction → ℚ}
    (hbuy : ∀ i q c, trade i = .buy q c → i.transactionType = .buy ∧ c / q = cost i) {p p' : Position ℚ} (hp : p.Sound)
    (hzero : p.quantity = 0) (hvalid : ∀ i ∈ tradesOf items, (trade i).Valid)
    (h : p.replay ((tradesOf items).map trade) = some p') (hopen : 0 < p'.quantity) :
    BetweenUnitCosts cost items (p'.cost / p'.quantity) := by
  obtain ⟨⟨q, c, hlow, hle⟩, q', c', hhigh, hge⟩ := replay_average hp hzero (valid_of_mem hvalid) h hopen
  obtain ⟨i, hi, hbuyi⟩ := List.mem_map.1 hlow
  obtain ⟨j, hj, hbuyj⟩ := List.mem_map.1 hhigh
  obtain ⟨htypei, hcosti⟩ := hbuy i q c hbuyi
  obtain ⟨htypej, hcostj⟩ := hbuy j q' c' hbuyj
  exact ⟨⟨i, (List.mem_filter.1 hi).1, htypei, hcosti ▸ hle⟩, j, (List.mem_filter.1 hj).1, htypej, hcostj ▸ hge⟩

/-- the rates of the items are positive -/
def PositiveRates (db : Db) (items : List InvestmentTransaction) : Prop :=
  ∀ i ∈ items, ∀ rate, rateToAccount db i = some rate → 0 < rate

theorem replay_sound_positions (hs : s.native.Sound ∧ s.base.Sound) (h : replay db security s items = .ok s') :
    s'.native.Sound ∧ s'.base.Sound := by
  obtain ⟨hreplayable, hnative, hbase⟩ := replay_positions h
  refine ⟨?_, ?_⟩
  · refine replay_sound hs.1 (fun t ht => ?_) hnative
    obtain ⟨i, hi, rfl⟩ := List.mem_map.1 ht
    rw [nativeTrade_quantity]
    exact (hreplayable i hi).shares_pos
  · refine replay_sound hs.2 (fun t ht => ?_) hbase
    obtain ⟨i, hi, rfl⟩ := List.mem_map.1 ht
    rw [baseTrade_quantity]
    exact (hreplayable i hi).shares_pos

theorem emptyReplay_sound : Replay.empty.native.Sound ∧ Replay.empty.base.Sound :=
  ⟨Position.sound_empty, Position.sound_empty⟩

theorem positionSound (hrates : PositiveRates db items) (h : replay db security .empty items = .ok s) :
    PositionSound db security items s := by
  obtain ⟨hreplayable, hnative, hbase⟩ := replay_positions h
  have hnativeValid : ∀ i ∈ tradesOf items, (nativeTrade i).Valid := fun i hi => nativeTrade_valid (hreplayable i hi)
  have hbaseValid : ∀ i ∈ tradesOf items, (baseTrade db i).Valid := fun i hi =>
    baseTrade_valid (hreplayable i hi) (hrates i (List.mem_filter.1 hi).1)
  obtain ⟨hsound, hbaseSound⟩ := replay_sound_positions emptyReplay_sound h
  have hquantity : s.quantity = bought items - sold items := by
    have hq := replay_quantity hnative
    rw [signed_sum] at hq
    exact hq.trans (zero_add _)
  -- from a point where the position was closed on
  have hsince : ∀ earlier since, items = earlier ++ since → Closes db security earlier →
      ∃ s₀, s₀.quantity = 0 ∧ (s₀.native.Sound ∧ s₀.base.Sound) ∧ PositiveRates db since ∧
        replay db security s₀ since = .ok s := by
    intro earlier since hitems hcloses
    obtain ⟨s₀, hs₀, hzero⟩ := hcloses
    rw [hitems] at h hrates
    obtain ⟨s₁, hs₁, hrest⟩ := replay_append_ok.1 h
    cases hs₀.symm.trans hs₁
    exact ⟨s₀, hzero, replay_sound_positions emptyReplay_sound hs₀, fun i hi => hrates i (List.mem_append_right _ hi),
      hrest⟩
  constructor
  case quantity_eq => exact hquantity
  case quantity_nonneg => exact hsound.quantity_nonneg
  case native_nonneg => exact replay_cost_nonneg le_rfl (valid_of_mem hnativeValid) hnative
  case base_nonneg => exact replay_cost_nonneg le_rfl (valid_of_mem hbaseValid) hbase
  case closed => exact fun hzero => ⟨hsound.cost_zero hzero, hbaseSound.cost_zero hzero⟩
  case native_average =>
    intro hopen earlier since hitems hcloses
    obtain ⟨s₀, hzero, hs₀, -, hrest⟩ := hsince earlier since hitems hcloses
    obtain ⟨hreplayable, hreplay, -⟩ := replay_positions hrest
    have haverage : BetweenUnitCosts unitCost since (s.native.cost / s.native.quantity) :=
      betweenUnitCosts_of_replay (fun _ _ _ => nativeTrade_eq_buy) hs₀.1 hzero
        (fun i hi => nativeTrade_valid (hreplayable i hi)) hreplay hopen
    exact haverage
  case base_average =>
    intro hopen earlier since hitems hcloses
    obtain ⟨s₀, hzero, hs₀, hsinceRates, hrest⟩ := hsince earlier since hitems hcloses
    obtain ⟨hreplayable, -, hreplay⟩ := replay_positions hrest
    have haverage : BetweenUnitCosts (unitCostBase db) since (s.base.cost / s.base.quantity) :=
      betweenUnitCosts_of_replay (fun _ _ _ => baseTrade_eq_buy) hs₀.2 hzero
        (fun i hi => baseTrade_valid (hreplayable i hi) (hsinceRates i (List.mem_filter.1 hi).1)) hreplay hopen
    exact haverage

/-- **A sale that leaves something** leaves both averages as they are, the native one and the one in account currency.
-/
theorem replayItem_sell_average (hs : i.transactionType = .sell) (h : replayItem db symbol s i = .ok s')
    (hopen : 0 < s'.quantity) :
    s'.nativeCost / s'.quantity = s.nativeCost / s.quantity ∧ s'.baseCost / s'.quantity = s.baseCost / s.quantity := by
  have hreplayable := replayable_of_ok (.inr hs) h
  obtain ⟨hnative, hbase⟩ := (replayItem_ok_iff hreplayable).1 h
  rw [nativeTrade_sell hs] at hnative
  rw [baseTrade_sell hs] at hbase
  exact ⟨apply_sell_average hreplayable.shares_pos hnative hopen.ne',
    apply_sell_average hreplayable.shares_pos hbase hopen.ne'⟩

/-- **The weighted-average position.** While items are replayed, it is sound after every prefix of them, and a sale that
leaves a positive quantity leaves its averages as they are. -/
theorem positions_sound (db : Db) (security : ℕ) (items : List InvestmentTransaction) (snapshot : HoldingSnapshot)
    (hrates : PositiveRates db items) (h : calculateFromItems db security items = .ok snapshot) :
    (∀ before after, items = before ++ after →
      ∃ s, replay db security .empty before = .ok s ∧ PositionSound db security before s) ∧
    ∀ before i after, items = before ++ i :: after → i.transactionType = .sell → ∀ s s',
      replay db security .empty before = .ok s → replay db security .empty (before ++ [i]) = .ok s' → 0 < s'.quantity →
        s'.nativeCost / s'.quantity = s.nativeCost / s.quantity ∧ s'.baseCost / s'.quantity = s.baseCost / s.quantity := by
  obtain ⟨final, hfinal, -⟩ := bind_eq_ok.1 h
  refine ⟨?_, ?_⟩
  · intro before after hitems
    rw [hitems] at hfinal hrates
    obtain ⟨s, hs, -⟩ := replay_append_ok.1 hfinal
    exact ⟨s, hs, positionSound (fun i hi => hrates i (List.mem_append_left _ hi)) hs⟩
  · intro before i after hitems hsell s s' hs hs' hopen
    obtain ⟨s₁, hs₁, hsale⟩ := replay_append_ok.1 hs'
    cases hs.symm.trans hs₁
    obtain ⟨s₂, hitem, hend⟩ := replay_cons_ok.1 hsale
    cases hend
    exact replayItem_sell_average hsell hitem hopen

/-- buy 10 at 10, sell 4 of them with a fee, buy 10 more at 12 -/
def buyTwice : List InvestmentPosting :=
  [tradeAtTen .buy 10 1, { tradeAtTen .sell 4 2 with fees := 1 },
    { tradeAtTen .buy 10 3 with pricePerUnit := some 12, grossAmount := 120 }]

theorem positions_sound_buyTwice :
    let db := run createInvestmentTransaction brokerageDb buyTwice
    ∀ before after, transactions db 0 (some 0) none = before ++ after →
      ∃ s, replay db 0 .empty before = .ok s ∧ PositionSound db 0 before s := by
  intro db
  have hrates : ∀ i ∈ transactions db 0 (some 0) none, rateToAccount db i = some 1 := by decide +kernel
  have hsnapshot : calculateFromItems db 0 (transactions db 0 (some 0) none) =
      .ok ⟨0, 16, 180, 45 / 4, 1, 180, -1, -1⟩ := by
    decide +kernel
  refine (positions_sound db 0 _ _ (fun i hi rate hrate => ?_) hsnapshot).1
  cases (hrates i hi).symm.trans hrate
  exact one_pos

end Vault67.Investments
