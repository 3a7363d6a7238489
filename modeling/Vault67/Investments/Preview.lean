/-
`calculate_realized_gain`: the preview of a sale, against the sale once it is posted.

The preview takes the average cost from the snapshot of all trades. A sale dated on or after them comes last in the
history of its security, so its own replay and the interleaved pass both meet it at that average.

- `preview_accepts_iff`: the preview and the holding check of the posting accept the same quantities.
- `posted_holding`, `posted_event`: what the replays say about the sale once it is posted.
- `preview_eq_posted`: the whole comparison.
-/
import Mathlib.Tactic
import Vault67.Investments.InContext
import Vault67.Investments.ShortSelling
import Vault67.Ledger.Currency

namespace Vault67.Investments

open Fallible Ledger Machine

structure RealizedGainResult where
  netProceeds : ℚ
  allocatedCostBasis : ℚ
  gain : ℚ
deriving DecidableEq, Repr

/-- `calculate_realized_gain` -/
def calculateRealizedGain (db : Db) (account security : ℕ) (quantity grossProceeds fees taxes : ℚ) :
    Except Error RealizedGainResult := do
  let holding ← calculateHolding db account security none
  if quantity ≤ 0 then .error (.message (.text "Quantity must be positive."))
  else if holding.quantity < quantity then .error (.message (.insufficientHoldings (some quantity) holding.quantity))
  else
    let allocated := holding.averageCost * quantity
    let net := grossProceeds - fees - taxes
    .ok ⟨net, allocated, net - allocated⟩

/-- `calculate_realized_gain` in a decimal context -/
def InContext.calculateRealizedGain (round : ℚ → ℚ) (db : Db) (account security : ℕ)
    (quantity grossProceeds fees taxes : ℚ) : Except Error RealizedGainResult := do
  let holding ← InContext.calculateHolding round db account security none
  if quantity ≤ 0 then .error (.message (.text "Quantity must be positive."))
  else if holding.quantity < quantity then .error (.message (.insufficientHoldings (some quantity) holding.quantity))
  else
    let allocated := round (holding.averageCost * quantity)
    let net := round (round (grossProceeds - fees) - taxes)
    .ok ⟨net, allocated, round (net - allocated)⟩

theorem InContext.calculateRealizedGain_exact : InContext.calculateRealizedGain id = Investments.calculateRealizedGain :=
  rfl

variable {db db' : Db} {p : InvestmentPosting} {q : ℚ} {i : InvestmentTransaction} {e : TransactionEntry}
  {account security : ℕ} {asOfDate : Option Date}

/-! ## A sale that comes last -/

/-- no trade of the security is dated after the day -/
def NoTradeAfter (db : Db) (account security : ℕ) (date : Date) : Prop :=
  ∀ i ∈ db.investments, i.account = account → i.security = security → isTrade i → i.tradeDate ≤ date

/-- the next primary key is above those of all stored details -/
def FreshPk (db : Db) : Prop := ∀ i ∈ db.investments, i.transaction.pk < db.nextTransaction

/-- primary keys are handed out in order -/
theorem run_freshPk (currencyCode : ℕ → String) (securities : ℕ → Security) (ops : List Op) :
    FreshPk (run step (Db.init currencyCode securities) ops) := by
  have hrun := run_integrity (init_integrity currencyCode securities) ops
  exact fun i hi => hrun.transaction_lt _ (hrun.detail_transaction i hi)

theorem securityTrades_of_onOrBefore (h : ∀ i ∈ tradeRows db account security, onOrBefore asOfDate i) :
    securityTrades db account security asOfDate = securityTrades db account security none := by
  rw [securityTrades_eq, securityTrades_none, List.filter_eq_self.2 fun i hi => decide_eq_true (h i hi)]

theorem NoTradeAfter.onOrBefore {date : Date} (h : NoTradeAfter db account security date) (hdate : ∀ d ∈ asOfDate, date ≤ d)
    {i : InvestmentTransaction} (hi : i ∈ tradeRows db account security) : onOrBefore asOfDate i := by
  obtain ⟨hmem, ha, hs, htrade⟩ := mem_tradeRows.1 hi
  exact fun d hd => (h i hmem ha hs htrade).trans (hdate d hd)

/-- **A posted sale comes last**, up to every date on or after its own, when no trade of its security is dated later. -/
theorem securityTrades_post_last (hfresh : FreshPk db) (hp : Posted db i e) (hi : isTrade i)
    (hlast : NoTradeAfter db i.account i.security i.tradeDate) (hdate : ∀ d ∈ asOfDate, i.tradeDate ≤ d) :
    securityTrades (db.post i.transaction [e] [i]) i.account i.security asOfDate =
      securityTrades db i.account i.security none ++ [i] := by
  have hlater : laterTrades db i = [] := by
    have hnone : (tradeRows db i.account i.security).filter (fun j => !decide (onOrBefore (some i.tradeDate) j)) = [] := by
      apply List.filter_eq_nil_iff.2
      intro j hj
      have hj : onOrBefore (some i.tradeDate) j := hlast.onOrBefore (by simp) hj
      simpa using hj
    rw [laterTrades, hnone, OrderBy.orderBy_nil]
  have hbefore : securityTrades db i.account i.security (some i.tradeDate) =
      securityTrades db i.account i.security none :=
    securityTrades_of_onOrBefore fun j hj => hlast.onOrBefore (by simp) hj
  have hall : ∀ j ∈ tradeRows (db.post i.transaction [e] [i]) i.account i.security, onOrBefore asOfDate j := by
    intro j hj
    rw [tradeRows_post, if_pos ⟨rfl, rfl, hi⟩] at hj
    rcases List.mem_append.1 hj with hj | hj
    · exact hlast.onOrBefore hdate hj
    · rw [List.mem_singleton.1 hj]
      exact hdate
  rw [securityTrades_of_onOrBefore hall, securityTrades_post hfresh hp hi, hlater, hbefore]

/-! ## The two acceptance checks -/

theorem calculateRealizedGain_ok_iff {gross fees taxes : ℚ} {result : RealizedGainResult} :
    calculateRealizedGain db account security q gross fees taxes = .ok result ↔
      ∃ holding, calculateHolding db account security none = .ok holding ∧ 0 < q ∧ q ≤ holding.quantity ∧
        (⟨gross - fees - taxes, holding.averageCost * q, gross - fees - taxes - holding.averageCost * q⟩ :
          RealizedGainResult) = result := by
  simp only [calculateRealizedGain, bind_eq_ok, ite_error_eq_ok, not_le, not_lt, Except.ok.injEq]

theorem checkHolding_ok_iff (hsale : p.transactionType = .sell) (hq : p.quantity = some q) :
    checkHolding db p = .ok () ↔
      ∃ holding, calculateHolding db p.account p.security (some p.tradeDate) = .ok holding ∧ q ≤ holding.quantity := by
  simp only [checkHolding, if_pos hsale, calculateHoldingQuantity, bind_eq_ok, ite_error_eq_ok, hq, Option.mem_def,
    Option.some.injEq, forall_eq', not_lt, and_true]
  refine ⟨?_, ?_⟩
  · intro h
    obtain ⟨held, ⟨holding, hholding, heq⟩, hle⟩ := h
    cases heq
    exact ⟨holding, hholding, hle⟩
  · intro h
    obtain ⟨holding, hholding, hle⟩ := h
    exact ⟨_, ⟨holding, hholding, rfl⟩, hle⟩

/-- **Acceptance.** For a sale dated on or after every trade, the preview and the holding check agree. -/
theorem preview_accepts_iff (hsale : p.transactionType = .sell) (hq : p.quantity = some q)
    (hlast : NoTradeAfter db p.account p.security p.tradeDate) :
    (∃ result, calculateRealizedGain db p.account p.security q p.grossAmount p.fees p.taxes = .ok result) ↔
      0 < q ∧ checkHolding db p = .ok () := by
  have hbefore : securityTrades db p.account p.security (some p.tradeDate) =
      securityTrades db p.account p.security none :=
    securityTrades_of_onOrBefore fun j hj => hlast.onOrBefore (by simp) hj
  simp only [checkHolding_ok_iff hsale hq, calculateRealizedGain_ok_iff, calculateHolding_ok_iff, hbefore]
  refine ⟨?_, ?_⟩
  · intro h
    obtain ⟨result, holding, hholding, hpos, hle, -⟩ := h
    exact ⟨hpos, holding, hholding, hle⟩
  · intro h
    obtain ⟨hpos, holding, hholding, hle⟩ := h
    exact ⟨_, holding, hholding, hpos, hle, rfl⟩

/-! ## The posted sale -/

/-- a sale i of q shares, last in the history of its security, whose trades are replayed to r -/
structure SoldLast (db : Db) (i : InvestmentTransaction) (e : TransactionEntry) (q : ℚ) (r : Replay) : Prop where
  posted : Posted db i e
  sale : i.transactionType = .sell
  quantity : i.quantity = some q
  quantity_pos : 0 < q
  fresh : FreshPk db
  last : NoTradeAfter db i.account i.security i.tradeDate
  replayed : replay db i.security .empty (securityTrades db i.account i.security none) = .ok r
  held : q ≤ r.quantity

variable {r : Replay}

theorem SoldLast.replay_last (h : SoldLast db i e q r) (hdate : ∀ d ∈ asOfDate, i.tradeDate ≤ d) :
    ∃ r', replay (db.post i.transaction [e] [i]) i.security .empty
        (securityTrades (db.post i.transaction [e] [i]) i.account i.security asOfDate) = .ok r' ∧
      r'.realized = r.realized + (netProceeds i - r.nativeCost / r.quantity * q) := by
  obtain ⟨rate, hrate, -⟩ := h.posted.cash
  have hne : r.quantity ≠ 0 := (h.quantity_pos.trans_le h.held).ne'
  rw [securityTrades_post_last h.fresh h.posted (.inr h.sale) h.last hdate]
  obtain ⟨r', hr', hrealized⟩ : ∃ r', replayItem db (db.security i.security).symbol r i = .ok r' ∧
      r'.realized = r.realized + (netProceeds i - r.nativeCost / r.quantity * q) :=
    ⟨_, (ownItem_sell_ok h.sale).2 ⟨q, h.quantity, not_lt.2 h.held, hne, rate, hrate, rfl⟩, rfl⟩
  refine ⟨r', ?_, hrealized⟩
  exact replay_append_ok.2 ⟨r, h.replayed, replay_cons_ok.2 ⟨r', hr', rfl⟩⟩

/-- **The holding** gains what the sale brought above its cost: its net proceeds less the average cost of the shares
sold. -/
theorem SoldLast.holding (h : SoldLast db i e q r) :
    ∃ holding, calculateHolding (db.post i.transaction [e] [i]) i.account i.security none = .ok holding ∧
      holding.realizedGain = r.realized + (netProceeds i - r.nativeCost / r.quantity * q) := by
  have hnone : ∀ d ∈ (none : Option Date), i.tradeDate ≤ d := by simp
  obtain ⟨r', hr', hrealized⟩ := h.replay_last hnone
  exact ⟨_, calculateHolding_ok_iff.2 ⟨r', hr', rfl⟩, hrealized⟩

theorem securityTrades_post_security (hne : security ≠ i.security) :
    securityTrades (db.post i.transaction [e] [i]) account security asOfDate =
      securityTrades db account security asOfDate := by
  rw [securityTrades_eq, tradeRows_post, if_neg fun hc => hne hc.2.1.symm, ← securityTrades_eq]

/-- the pass of the posted database, around the sale -/
theorem SoldLast.trades_split (h : SoldLast db i e q r) (hdate : ∀ d ∈ asOfDate, i.tradeDate ≤ d) :
    ∃ before after, trades (db.post i.transaction [e] [i]) i.account asOfDate = before ++ i :: after ∧
      i ∉ before ∧ i ∉ after ∧
        before.filter (fun j => decide (j.security = i.security)) = securityTrades db i.account i.security none := by
  have hmem : i ∈ trades (db.post i.transaction [e] [i]) i.account asOfDate :=
    mem_trades.2 ⟨List.mem_append_right _ (List.mem_singleton_self i), rfl, .inr h.sale, hdate⟩
  obtain ⟨before, after, hsplit⟩ := List.append_of_mem hmem
  -- all rows but the new one were there before
  have hperm : (before ++ after).Perm
      (db.investments.filter fun j => j.account = i.account ∧ isTrade j ∧ onOrBefore asOfDate j) := by
    have hall : (before ++ i :: after).Perm
        ((db.investments ++ [i]).filter fun j => j.account = i.account ∧ isTrade j ∧ onOrBefore asOfDate j) := by
      rw [← hsplit]
      exact OrderBy.orderBy_perm _ _
    rw [List.filter_append, List.filter_cons_of_pos (by simpa using ⟨.inr h.sale, hdate⟩), List.filter_nil] at hall
    exact ((List.perm_middle.symm.trans hall).trans (List.perm_append_singleton _ _)).cons_inv
  have hnew : i ∉ before ++ after := by
    intro hi
    have hold := h.fresh i (List.mem_filter.1 (hperm.subset hi)).1
    rw [h.posted.pk] at hold
    exact lt_irrefl _ hold
  obtain ⟨hbefore, hafter⟩ := not_or.1 (mt List.mem_append.2 hnew)
  refine ⟨before, after, hsplit, hbefore, hafter, ?_⟩
  have hgroup := trades_filter_security (db.post i.transaction [e] [i]) i.account asOfDate i.security
  rw [hsplit, List.filter_append, List.filter_cons_of_pos (by simp),
    securityTrades_post_last h.fresh h.posted (.inr h.sale) h.last hdate] at hgroup
  have hnot : ∀ l : List InvestmentTransaction, i ∉ l → i ∉ l.filter fun j => decide (j.security = i.security) :=
    fun l hl hi => hl (List.mem_filter.1 hi).1
  exact ((List.append_cons_inj_of_notMem (hnot before hbefore) (hnot after hafter)).1 hgroup).1

/-- **The event** of the sale, and no other one for it, is in the list of the account's gains, with the amounts of the
preview. -/
theorem SoldLast.event (h : SoldLast db i e q r) (hdate : ∀ d ∈ asOfDate, i.tradeDate ≤ d)
    (hevents : ∃ events, calculateRealizedGainEvents db i.account asOfDate = .ok events) :
    ∃ earlier event later,
      calculateRealizedGainEvents (db.post i.transaction [e] [i]) i.account asOfDate = .ok (earlier ++ event :: later) ∧
        event.investmentTransaction = i ∧ (∀ other ∈ earlier ++ later, other.investmentTransaction ≠ i) ∧
        event.netProceeds = netProceeds i ∧ event.allocatedCostBasis = r.nativeCost / r.quantity * q ∧
        event.gain = netProceeds i - r.nativeCost / r.quantity * q := by
  have hreplays : ∀ s, ∃ r', replay (db.post i.transaction [e] [i]) s .empty
      (securityTrades (db.post i.transaction [e] [i]) i.account s asOfDate) = .ok r' := by
    intro s
    by_cases hs : s = i.security
    · subst hs
      obtain ⟨r', hr', -⟩ := h.replay_last hdate
      exact ⟨r', hr'⟩
    · rw [securityTrades_post_security hs]
      exact exists_calculateRealizedGainEvents_ok_iff.1 hevents s
  obtain ⟨events, hposted⟩ := exists_calculateRealizedGainEvents_ok_iff.2 hreplays
  obtain ⟨t, ht, hresult⟩ := bind_eq_ok.1 hposted
  obtain ⟨before, after, hsplit, hbefore, hafter, hgroup⟩ := h.trades_split hdate
  have hitems : ∀ j ∈ before ++ i :: after, j.account = i.account ∧ isTrade j := fun j hj =>
    ⟨(mem_trades.1 (hsplit ▸ hj)).2.1, (mem_trades.1 (hsplit ▸ hj)).2.2.1⟩
  have hfront : ∀ j ∈ before, j.account = i.account ∧ isTrade j := fun j hj => hitems j (List.mem_append_left _ hj)
  have hback : ∀ j ∈ after, j.account = i.account ∧ isTrade j := fun j hj =>
    hitems j (List.mem_append_right _ (List.mem_cons_of_mem i hj))
  rw [hsplit] at ht
  obtain ⟨t₁, ht₁, hrest⟩ := foldlM_append_ok.1 ht
  obtain ⟨t₂, ht₂, hlast⟩ := foldlM_cons_ok.1 hrest
  -- the pass meets the sale at the position its own replay has left
  obtain ⟨m, hm, hagrees⟩ := (gains_agree_items hfront).1 t₁ ht₁
  have hposition : m i.security = r := by
    have hown := hm i.security
    rw [hgroup] at hown
    exact Except.ok.inj (hown.symm.trans h.replayed)
  have hlot := hagrees.position i.security
  rw [hposition] at hlot
  obtain ⟨q', hq', -, rate, -, hsold⟩ := (gainItem_sell_ok rfl h.sale).1 ht₂
  rw [h.quantity] at hq'
  cases hq'
  obtain ⟨earlier, hearlier, hearlierMem⟩ := gains_extend hfront ht₁
  obtain ⟨later, hlater, hlaterMem⟩ := gains_extend hback hlast
  refine ⟨earlier, saleEvent i (t₁.positions i.security) q rate, later, ?_, rfl, ?_, rfl, ?_, ?_⟩
  · rw [hposted, ← Except.ok.inj hresult, hlater, ← hsold, hearlier]
    simp [GainReplay.empty]
  · intro other hother
    rcases List.mem_append.1 hother with hmem | hmem
    · exact fun heq => hbefore (heq ▸ hearlierMem other hmem)
    · exact fun heq => hafter (heq ▸ hlaterMem other hmem)
  · rw [saleEvent, hlot]
  · rw [saleEvent, hlot]

/-! ## The comparison -/

/-- what a posting of a sale that the preview accepts has written -/
theorem posted_soldLast (hsale : p.transactionType = .sell) (hq : p.quantity = some q) (hfresh : FreshPk db)
    (hlast : NoTradeAfter db p.account p.security p.tradeDate) {holding : HoldingSnapshot}
    (hholding : calculateHolding db p.account p.security none = .ok holding) (hpos : 0 < q) (hle : q ≤ holding.quantity)
    (h : createInvestmentTransaction db p = .ok db') :
    ∃ i e r, SoldLast db i e q r ∧ i.account = p.account ∧ i.security = p.security ∧ i.tradeDate = p.tradeDate ∧
      netProceeds i = p.grossAmount - p.fees - p.taxes ∧ holding = snapshot db p.security r ∧
        db' = db.post i.transaction [e] [i] := by
  obtain ⟨i, e, hposted, hdraft, htype, hdate, hdb⟩ := createInvestmentTransaction_ok h
  have haccount : i.account = p.account := congrArg InvestmentDraft.account hdraft
  have hsecurity : i.security = p.security := congrArg InvestmentDraft.security hdraft
  have hquantity : i.quantity = p.quantity := congrArg InvestmentDraft.quantity hdraft
  have hnet : netProceeds i = p.grossAmount - p.fees - p.taxes := by
    rw [netProceeds, show i.grossAmount = p.grossAmount from congrArg InvestmentDraft.grossAmount hdraft,
      show i.fees = p.fees from congrArg InvestmentDraft.fees hdraft,
      show i.taxes = p.taxes from congrArg InvestmentDraft.taxes hdraft]
  obtain ⟨r, hr, hsnapshot⟩ := calculateHolding_ok_iff.1 hholding
  have hheld : q ≤ r.quantity := by
    rw [hsnapshot] at hle
    exact hle
  refine ⟨i, e, r, ?_, haccount, hsecurity, hdate, hnet, hsnapshot, hdb⟩
  constructor
  case posted => exact hposted
  case sale => exact htype.trans hsale
  case quantity => exact hquantity.trans hq
  case quantity_pos => exact hpos
  case fresh => exact hfresh
  case last => rwa [haccount, hsecurity, hdate]
  case replayed => rwa [haccount, hsecurity]
  case held => exact hheld

/-- the result says of the posted sale i what the event and the holding say -/
structure PreviewOf (db db' : Db) (p : InvestmentPosting) (result : RealizedGainResult) (i : InvestmentTransaction) :
    Prop where
  posted : db'.investments = db.investments ++ [i]
  holding : ∃ before after, calculateHolding db p.account p.security none = .ok before ∧
    calculateHolding db' p.account p.security none = .ok after ∧
      after.realizedGain - before.realizedGain = result.gain
  event : ∀ asOfDate, (∀ d ∈ asOfDate, p.tradeDate ≤ d) →
    (∃ events, calculateRealizedGainEvents db p.account asOfDate = .ok events) →
      ∃ earlier event later, calculateRealizedGainEvents db' p.account asOfDate = .ok (earlier ++ event :: later) ∧
        event.investmentTransaction = i ∧ (∀ other ∈ earlier ++ later, other.investmentTransaction ≠ i) ∧
        event.netProceeds = result.netProceeds ∧ event.allocatedCostBasis = result.allocatedCostBasis ∧
        event.gain = result.gain

/-- **The preview is the posted result.** For a sale dated on or after every trade of its security, the preview accepts
exactly when the quantity is positive and the holding check of the posting accepts, and what it says is what the replays
say once the sale is posted. -/
theorem preview_eq_posted (db : Db) (p : InvestmentPosting) (q : ℚ) (hsale : p.transactionType = .sell)
    (hq : p.quantity = some q) (hfresh : FreshPk db) (hlast : NoTradeAfter db p.account p.security p.tradeDate) :
    ((∃ result, calculateRealizedGain db p.account p.security q p.grossAmount p.fees p.taxes = .ok result) ↔
      0 < q ∧ checkHolding db p = .ok ()) ∧
    ∀ result, calculateRealizedGain db p.account p.security q p.grossAmount p.fees p.taxes = .ok result →
      ∀ db', createInvestmentTransaction db p = .ok db' → ∃ i, PreviewOf db db' p result i := by
  refine ⟨preview_accepts_iff hsale hq hlast, fun result hresult db' hdb => ?_⟩
  obtain ⟨holding, hholding, hpos, hle, rfl⟩ := calculateRealizedGain_ok_iff.1 hresult
  obtain ⟨i, e, r, hsold, haccount, hsecurity, hdate, hnet, rfl, rfl⟩ :=
    posted_soldLast hsale hq hfresh hlast hholding hpos hle hdb
  have hne : r.quantity ≠ 0 := (hsold.quantity_pos.trans_le hsold.held).ne'
  have haverage : (snapshot db p.security r).averageCost * q = r.nativeCost / r.quantity * q := by
    rw [snapshot, if_neg hne]
  refine ⟨i, ?_⟩
  constructor
  case posted => rfl
  case holding =>
    obtain ⟨after, hafter, hgain⟩ := hsold.holding
    rw [haccount, hsecurity] at hafter
    refine ⟨_, after, hholding, hafter, ?_⟩
    rw [hgain, haverage, hnet]
    exact add_sub_cancel_left _ _
  case event =>
    intro asOfDate hasOf hevents
    rw [← haccount] at hevents ⊢
    obtain ⟨earlier, event, later, hposted, hevent, hother, hproceeds, hcost, hgain⟩ :=
      hsold.event (hdate ▸ hasOf) hevents
    refine ⟨earlier, event, later, hposted, hevent, hother, hproceeds.trans hnet, hcost.trans haverage.symm, ?_⟩
    rw [hgain, hnet, haverage]

/-- 4 of the 10 shares that were bought at 10, at 12 each with a fee of 1 -/
def saleOfFour : InvestmentPosting :=
  { tradeAtTen .sell 4 31 with pricePerUnit := some 12, grossAmount := 48, fees := 1 }

theorem preview_eq_posted_saleOfFour :
    let db := run step (Db.init (fun _ => "EUR") fun _ => ⟨"ETF", 1, true⟩)
      [.createAccount 1 (plainForm .brokerage 1), .createInvestmentTransaction (tradeAtTen .buy 10 1)]
    calculateRealizedGain db 0 0 4 48 1 0 = .ok ⟨47, 40, 7⟩ ∧
      ∃ db' i, createInvestmentTransaction db saleOfFour = .ok db' ∧ PreviewOf db db' saleOfFour ⟨47, 40, 7⟩ i := by
  intro db
  have hresult : calculateRealizedGain db 0 0 4 48 1 0 = .ok ⟨47, 40, 7⟩ := by decide +kernel
  obtain ⟨db', hdb'⟩ := exists_ok_of_isOk (x := createInvestmentTransaction db saleOfFour) (by decide +kernel)
  have hlast : NoTradeAfter db 0 0 31 := by
    unfold NoTradeAfter
    decide +kernel
  obtain ⟨i, hi⟩ := (preview_eq_posted db saleOfFour 4 rfl rfl (run_freshPk _ _ _) hlast).2 ⟨47, 40, 7⟩ hresult db' hdb'
  exact ⟨hresult, db', i, hdb', hi⟩

/-- shares of security 0 on account 0 of user 1, at a price that makes the gross amount -/
def tradeFor (type : TransactionType) (q price gross : ℚ) (date : Date) : InvestmentPosting :=
  { tradeAtTen type q date with pricePerUnit := some price, grossAmount := gross }

/-- 29 shares bought for 74.56, and 16 of them sold for 479.06 -/
def boughtAndSold : List Op :=
  [.createAccount 1 (plainForm .brokerage 1),
    .createInvestmentTransaction (tradeFor .buy 29 (257103448 / 10 ^ 8) (7456 / 100) 1),
    .createInvestmentTransaction (tradeFor .sell 16 (2994125 / 10 ^ 5) (47906 / 100) 2)]

/-- **Twenty-eight digits.** In the default context the realized gain of a holding may grow by something else than the gain
of the preview, in the last digit. -/
theorem boughtAndSold_lastDigit :
    let db := run step (Db.init (fun _ => "EUR") fun _ => ⟨"ETF", 1, true⟩) boughtAndSold
    ∃ result db' before after,
      InContext.calculateRealizedGain kept db 0 0 10 (72766 / 100) 0 0 = .ok result ∧
      createInvestmentTransaction db (tradeFor .sell 10 (72766 / 1000) (72766 / 100) 3) = .ok db' ∧
      InContext.calculateHolding kept db 0 0 none = .ok before ∧
      InContext.calculateHolding kept db' 0 0 none = .ok after ∧
      result.gain ≠ after.realizedGain - before.realizedGain ∧
        result.gain ≠ kept (after.realizedGain - before.realizedGain) := by
  intro db
  obtain ⟨result, hresult, hgain⟩ := exists_ok_of_check
    (x := InContext.calculateRealizedGain kept db 0 0 10 (72766 / 100) 0 0)
    (p := fun result => result.gain = 7019496551724137931034482759 / 10 ^ 25) (by decide +kernel)
  obtain ⟨db', hdb', hafter⟩ := exists_ok_of_check
    (x := createInvestmentTransaction db (tradeFor .sell 10 (72766 / 1000) (72766 / 100) 3))
    (p := fun db' => (InContext.calculateHolding kept db' 0 0 none).toOption.map HoldingSnapshot.realizedGain =
      some (1139873103448275862068965517 / 10 ^ 24)) (by decide +kernel)
  obtain ⟨before, hbefore, hrealized⟩ := exists_ok_of_check (x := InContext.calculateHolding kept db 0 0 none)
    (p := fun before => before.realizedGain = 4379234482758620689655172414 / 10 ^ 25) (by decide +kernel)
  obtain ⟨after, hafter', hrealized'⟩ : ∃ after, InContext.calculateHolding kept db' 0 0 none = .ok after ∧
      after.realizedGain = 1139873103448275862068965517 / 10 ^ 24 := by
    cases h : InContext.calculateHolding kept db' 0 0 none with
    | ok after =>
      rw [h] at hafter
      exact ⟨after, rfl, Option.some.inj hafter⟩
    | error e =>
      rw [h] at hafter
      cases hafter
  refine ⟨result, db', before, after, hresult, hdb', hbefore, hafter', ?_⟩
  rw [hgain, hrealized, hrealized']
  decide +kernel

end Vault67.Investments
