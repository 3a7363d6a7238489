/-
The cash ledger and the holdings replay agree.

Cash is posted trade by trade, quantized to four decimals; gains and cost bases are recomputed by the weighted-average
replay. `Linked` pairs the posted trades with their cash entries, in order, and every operation keeps it.

- `write_linked`: each primitive write keeps the pairing.
- `holdings_cash`: realized gain minus cost basis, over all snapshots, is the exact cash of the trades.
- `Cash.near`: a cash entry is its trade's exact cash, up to half a unit of the fourth decimal for a foreign trade.
- `cash_conservation`: the two sums after every run, for every account and date.
-/
import Mathlib.Tactic
import Vault67.Investments.ReplayAgreement
import Vault67.Ledger.Shape

namespace Vault67.Investments

open OrderBy Fallible AverageCost Machine Rows Ledger

/-! ## Trades and their cash entries -/

/-- the entry of a BUY or SELL transaction -/
def tradeEntry (e : TransactionEntry) : Prop :=
  e.transaction.transactionType = .buy ∨ e.transaction.transactionType = .sell

instance (e : TransactionEntry) : Decidable (tradeEntry e) := inferInstanceAs (Decidable (_ ∨ _))

/-- e is the cash entry of the trade i -/
structure Cash (db : Db) (i : InvestmentTransaction) (e : TransactionEntry) : Prop where
  transaction : e.transaction = i.transaction
  account : e.account = i.account
  replayable : Replayable db i
  places : HasPlaces 4 i.netCashImpactNative
  amount : quantize (i.netCashImpactNative * accountRate db i) = .ok e.amount

/-- the trades and the entries of trades, one to one and in order -/
def Linked (db : Db) : Prop :=
  List.Forall₂ (Cash db) (db.investments.filter fun i => isTrade i) (db.entries.filter fun e => tradeEntry e)

theorem init_linked (currencyCode : ℕ → String) (security : ℕ → Security) :
    Linked (Db.init currencyCode security) := List.Forall₂.nil

/-- only the currency of the trade's account matters -/
theorem rateToAccount_congr {db db' : Db} {i : InvestmentTransaction}
    (h : (db'.account i.account).currency = (db.account i.account).currency) :
    rateToAccount db' i = rateToAccount db i := by
  rw [rateToAccount, h, rateToAccount]

theorem Cash.congr {db db' : Db} {i : InvestmentTransaction} {e : TransactionEntry}
    (h : (db'.account i.account).currency = (db.account i.account).currency) (hc : Cash db i e) : Cash db' i e := by
  have hr := rateToAccount_congr h
  refine ⟨hc.transaction, hc.account, ⟨hc.replayable.trade, hc.replayable.quantity, ?_⟩, hc.places, ?_⟩
  · rw [hr]
    exact hc.replayable.rate
  · rw [accountRate, hr]
    exact hc.amount

theorem Cash.of_account {db db' : Db} {i : InvestmentTransaction} {e : TransactionEntry}
    (h : ∀ a, db'.account a = db.account a) (hc : Cash db i e) : Cash db' i e := hc.congr (by rw [h])

theorem Posted.cash_entry {db : Db} {i : InvestmentTransaction} {e : TransactionEntry} (hp : Posted db i e)
    (hi : isTrade i) : Cash db i e := by
  obtain ⟨rate, hr, hq⟩ := hp.cash
  obtain ⟨hgross, hfees, htaxes⟩ := hp.amounts
  refine ⟨hp.entry_transaction, hp.entry_account, ⟨hi, hp.trade_quantity hi, rate, hr⟩, ?_, ?_⟩
  · unfold InvestmentDraft.netCashImpactNative
    split
    · exact ((hgross.add hfees).add htaxes).neg
    · exact (hgross.sub hfees).sub htaxes
    · exact (hgross.sub hfees).sub htaxes
    · exact hgross.neg
  · rw [accountRate, hr]
    exact hq

/-! ## Writes -/

theorem Linked.post_other {db : Db} (h : Linked db) {t : Transaction} {es : List TransactionEntry}
    (hes : ∀ e ∈ es, ¬tradeEntry e) : Linked (db.post t es []) := by
  have hnil : es.filter (fun e => decide (tradeEntry e)) = [] :=
    List.filter_eq_nil_iff.2 fun e he => by simpa using hes e he
  unfold Linked
  rw [Db.post_investments, List.append_nil, Db.post_entries, List.filter_append, hnil, List.append_nil]
  exact forall₂_imp (fun i _ e _ hc => hc.of_account (Db.post_account _ _ _ _)) h

theorem Linked.post_investment {db : Db} (h : Linked db) {i : InvestmentTransaction} {e : TransactionEntry}
    (hp : Posted db i e) : Linked (db.post i.transaction [e] [i]) := by
  have hsame : tradeEntry e ↔ isTrade i := by
    rw [tradeEntry, hp.entry_transaction]
    rfl
  have hold : List.Forall₂ (Cash (db.post i.transaction [e] [i])) (db.investments.filter fun i => isTrade i)
      (db.entries.filter fun e => tradeEntry e) :=
    forall₂_imp (fun j _ e' _ hc => hc.of_account (Db.post_account _ _ _ _)) h
  unfold Linked
  rw [Db.post_investments, Db.post_entries, List.filter_append, List.filter_append]
  refine List.rel_append hold ?_
  by_cases hi : isTrade i
  · rw [List.filter_cons_of_pos (by simpa using hi), List.filter_cons_of_pos (by simpa using hsame.2 hi)]
    exact .cons ((hp.cash_entry hi).of_account (Db.post_account _ _ _ _)) .nil
  · rw [List.filter_cons_of_neg (by simpa using hi), List.filter_cons_of_neg (by simpa using mt hsame.1 hi)]
    exact .nil

/-- no deletion reaches the entry of a trade: its detail protects it -/
theorem Linked.delete {db : Db} (h : Linked db) {ids : List ℕ} (hids : ∀ i ∈ db.investments, i.transaction.pk ∉ ids) :
    Linked (deleteRows db ids) := by
  have hkeep : (db.entries.filter fun e => decide (e.transaction.pk ∉ ids)).filter (fun e => decide (tradeEntry e)) =
      db.entries.filter fun e => tradeEntry e := by
    rw [List.filter_comm]
    apply List.filter_eq_self.2
    intro e he
    obtain ⟨i, hi, hc⟩ := exists_of_mem_right h he
    rw [hc.transaction]
    exact decide_eq_true (hids i (List.mem_filter.1 hi).1)
  unfold Linked
  rw [deleteRows_entries, hkeep]
  exact forall₂_imp (fun i _ e _ hc => hc.of_account (deleteRows_account _ _)) h

theorem write_linked {db db' : Db} (hI : Integrity db) (h : Linked db) (hw : Write singleEntry db db') :
    Linked db' := by
  cases hw with
  | entry ht hS he hpk =>
    apply h.post_other
    intro e' he'
    rw [List.mem_singleton.1 he', tradeEntry, he.transaction]
    exact not_or.2 ⟨hS.2.1, hS.2.2⟩
  | transfer ht htype hs hd hspk hdpk hne hcur hpos hneg =>
    apply h.post_other
    intro e' he'
    have het : e'.transaction.transactionType = .transfer := by
      rcases List.mem_cons.1 he' with rfl | he'
      · rw [hs.transaction, htype]
      · rw [List.mem_singleton.1 he', hd.transaction, htype]
    rw [tradeEntry, het]
    decide
  | investment hp => exact h.post_investment hp
  | delete hids => exact h.delete hids
  | newAccount =>
    refine forall₂_imp (fun i hi e _ hc => hc.congr ?_) h
    have hlt := hI.account_lt _ (hI.detail_account i (List.mem_filter.1 hi).1)
    rw [Accounts.insertAccount_account, Function.update_of_ne hlt.ne]
  | keep account fixedTerm hk => exact forall₂_imp (fun i _ e _ hc => hc.congr (hk i.account).2.1) h

/-! ## Realized gain minus cost basis -/

variable {db : Db} {account : ℕ} {asOfDate : Option Date}

/-- the cash of a trade in the account's currency, before rounding -/
def exactCash (db : Db) (i : InvestmentTransaction) : ℚ := i.netCashImpactNative * accountRate db i

theorem baseTrade_cash {i : InvestmentTransaction} (hi : isTrade i) : (baseTrade db i).cash = exactCash db i := by
  rcases hi with hb | hs
  · rw [baseTrade, if_pos hb, exactCash, InvestmentDraft.netCashImpactNative, hb]
    simp only [Trade.cash, acquisitionCost]
    ring
  · rw [baseTrade_sell hs, exactCash, InvestmentDraft.netCashImpactNative, hs]
    rfl

/-- realized gain minus cost basis of one security is the exact cash of its trades -/
theorem holding_cash {s : ℕ} {h : HoldingSnapshot} (hh : calculateHolding db account s asOfDate = .ok h) :
    h.realizedGainBase - h.baseCostBasis = ((securityTrades db account s asOfDate).map (exactCash db)).sum := by
  obtain ⟨r, hr, rfl⟩ := calculateHolding_ok_iff.1 hh
  have hreplayable := replayable_of_replay (fun i hi => (mem_securityTrades.1 hi).2.2.2.2) hr
  have hpos : ∀ t ∈ (securityTrades db account s asOfDate).map (baseTrade db), 0 < t.quantity := by
    intro t ht
    obtain ⟨i, hi, rfl⟩ := List.mem_map.1 ht
    rw [baseTrade_quantity]
    exact (hreplayable i hi).shares_pos
  calc (snapshot db s r).realizedGainBase - (snapshot db s r).baseCostBasis
      = r.base.realized - r.base.cost := rfl
    _ = Replay.empty.base.realized - Replay.empty.base.cost +
        (((securityTrades db account s asOfDate).map (baseTrade db)).map Trade.cash).sum :=
      replay_cash hpos (replay_base hreplayable hr)
    _ = (((securityTrades db account s asOfDate).map (baseTrade db)).map Trade.cash).sum := by
      simp [Replay.empty, Replay.base]
    _ = ((securityTrades db account s asOfDate).map (exactCash db)).sum := by
      rw [List.map_map]
      exact congrArg List.sum (List.map_congr_left fun i hi => baseTrade_cash (hreplayable i hi).trade)

/-- **Over all securities.** What the snapshots gained, less what they still cost, is the exact cash of the trades. -/
theorem holdings_cash {hs : List HoldingSnapshot} (h : calculateHoldings db account asOfDate true = .ok hs) :
    (hs.map fun h => h.realizedGainBase - h.baseCostBasis).sum =
      ((trades db account asOfDate).map (exactCash db)).sum := by
  obtain ⟨hkeys, heach⟩ := calculateHoldings_securities h
  have hheld : ∀ i ∈ trades db account asOfDate, i.security ∈ heldSecurities db account asOfDate := by
    intro i hi
    obtain ⟨hmem, ha, -, hd⟩ := mem_trades.1 hi
    exact mem_heldSecurities.2 ⟨i, hmem, ha, rfl, hd⟩
  calc (hs.map fun h => h.realizedGainBase - h.baseCostBasis).sum
      = (hs.map fun h => ((securityTrades db account h.security asOfDate).map (exactCash db)).sum).sum :=
      congrArg List.sum (List.map_congr_left fun h hmem => holding_cash (heach h hmem))
    _ = ((heldSecurities db account asOfDate).map fun s =>
        (((trades db account asOfDate).filter fun i => decide (i.security = s)).map (exactCash db)).sum).sum := by
      rw [← hkeys, List.map_map]
      simp only [trades_filter_security]
      rfl
    _ = ((trades db account asOfDate).map (exactCash db)).sum :=
      sum_groups (fun i : InvestmentTransaction => i.security) (heldSecurities_nodup db account asOfDate) hheld _

/-! ## Rounding -/

/-- a trade in another currency than its account's -/
def isForeign (db : Db) (i : InvestmentTransaction) : Prop := i.currency ≠ (db.account i.account).currency

instance (db : Db) (i : InvestmentTransaction) : Decidable (isForeign db i) := inferInstanceAs (Decidable (_ ≠ _))

/-- the posted cash is exact for a trade in the account's currency -/
theorem Cash.near {i : InvestmentTransaction} {e : TransactionEntry} (hc : Cash db i e) :
    |e.amount - exactCash db i| ≤ if isForeign db i then 1 / 20000 else 0 := by
  split_ifs with hf
  · exact quantize_near hc.amount
  · have hrate : accountRate db i = 1 := by
      rw [accountRate, rateToAccount, if_pos (not_not.1 hf)]
      rfl
    have hamount := hc.amount
    rw [hrate, mul_one] at hamount
    rw [quantize_exact hamount hc.places, exactCash, hrate, mul_one, sub_self, abs_zero]

/-- the trades in other currencies, up to a date -/
def foreignTrades (db : Db) (account : ℕ) (asOfDate : Option Date) : List InvestmentTransaction :=
  (trades db account asOfDate).filter fun i => isForeign db i

/-- the ledger entries of the account's BUY and SELL transactions, up to a date -/
def tradeCash (db : Db) (account : ℕ) (asOfDate : Option Date) : ℚ :=
  ((db.entries.filter fun e => e.account = account ∧ tradeEntry e ∧ asOf asOfDate e).map TransactionEntry.amount).sum

theorem sum_allowance (db : Db) (items : List InvestmentTransaction) :
    (items.map fun i => if isForeign db i then (1 / 20000 : ℚ) else 0).sum =
      (items.filter fun i => isForeign db i).length * (1 / 20000) := by
  rw [List.sum_map_ite]
  simp

/-- the cash entries against the exact cash of the trades -/
theorem Linked.tradeCash_near (h : Linked db) (account : ℕ) (asOfDate : Option Date) :
    |tradeCash db account asOfDate - ((trades db account asOfDate).map (exactCash db)).sum| ≤
      (foreignTrades db account asOfDate).length * (1 / 20000) := by
  have hrows : List.Forall₂ (Cash db)
      ((db.investments.filter fun i => isTrade i).filter fun i =>
        decide (i.account = account ∧ onOrBefore asOfDate i))
      ((db.entries.filter fun e => tradeEntry e).filter fun e => decide (e.account = account ∧ asOf asOfDate e)) := by
    refine forall₂_filter (fun i e hc => ?_) h
    simp only [asOf, hc.transaction, hc.account]
    rfl
  have hentries : tradeCash db account asOfDate =
      (((db.entries.filter fun e => tradeEntry e).filter fun e =>
        decide (e.account = account ∧ asOf asOfDate e)).map TransactionEntry.amount).sum := by
    rw [tradeCash, List.filter_filter]
    refine congrArg List.sum (congrArg _ (List.filter_congr fun e _ => ?_))
    rw [← Bool.decide_and]
    exact decide_eq_decide.2 (by tauto)
  have hperm : (trades db account asOfDate).Perm ((db.investments.filter fun i => isTrade i).filter fun i =>
      decide (i.account = account ∧ onOrBefore asOfDate i)) := by
    rw [List.filter_filter]
    refine (orderBy_perm replayKey _).trans (List.Perm.of_eq (List.filter_congr fun i _ => ?_))
    rw [← Bool.decide_and]
    exact decide_eq_decide.2 (by tauto)
  rw [hentries, (hperm.map (exactCash db)).sum_eq, foreignTrades, ← sum_allowance,
    (hperm.map fun i => if isForeign db i then (1 / 20000 : ℚ) else 0).sum_eq]
  exact abs_sum_sub_le (fun i e hc => hc.near) hrows

/-! ## Runs -/

/-- **Cash and holdings agree.** After every run, the cash of an account's trades is realized gain minus cost basis over
its holdings: exactly when all its trades are in its currency, and within 0.00005 for each other trade. -/
theorem cash_conservation (currencyCode : ℕ → String) (security : ℕ → Security) {ops : List Op}
    (hops : ∀ op ∈ ops, op.legal ∧ ¬op.isEdit) (account : ℕ) (asOfDate : Option Date) {hs : List HoldingSnapshot} :
    let db := run step (Db.init currencyCode security) ops
    calculateHoldings db account asOfDate true = .ok hs →
      (foreignTrades db account asOfDate = [] →
        tradeCash db account asOfDate = (hs.map fun h => h.realizedGainBase - h.baseCostBasis).sum) ∧
      |tradeCash db account asOfDate - (hs.map fun h => h.realizedGainBase - h.baseCostBasis).sum| ≤
        (foreignTrades db account asOfDate).length * 0.00005 := by
  intro db hhs
  have hrun : Integrity db ∧ Linked db := by
    refine run_inv (fun op => op.legal ∧ ¬op.isEdit) (I := fun db => Integrity db ∧ Linked db) ?_ hops
      ⟨init_integrity _ _, init_linked _ _⟩
    intro db₁ op db₂ h hop hs
    have hw := step_writes (S := singleEntry) (fun _ => id) hop.2 hop.1 hs
    exact hw.inv (I := fun db => Integrity db ∧ Linked db)
      (fun _ _ h hw => ⟨write_integrity h.1 hw, write_linked h.1 h.2 hw⟩) h
  have hnear := hrun.2.tradeCash_near account asOfDate
  rw [← holdings_cash hhs] at hnear
  refine ⟨?_, ?_⟩
  · intro hnone
    rw [hnone, List.length_nil, Nat.cast_zero, zero_mul] at hnear
    exact sub_eq_zero.1 (abs_eq_zero.1 (le_antisymm hnear (abs_nonneg _)))
  · calc _ ≤ ((foreignTrades db account asOfDate).length : ℚ) * (1 / 20000) := hnear
      _ = (foreignTrades db account asOfDate).length * 0.00005 := by norm_num

/-- a security in currency 2 is bought and partly sold on an account in currency 1, at a rate of a third -/
def foreignTrading : List Op :=
  [.createAccount 1 (plainForm .brokerage 1),
    .createInvestmentTransaction
      { tradeAtTen .buy 10 1 with currency := 2, exchangeRate := some (333333333333 / 10 ^ 12) },
    .createInvestmentTransaction
      { tradeAtTen .sell 4 2 with currency := 2, exchangeRate := some (333333333333 / 10 ^ 12), fees := 1 }]

theorem cash_conservation_foreignTrading :
    let db := run step (Db.init (fun _ => "EUR") fun _ => ⟨"ETF", 2, true⟩) foreignTrading
    ∃ hs, calculateHoldings db 0 none true = .ok hs ∧
      |tradeCash db 0 none - (hs.map fun h => h.realizedGainBase - h.baseCostBasis).sum| ≤
        (foreignTrades db 0 none).length * 0.00005 := by
  intro db
  have hhs : calculateHoldings db 0 none true =
      .ok [⟨0, 6, 60, 10, 2, 999999999999 / 50000000000, -1, -333333333333 / 1000000000000⟩] := by
    decide +kernel
  exact ⟨_, hhs, (cash_conservation _ _ (by decide) 0 none hhs).2⟩

end Vault67.Investments
