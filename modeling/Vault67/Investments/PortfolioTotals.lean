/-
The totals of a valuation against its rows.

A row has a market value exactly when its holding can be valued (`Valuable`); the totals are sums over the rows, and
every amount in the account's currency is converted at one rate, so the cost of the rows and the converted total cost
agree.

- `foldl_valueHolding`: what the loop over the open holdings computes.
- `convertAccount_eq`: the account-level conversion is the rate of the account's currency.
- `allocationOf_sums`: the allocation adds up to the values it is made of.
- `portfolio_totals`: the whole valuation.
-/
import Mathlib.Tactic
import Vault67.Investments.InContext
import Vault67.Investments.Replay
import Vault67.Ledger.Currency

namespace Vault67.Investments

open Fallible Ledger Machine OrderBy

variable {db : Db} {fx : Fx} {market : Market} {account : ℕ} {asOfDate : Option Date} {reportingCurrency : ℕ}

/-! ## Holdings are never short -/

theorem replayItem_quantity_nonneg {symbol : String} {s s' : Replay} {i : InvestmentTransaction} (hs : 0 ≤ s.quantity)
    (h : replayItem db symbol s i = .ok s') : 0 ≤ s'.quantity := by
  unfold replayItem at h
  split at h
  · simp only [bind_eq_ok, notNone_eq_ok] at h
    obtain ⟨q, hq, rate, -, h⟩ := h
    cases h
    exact add_nonneg hs (i.constraints.quantity_pos q hq).le
  · simp only [bind_eq_ok, notNone_eq_ok, ite_error_eq_ok] at h
    obtain ⟨q, -, hle, -, rate, -, h⟩ := h
    cases h
    exact sub_nonneg.2 (not_lt.1 hle)
  · cases h
    exact hs

theorem calculateHoldings_quantity_nonneg {hs : List HoldingSnapshot}
    (h : calculateHoldings db account asOfDate true = .ok hs) : ∀ holding ∈ hs, 0 ≤ holding.quantity := by
  obtain ⟨snapshots, hsnapshots, h⟩ := bind_eq_ok.1 h
  cases h
  intro holding hmem
  obtain ⟨s, -, hs⟩ := Rows.exists_of_mem_right (mapM_ok_iff.1 hsnapshots) hmem
  obtain ⟨r, hr, hsnapshot⟩ := bind_eq_ok.1 hs
  cases hsnapshot
  exact foldlM_inv (I := fun s : Replay => 0 ≤ s.quantity) (fun _ _ _ _ => replayItem_quantity_nonneg) le_rfl hr

/-! ## Rows -/

section Rows

variable (db fx market account asOfDate reportingCurrency)

/-- a price, and a rate to the reporting currency from its currency and from the account's -/
structure Valuable (holding : HoldingSnapshot) : Prop where
  price : ∃ price, getLatestPrice market fx.today holding.security asOfDate = some price ∧
    ∃ rate, getFxRate fx price.currency reportingCurrency asOfDate = .ok rate
  account : ∃ rate, getFxRate fx (db.account account).currency reportingCurrency asOfDate = .ok rate

/-- the row of a holding, before its allocation percentage -/
def holdingRow (holding : HoldingSnapshot) : HoldingValuation :=
  let noPrice : HoldingValuation :=
    ⟨holding, none, none, none, some holding.baseCostBasis, none, none, none, none⟩
  match getLatestPrice market fx.today holding.security asOfDate with
  | none =>
    let symbol := (db.security holding.security).symbol
    { noPrice with error := some (.text s!"Price unavailable for {symbol}.") }
  | some price =>
    let priced := { noPrice with
      latestPrice := some price
      marketValueNative := some (holding.quantity * price.price) }
    match convertHolding db fx account asOfDate reportingCurrency holding price with
    | .error exc => { priced with error := some exc.message }
    | .ok (value, cost) => { priced with
      marketValue := some value
      costBasis := some cost
      unrealizedGain := some (value - cost)
      unrealizedGainPercent := percentOf (value - cost) cost }

end Rows

theorem holdingRow_holding (holding : HoldingSnapshot) :
    (holdingRow db fx market account asOfDate reportingCurrency holding).holding = holding := by
  unfold holdingRow
  cases getLatestPrice market fx.today holding.security asOfDate with
  | none => rfl
  | some price =>
    dsimp only
    cases convertHolding db fx account asOfDate reportingCurrency holding price <;> rfl

section Loop

variable (db fx market account asOfDate reportingCurrency)

/-- one pass adds the row of its holding -/
theorem valueHolding_eq (s : Totals) (holding : HoldingSnapshot) :
    (valueHolding db fx market account asOfDate reportingCurrency s holding).rows =
        s.rows ++ [holdingRow db fx market account asOfDate reportingCurrency holding] ∧
      (valueHolding db fx market account asOfDate reportingCurrency s holding).complete =
        (s.complete && (holdingRow db fx market account asOfDate reportingCurrency holding).marketValue.isSome) ∧
      (valueHolding db fx market account asOfDate reportingCurrency s holding).totalMarket =
        s.totalMarket + (holdingRow db fx market account asOfDate reportingCurrency holding).marketValue.getD 0 ∧
      (valueHolding db fx market account asOfDate reportingCurrency s holding).totalCost =
        s.totalCost + holding.baseCostBasis := by
  unfold valueHolding holdingRow
  cases getLatestPrice market fx.today holding.security asOfDate with
  | none => simp
  | some price =>
    dsimp only
    cases convertHolding db fx account asOfDate reportingCurrency holding price <;> simp

/-- **The loop over the open holdings.** It appends one row for each and adds up the amounts that are there, and a row
without an amount makes the valuation incomplete. -/
theorem foldl_valueHolding (s : Totals) (hs : List HoldingSnapshot) :
    let row := holdingRow db fx market account asOfDate reportingCurrency
    let t := hs.foldl (valueHolding db fx market account asOfDate reportingCurrency) s
    t.rows = s.rows ++ hs.map row ∧ t.complete = (s.complete && hs.all fun h => (row h).marketValue.isSome) ∧
      t.totalMarket = s.totalMarket + (hs.map fun h => (row h).marketValue.getD 0).sum ∧
      t.totalCost = s.totalCost + (hs.map HoldingSnapshot.baseCostBasis).sum := by
  intro row t
  induction hs generalizing s with
  | nil => simp [t]
  | cons h hs ih =>
    obtain ⟨hrows, hcomplete, hmarket, hcost⟩ := valueHolding_eq db fx market account asOfDate reportingCurrency s h
    obtain ⟨ihrows, ihcomplete, ihmarket, ihcost⟩ := ih (valueHolding db fx market account asOfDate reportingCurrency s h)
    refine ⟨?_, ?_, ?_, ?_⟩
    · rw [List.map_cons, ← List.singleton_append, ← List.append_assoc, ← hrows]
      exact ihrows
    · rw [List.all_cons, ← Bool.and_assoc, ← hcomplete]
      exact ihcomplete
    · rw [List.map_cons, List.sum_cons, ← add_assoc, ← hmarket]
      exact ihmarket
    · rw [List.map_cons, List.sum_cons, ← add_assoc, ← hcost]
      exact ihcost

end Loop

theorem convertHolding_ok_iff {holding : HoldingSnapshot} {price : SecurityPrice} {value cost : ℚ} :
    convertHolding db fx account asOfDate reportingCurrency holding price = .ok (value, cost) ↔
      ∃ rate, getFxRate fx price.currency reportingCurrency asOfDate = .ok rate ∧
        ∃ rate', getFxRate fx (db.account account).currency reportingCurrency asOfDate = .ok rate' ∧
          value = holding.quantity * price.price * rate ∧ cost = holding.baseCostBasis * rate' := by
  simp only [convertHolding, convertCurrency, bind_eq_ok, Except.ok.injEq, Prod.mk.injEq]
  refine ⟨?_, ?_⟩
  · intro h
    obtain ⟨_, ⟨rate, hrate, rfl⟩, _, ⟨rate', hrate', rfl⟩, rfl, rfl⟩ := h
    exact ⟨rate, hrate, rate', hrate', rfl, rfl⟩
  · intro h
    obtain ⟨rate, hrate, rate', hrate', rfl, rfl⟩ := h
    exact ⟨_, ⟨rate, hrate, rfl⟩, _, ⟨rate', hrate', rfl⟩, rfl, rfl⟩

/-- **A row has a market value exactly when its holding can be valued**: a price of the security by the date, and a rate
from its currency to the reporting one. -/
theorem holdingRow_isSome_iff (holding : HoldingSnapshot) :
    (holdingRow db fx market account asOfDate reportingCurrency holding).marketValue.isSome ↔
      Valuable db fx market account asOfDate reportingCurrency holding := by
  unfold holdingRow
  cases hprice : getLatestPrice market fx.today holding.security asOfDate with
  | none =>
    refine ⟨?_, ?_⟩
    · intro h
      cases h
    · intro h
      obtain ⟨price, hp, -⟩ := h.price
      rw [hprice] at hp
      cases hp
  | some price =>
    dsimp only
    cases hconvert : convertHolding db fx account asOfDate reportingCurrency holding price with
    | ok p =>
      obtain ⟨rate, hrate, rate', hrate', -, -⟩ := convertHolding_ok_iff.1 hconvert
      exact iff_of_true rfl ⟨⟨price, hprice, rate, hrate⟩, rate', hrate'⟩
    | error exc =>
      refine ⟨?_, ?_⟩
      · intro h
        cases h
      · intro h
        obtain ⟨price', hp, rate, hrate⟩ := h.price
        obtain ⟨rate', hrate'⟩ := h.account
        obtain rfl := Option.some.inj (hprice.symm.trans hp)
        rw [convertHolding_ok_iff.2 ⟨rate, hrate, rate', hrate', rfl, rfl⟩] at hconvert
        cases hconvert

/-- the amounts of a row with a market value; rate converts from the account's currency -/
theorem holdingRow_amounts {holding : HoldingSnapshot} {value rate : ℚ}
    (hrate : getFxRate fx (db.account account).currency reportingCurrency asOfDate = .ok rate)
    (h : (holdingRow db fx market account asOfDate reportingCurrency holding).marketValue = some value) :
    (holdingRow db fx market account asOfDate reportingCurrency holding).unrealizedGain =
        some (value - holding.baseCostBasis * rate) ∧
      ∃ price ∈ market.prices, ∃ r, 0 < r ∧ value = holding.quantity * price.price * r := by
  unfold holdingRow at h ⊢
  cases hprice : getLatestPrice market fx.today holding.security asOfDate with
  | none =>
    rw [hprice] at h
    cases h
  | some price =>
    rw [hprice] at h
    dsimp only at h ⊢
    cases hconvert : convertHolding db fx account asOfDate reportingCurrency holding price with
    | error exc =>
      rw [hconvert] at h
      cases h
    | ok p =>
      obtain ⟨r, hr, rate', hrate', hvalue, hcost⟩ := convertHolding_ok_iff.1 hconvert
      rw [hrate] at hrate'
      cases hrate'
      rw [hconvert] at h
      obtain rfl : p.1 = value := Option.some.inj h
      have hmem : price ∈ market.prices :=
        (List.mem_filter.1 (mem_orderBy.1 (List.mem_of_mem_head? hprice))).1
      exact ⟨by rw [← hcost], price, hmem, r, getFxRate_pos hr, hvalue⟩

/-! ## The account -/

/-- **One rate.** All amounts of the account are converted at the rate of its currency, which is 1 for its own. -/
theorem convertAccount_eq (cash cost realized : ℚ) :
    convertAccount db fx account asOfDate reportingCurrency cash cost realized =
      (getFxRate fx (db.account account).currency reportingCurrency asOfDate).map fun rate =>
        (cash * rate, cost * rate, realized * rate) := by
  unfold convertAccount convertCurrency
  by_cases h : reportingCurrency = (db.account account).currency
  · rw [if_pos h, getFxRate, if_pos h.symm]
    simp [Except.map]
  · rw [if_neg h]
    cases getFxRate fx (db.account account).currency reportingCurrency asOfDate <;>
      simp [Except.map, Bind.bind, Except.bind]

/-- a currency needs no stored rate to itself -/
theorem exists_rate_iff {source target : ℕ} :
    (target ≠ source → ∃ rate, getFxRate fx source target asOfDate = .ok rate) ↔
      ∃ rate, getFxRate fx source target asOfDate = .ok rate := by
  refine ⟨fun h => ?_, fun h _ => h⟩
  by_cases he : target = source
  · exact ⟨1, by rw [getFxRate, if_pos he.symm]⟩
  · exact h he

/-! ## Percentages -/

theorem sum_percent {α : Type} (f : α → ℚ) (l : List α) {total : ℚ} (htotal : (l.map f).sum = total) (h0 : total ≠ 0) :
    (l.map fun a => f a / total * 100).sum = 100 := by
  simp only [div_eq_mul_inv, List.sum_map_mul_right]
  rw [htotal, mul_inv_cancel₀ h0, one_mul]

theorem allocateRow_percent (total : ℚ) {row : HoldingValuation} (h : row.marketValue.isSome) :
    (allocateRow total row).allocationPercent = some (row.marketValue.getD 0 / total * 100) := by
  obtain ⟨value, hvalue⟩ := Option.isSome_iff_exists.1 h
  rw [allocateRow, hvalue]
  rfl

/-- rows that all have a value share the whole market value -/
theorem allocateRows_percents {total : ℚ} {rows : List HoldingValuation} (hrows : ∀ row ∈ rows, row.marketValue.isSome)
    (htotal : (rows.map fun row => row.marketValue.getD 0).sum = total) (h0 : total ≠ 0) :
    (∀ row ∈ allocateRows total rows, row.allocationPercent.isSome) ∧
      ((allocateRows total rows).map fun row => row.allocationPercent.getD 0).sum = 100 := by
  rw [allocateRows, if_neg h0]
  refine ⟨fun row hrow => ?_, ?_⟩
  · obtain ⟨row', hrow', rfl⟩ := List.mem_map.1 hrow
    rw [allocateRow_percent total (hrows row' hrow')]
    rfl
  · rw [List.map_map, ← sum_percent _ rows htotal h0]
    refine congrArg List.sum (List.map_congr_left fun row hrow => ?_)
    rw [Function.comp_apply, allocateRow_percent total (hrows row hrow)]
    rfl

/-- a percentage is all that a row gets -/
theorem allocateRows_map {β : Type} (f : HoldingValuation → β)
    (hf : ∀ row percent, f { row with allocationPercent := percent } = f row) (total : ℚ) (rows : List HoldingValuation) :
    (allocateRows total rows).map f = rows.map f :=
  InContext.allocateRows_map id f hf total rows

/-! ## Allocation -/

/-- non-negative amounts by category, without cash -/
structure Categories (values : List (String × ℚ)) : Prop where
  nonneg : ∀ p ∈ values, 0 ≤ p.2
  no_cash : "Cash" ∉ values.map Prod.fst

theorem display_ne_cash (t : SecurityType) : "Cash" ≠ t.display := by
  cases t <;> decide

theorem allocation_loop (market : Market) {rows : List HoldingValuation}
    (hrows : ∀ row ∈ rows, ∃ x, row.marketValue = some x ∧ 0 ≤ x) {values : List (String × ℚ)} (h : Categories values) :
    ∃ values', rows.foldlM (addCategory market) values = .ok values' ∧ Categories values' ∧
      Tally.total values' = Tally.total values + (rows.map fun row => row.marketValue.getD 0).sum := by
  induction rows generalizing values with
  | nil => exact ⟨values, rfl, h, by simp⟩
  | cons row rows ih =>
    obtain ⟨⟨x, hx, hnonneg⟩, hrest⟩ := List.forall_mem_cons.1 hrows
    have hadd : Categories (Tally.add (market.securityType row.holding.security).display x values) := by
      refine ⟨Tally.add_nonneg hnonneg h.nonneg, fun hc => ?_⟩
      rcases Tally.mem_keys_add.1 hc with hc | hc
      · exact display_ne_cash _ hc
      · exact h.no_cash hc
    obtain ⟨values', hvalues, hcategories, htotal⟩ := ih hrest hadd
    refine ⟨values', ?_, hcategories, ?_⟩
    · rw [List.foldlM_cons, addCategory, hx]
      exact hvalues
    · rw [htotal, Tally.total_add, List.map_cons, List.sum_cons, hx, Option.getD_some, add_assoc]

/-- **The allocation is made of the rows and of the cash above zero.** Its values are not negative and add up to the
market values and that cash. -/
theorem allocationValues_ok (market : Market) {rows : List HoldingValuation}
    (hrows : ∀ row ∈ rows, ∃ x, row.marketValue = some x ∧ 0 ≤ x) (cash : ℚ) :
    ∃ values, allocationValues market true rows (some cash) = .ok values ∧ (∀ p ∈ values, 0 ≤ p.2) ∧
      Tally.total values = (rows.map fun row => row.marketValue.getD 0).sum + max cash 0 := by
  have hempty : Categories [] := ⟨by simp, by simp⟩
  obtain ⟨values, hvalues, hcategories, htotal⟩ := allocation_loop market hrows hempty
  rw [Tally.total_nil, zero_add] at htotal
  simp only [allocationValues, if_true, hvalues, Bind.bind, Except.bind, notNone, Except.ok.injEq, exists_eq_left']
  by_cases hcash : 0 < cash
  · rw [if_pos hcash, max_eq_left hcash.le, ← htotal]
    exact ⟨Tally.set_nonneg hcash.le hcategories.nonneg, Tally.total_set "Cash" cash hcategories.no_cash⟩
  · rw [if_neg hcash, max_eq_right (not_lt.1 hcash), add_zero]
    exact ⟨hcategories.nonneg, htotal⟩

theorem allocationOf_sums {values : List (String × ℚ)} (hvalues : ∀ p ∈ values, 0 ≤ p.2) :
    (∀ a ∈ allocationOf values, 0 ≤ a.percentage) ∧
      if Tally.total values = 0 then allocationOf values = []
      else ((allocationOf values).map AssetAllocation.percentage).sum = 100 ∧
        ((allocationOf values).map AssetAllocation.marketValue).sum = Tally.total values := by
  have hperm := orderBy_perm (fun p : String × ℚ => toLex p) values
  unfold allocationOf
  split_ifs with h0
  · simp
  · refine ⟨fun a ha => ?_, ?_, ?_⟩
    · obtain ⟨p, hp, rfl⟩ := List.mem_map.1 ha
      have hp0 : 0 ≤ p.2 := hvalues p (hperm.subset hp)
      have htotal : 0 ≤ Tally.total values := Tally.total_nonneg hvalues
      show 0 ≤ p.2 / Tally.total values * 100
      positivity
    · rw [List.map_map]
      exact sum_percent Prod.snd _ (Tally.total_perm hperm) h0
    · rw [List.map_map]
      exact Tally.total_perm hperm

/-! ## The valuation -/

/-- the totals of a complete valuation, in terms of its rows: market value m, cash c, unrealized gain g -/
structure Consistent (v : PortfolioValuation) (m c g : ℚ) : Prop where
  market_value : v.marketValue = some m
  cash_balance : v.cashBalance = some c
  unrealized_gain : v.unrealizedGain = some g
  total_account_value : v.totalAccountValue = some (c + m)
  rows : ∀ row ∈ v.holdings, row.marketValue.isSome ∧ row.unrealizedGain.isSome
  market_sum : m = (v.holdings.map fun row => row.marketValue.getD 0).sum
  gain_sum : g = (v.holdings.map fun row => row.unrealizedGain.getD 0).sum
  row_percents : m ≠ 0 → (∀ row ∈ v.holdings, row.allocationPercent.isSome) ∧
    (v.holdings.map fun row => row.allocationPercent.getD 0).sum = 100
  percentages : ∀ a ∈ v.allocation, 0 ≤ a.percentage
  allocation : if m + max c 0 = 0 then v.allocation = []
    else (v.allocation.map AssetAllocation.percentage).sum = 100 ∧
      (v.allocation.map AssetAllocation.marketValue).sum = m + max c 0

section Totals

variable (db fx market account asOfDate reportingCurrency)

/-- the open holdings, in the order of their rows -/
def openHoldings (hs : List HoldingSnapshot) : List HoldingSnapshot := hs.filter fun h => h.quantity ≠ 0

/-- the state after the loop over the open holdings -/
def totalsOf (hs : List HoldingSnapshot) : Totals :=
  (openHoldings hs).foldl (valueHolding db fx market account asOfDate reportingCurrency) {}

end Totals

variable {hs : List HoldingSnapshot}

theorem totalsOf_complete_iff :
    (totalsOf db fx market account asOfDate reportingCurrency hs).complete = true ↔
      ∀ h ∈ hs, h.quantity ≠ 0 → Valuable db fx market account asOfDate reportingCurrency h := by
  obtain ⟨-, hcomplete, -, -⟩ := foldl_valueHolding db fx market account asOfDate reportingCurrency {} (openHoldings hs)
  rw [totalsOf, hcomplete, Bool.true_and, List.all_eq_true]
  simp only [openHoldings, List.mem_filter, decide_eq_true_eq, and_imp, holdingRow_isSome_iff]

/-- without a price or a rate nothing is totalled -/
theorem portfolioOf_incomplete (market : Market) (account reportingCurrency : ℕ) {s : Totals}
    {converted : Except MissingExchangeRate (ℚ × ℚ × ℚ)} (h : (s.complete && converted.isOk) = false) :
    ∃ v, portfolioOf market account reportingCurrency s converted = .ok v ∧ v.complete = false ∧
      v.holdings = allocateRows s.totalMarket s.rows ∧ v.marketValue = none ∧ v.unrealizedGain = none ∧
      v.totalAccountValue = none := by
  simp only [portfolioOf, h, whenComplete, allocationValues, Bool.false_eq_true, if_false]
  exact ⟨_, rfl, rfl, rfl, rfl, rfl, rfl⟩

theorem portfolioOf_complete (account reportingCurrency : ℕ) (cost realized : ℚ) {s : Totals} {cash : ℚ}
    {values : List (String × ℚ)} (hs : s.complete = true)
    (hvalues : allocationValues market true (allocateRows s.totalMarket s.rows) (some cash) = .ok values) :
    ∃ v, portfolioOf market account reportingCurrency s (.ok (cash, cost, realized)) = .ok v ∧ v.complete = true ∧
      v.holdings = allocateRows s.totalMarket s.rows ∧ v.marketValue = some s.totalMarket ∧
      v.unrealizedGain = some (s.totalMarket - cost) ∧ v.cashBalance = some cash ∧
      v.totalAccountValue = some (cash + s.totalMarket) ∧ v.allocation = allocationOf values := by
  simp only [portfolioOf, hs, Except.isOk, Except.toBool, Except.toOption, Option.map_some, Bool.and_self,
    whenComplete, if_true, notNone, Bind.bind, Except.bind, hvalues]
  exact ⟨_, rfl, rfl, rfl, rfl, rfl, rfl, rfl, rfl⟩

/-- a valuation is returned; the amounts of the account are there when they can be converted -/
theorem portfolioOf_returned (market : Market) (account reportingCurrency : ℕ) {s : Totals}
    (hs : s.complete = true → ∀ row ∈ s.rows, row.marketValue.isSome)
    (converted : Except MissingExchangeRate (ℚ × ℚ × ℚ)) :
    ∃ v, portfolioOf market account reportingCurrency s converted = .ok v ∧
      v.holdings = allocateRows s.totalMarket s.rows ∧ v.cashBalance = converted.toOption.map (fun p => p.1) ∧
      v.costBasis = converted.toOption.map (fun p => p.2.1) ∧
      v.realizedGain = converted.toOption.map fun p => p.2.2 := by
  rw [← InContext.portfolioOf_exact]
  exact InContext.portfolioOf_returned id market account reportingCurrency hs converted

/-- rows with a value each, and gains that add up, give consistent totals -/
theorem portfolioOf_consistent (market : Market) (account reportingCurrency : ℕ) (cash realized : ℚ) {s : Totals}
    {cost : ℚ} (hs : s.complete = true)
    (hrows : ∀ row ∈ s.rows, (∃ x, row.marketValue = some x ∧ 0 ≤ x) ∧ row.unrealizedGain.isSome)
    (hmarket : s.totalMarket = (s.rows.map fun row => row.marketValue.getD 0).sum)
    (hgain : s.totalMarket - cost = (s.rows.map fun row => row.unrealizedGain.getD 0).sum) :
    ∃ v, portfolioOf market account reportingCurrency s (.ok (cash, cost, realized)) = .ok v ∧ v.complete = true ∧
      v.holdings = allocateRows s.totalMarket s.rows ∧ Consistent v s.totalMarket cash (s.totalMarket - cost) := by
  have hkeep : ∀ row ∈ allocateRows s.totalMarket s.rows,
      (∃ x, row.marketValue = some x ∧ 0 ≤ x) ∧ row.unrealizedGain.isSome := by
    intro row hrow
    obtain ⟨row', hrow', heq⟩ :=
      InContext.mem_allocateRows id (fun row => (row.marketValue, row.unrealizedGain)) (fun _ _ => rfl) hrow
    obtain ⟨hvalue, hunrealized⟩ := Prod.mk.inj heq
    rw [← hvalue, ← hunrealized]
    exact hrows row' hrow'
  have hsame : ∀ f : HoldingValuation → ℚ, (∀ row percent, f { row with allocationPercent := percent } = f row) →
      ((allocateRows s.totalMarket s.rows).map f).sum = (s.rows.map f).sum := fun f hf => by
    rw [allocateRows_map f hf]
  obtain ⟨values, hvalues, hnonneg, htotal⟩ := allocationValues_ok market (fun row hrow => (hkeep row hrow).1) cash
  rw [hsame _ fun _ _ => rfl, ← hmarket] at htotal
  obtain ⟨v, hv, hcomplete, hholdings, hm, hg, hc, ht, ha⟩ := portfolioOf_complete account
    reportingCurrency cost realized hs hvalues
  obtain ⟨hpercentages, hallocation⟩ := allocationOf_sums hnonneg
  rw [htotal] at hallocation
  refine ⟨v, hv, hcomplete, hholdings, ?_⟩
  constructor
  case market_value => exact hm
  case cash_balance => exact hc
  case unrealized_gain => exact hg
  case total_account_value => exact ht
  case rows =>
    rw [hholdings]
    intro row hrow
    obtain ⟨⟨x, hx, -⟩, hunrealized⟩ := hkeep row hrow
    exact ⟨by rw [hx]; rfl, hunrealized⟩
  case market_sum => rw [hholdings, hsame _ fun _ _ => rfl, hmarket]
  case gain_sum => rw [hholdings, hsame _ fun _ _ => rfl, hgain]
  case row_percents =>
    rw [hholdings]
    refine allocateRows_percents (fun row hrow => ?_) hmarket.symm
    obtain ⟨x, hx, -⟩ := (hrows row hrow).1
    rw [hx]
    rfl
  case percentages => rw [ha]; exact hpercentages
  case allocation => rw [ha]; exact hallocation

/-- the rows of a valuation are those of its open holdings -/
theorem rows_holding {v : PortfolioValuation} {total : ℚ}
    (hv : v.holdings = allocateRows total (totalsOf db fx market account asOfDate reportingCurrency hs).rows) :
    v.holdings.map HoldingValuation.holding = openHoldings hs := by
  have hrows := (foldl_valueHolding db fx market account asOfDate reportingCurrency {} (openHoldings hs)).1
  rw [hv, allocateRows_map HoldingValuation.holding fun _ _ => rfl,
    show (totalsOf db fx market account asOfDate reportingCurrency hs).rows = _ from hrows, List.nil_append, List.map_map]
  exact (List.map_congr_left fun h _ => holdingRow_holding h).trans (List.map_id _)

theorem calculatePortfolioValue_eq (fx : Fx) (market : Market) (reporting : Option ℕ)
    (hreplay : calculateHoldings db account asOfDate true = .ok hs) :
    let currency := (db.account account).currency
    let target := reporting.getD currency
    let s := totalsOf db fx market account asOfDate target hs
    calculatePortfolioValue db fx market account asOfDate reporting =
      portfolioOf market account target s ((getFxRate fx currency target asOfDate).map fun rate =>
        (accountBalance db account asOfDate * rate, s.totalCost * rate,
          (hs.map HoldingSnapshot.realizedGainBase).sum * rate)) := by
  intro currency target s
  rw [calculatePortfolioValue, calculatePortfolioValueIn, hreplay, ← convertAccount_eq]
  rfl

/-- the rate of the account's currency, when there is one -/
def accountConversion (db : Db) (fx : Fx) (account : ℕ) (asOfDate : Option Date) (reportingCurrency : ℕ) : Option ℚ :=
  (getFxRate fx (db.account account).currency reportingCurrency asOfDate).toOption

/-- **A valuation whose replay succeeds is returned.** No price, rate or balance makes it raise; what is missing makes
it incomplete. -/
theorem portfolio_returned (fx : Fx) (market : Market) (reporting : Option ℕ)
    (hreplay : calculateHoldings db account asOfDate true = .ok hs) :
    let target := reporting.getD (db.account account).currency
    let s := totalsOf db fx market account asOfDate target hs
    let rate := accountConversion db fx account asOfDate target
    ∃ v, calculatePortfolioValue db fx market account asOfDate reporting = .ok v ∧
      v.holdings = allocateRows s.totalMarket s.rows ∧
      v.cashBalance = rate.map (accountBalance db account asOfDate * ·) ∧ v.costBasis = rate.map (s.totalCost * ·) ∧
      v.realizedGain = rate.map ((hs.map HoldingSnapshot.realizedGainBase).sum * ·) := by
  intro target s rate
  obtain ⟨hrows, hcomplete, -, -⟩ :=
    foldl_valueHolding db fx market account asOfDate target {} (openHoldings hs)
  have hvalued : s.complete = true → ∀ row ∈ s.rows, row.marketValue.isSome := by
    intro hdone row hrow
    rw [show s.complete = _ from hcomplete, Bool.true_and, List.all_eq_true] at hdone
    rw [show s.rows = _ from hrows, List.nil_append] at hrow
    obtain ⟨h, hh, rfl⟩ := List.mem_map.1 hrow
    exact hdone h hh
  obtain ⟨v, hv, hholdings, hcash, hcost, hrealized⟩ := portfolioOf_returned market account target hvalued
    ((getFxRate fx (db.account account).currency target asOfDate).map fun rate =>
      (accountBalance db account asOfDate * rate, s.totalCost * rate,
        (hs.map HoldingSnapshot.realizedGainBase).sum * rate))
  refine ⟨v, (calculatePortfolioValue_eq fx market reporting hreplay).trans hv, hholdings, ?_⟩
  rw [hcash, hcost, hrealized]
  unfold rate accountConversion
  cases getFxRate fx (db.account account).currency target asOfDate with
  | error exc => exact ⟨rfl, rfl, rfl⟩
  | ok r => exact ⟨rfl, rfl, rfl⟩

/-- **A complete loop.** Its rows have non-negative market values, and gains that add up to the total gain. -/
theorem totalsOf_rows (hprices : ∀ p ∈ market.prices, 0 ≤ p.price)
    (hreplay : calculateHoldings db account asOfDate true = .ok hs) {rate : ℚ}
    (hrate : getFxRate fx (db.account account).currency reportingCurrency asOfDate = .ok rate)
    (hvaluable : ∀ h ∈ hs, h.quantity ≠ 0 → Valuable db fx market account asOfDate reportingCurrency h) :
    let s := totalsOf db fx market account asOfDate reportingCurrency hs
    (∀ row ∈ s.rows, (∃ x, row.marketValue = some x ∧ 0 ≤ x) ∧ row.unrealizedGain.isSome) ∧
      s.totalMarket = (s.rows.map fun row => row.marketValue.getD 0).sum ∧
      s.totalMarket - s.totalCost * rate = (s.rows.map fun row => row.unrealizedGain.getD 0).sum := by
  intro s
  obtain ⟨hrows, -, hmarket, hcost⟩ :=
    foldl_valueHolding db fx market account asOfDate reportingCurrency {} (openHoldings hs)
  have hamounts : ∀ h ∈ openHoldings hs, ∃ x,
      (holdingRow db fx market account asOfDate reportingCurrency h).marketValue = some x ∧ 0 ≤ x ∧
        (holdingRow db fx market account asOfDate reportingCurrency h).unrealizedGain =
          some (x - h.baseCostBasis * rate) := by
    intro h hh
    obtain ⟨hmem, hopen⟩ := List.mem_filter.1 hh
    obtain ⟨x, hx⟩ := Option.isSome_iff_exists.1
      ((holdingRow_isSome_iff h).2 (hvaluable h hmem (of_decide_eq_true hopen)))
    obtain ⟨hgain, price, hprice, r, hr, hvalue⟩ := holdingRow_amounts hrate hx
    have hq := calculateHoldings_quantity_nonneg hreplay h hmem
    have hp := hprices price hprice
    exact ⟨x, hx, by rw [hvalue]; positivity, hgain⟩
  rw [List.nil_append] at hrows
  rw [zero_add] at hmarket hcost
  refine ⟨fun row hrow => ?_, ?_, ?_⟩
  · rw [show s.rows = _ from hrows] at hrow
    obtain ⟨h, hh, rfl⟩ := List.mem_map.1 hrow
    obtain ⟨x, hx, hnonneg, hgain⟩ := hamounts h hh
    exact ⟨⟨x, hx, hnonneg⟩, by rw [hgain]; rfl⟩
  · rw [show s.rows = _ from hrows, List.map_map]
    exact hmarket
  · have hgains : ∀ h ∈ openHoldings hs,
        (holdingRow db fx market account asOfDate reportingCurrency h).marketValue.getD 0 =
          (holdingRow db fx market account asOfDate reportingCurrency h).unrealizedGain.getD 0 +
            h.baseCostBasis * rate := by
      intro h hh
      obtain ⟨x, hx, -, hgain⟩ := hamounts h hh
      rw [hgain, hx]
      exact (sub_add_cancel x _).symm
    rw [show s.rows = _ from hrows, List.map_map, show s.totalMarket = _ from hmarket,
      show s.totalCost = _ from hcost, ← List.sum_map_mul_right, sub_eq_iff_eq_add]
    simp only [Function.comp_def]
    rw [← List.sum_map_add]
    exact congrArg List.sum (List.map_congr_left hgains)

/-- **Totals and rows.** With non-negative prices, a valuation whose replay succeeds is returned. It has a row for each
open holding, it is complete exactly when every open holding can be valued and the account's amounts can be converted,
its totals are consistent with its rows when it is complete, and there are none when it is not. -/
theorem portfolio_totals (fx : Fx) (reporting : Option ℕ) (hprices : ∀ p ∈ market.prices, 0 ≤ p.price)
    (hreplay : calculateHoldings db account asOfDate true = .ok hs) :
    let currency := (db.account account).currency
    let target := reporting.getD currency
    ∃ v, calculatePortfolioValue db fx market account asOfDate reporting = .ok v ∧
      v.holdings.map HoldingValuation.holding = openHoldings hs ∧
      (v.complete = true ↔ (∀ h ∈ hs, h.quantity ≠ 0 → Valuable db fx market account asOfDate target h) ∧
        (target ≠ currency → ∃ rate, getFxRate fx currency target asOfDate = .ok rate)) ∧
      (v.complete = true → ∃ m c g, Consistent v m c g) ∧
      (v.complete = false → v.marketValue = none ∧ v.unrealizedGain = none ∧ v.totalAccountValue = none) := by
  intro currency target
  set s := totalsOf db fx market account asOfDate target hs with hs_def
  have hvalue := calculatePortfolioValue_eq fx market reporting hreplay
  rw [hvalue, exists_rate_iff]
  by_cases hcomplete : s.complete = true ∧ ∃ rate, getFxRate fx currency target asOfDate = .ok rate
  · obtain ⟨hvaluable, rate, hrate⟩ := hcomplete
    obtain ⟨hvalues, hmarket, hgain⟩ := totalsOf_rows hprices hreplay hrate (totalsOf_complete_iff.1 hvaluable)
    obtain ⟨v, hv, hdone, hv_holdings, hconsistent⟩ := portfolioOf_consistent market account target
      (accountBalance db account asOfDate * rate) ((hs.map HoldingSnapshot.realizedGainBase).sum * rate) hvaluable hvalues
      hmarket hgain
    refine ⟨v, by rw [hrate]; exact hv, rows_holding hv_holdings, ?_, fun _ => ⟨_, _, _, hconsistent⟩, ?_⟩
    · exact iff_of_true hdone ⟨totalsOf_complete_iff.1 hvaluable, rate, hrate⟩
    · exact fun hnot => absurd hdone (by simp [hnot])
  · have hincomplete : (s.complete && ((getFxRate fx currency target asOfDate).map fun rate =>
        (accountBalance db account asOfDate * rate, s.totalCost * rate,
          (hs.map HoldingSnapshot.realizedGainBase).sum * rate)).isOk) = false := by
      cases hrate : getFxRate fx currency target asOfDate with
      | error exc => exact Bool.and_false _
      | ok rate => rw [Bool.eq_false_iff.2 fun hc => hcomplete ⟨hc, rate, hrate⟩, Bool.false_and]
    obtain ⟨v, hv, hnot, hv_holdings, hnone⟩ := portfolioOf_incomplete market account target hincomplete
    refine ⟨v, hv, rows_holding hv_holdings, ?_, fun hdone => absurd hdone (by simp [hnot]), fun _ => hnone⟩
    rw [hnot, totalsOf_complete_iff.symm]
    exact iff_of_false (by simp) hcomplete

/-- cash in currency 1, and shares of a security in currency 2 bought at 0.8 -/
def foreignShares : List Op :=
  [.createAccount 1 (plainForm .brokerage 1), .createDeposit 1 0 5000 1 "Funding" .deposit "",
    .createInvestmentTransaction
      { tradeAtTen .buy 100 1 with currency := 2, exchangeRate := some (4 / 5) }]

/-- a price in currency 2 -/
def sharePrice : Market := ⟨[⟨0, 32, 25 / 2, 2, "MANUAL", 0⟩], fun _ => .stock⟩

/-- one unit of currency 1 in currency 2 -/
def dollarsOn (date : Date) (rate : ℚ) (h : 0 < rate) : ExchangeRate := ⟨date, 1, 2, rate, "MANUAL", 0, by decide, h⟩

def dollarRate : Fx := ⟨[dollarsOn 32 (5 / 4) (by norm_num)], 40⟩

theorem portfolio_totals_foreignShares :
    let db := run step (Db.init (fun _ => "EUR") fun _ => ⟨"ACME", 2, true⟩) foreignShares
    ∃ v, calculatePortfolioValue db dollarRate sharePrice 0 (some 32) none = .ok v ∧ v.complete = true ∧
      ∃ m c g, Consistent v m c g := by
  intro db
  obtain ⟨hs, hreplay⟩ := exists_ok_of_isOk (x := calculateHoldings db 0 (some 32) true) (by decide +kernel)
  have hprices : ∀ p ∈ sharePrice.prices, 0 ≤ p.price := by decide +kernel
  obtain ⟨v, hv, -, -, hconsistent, -⟩ := portfolio_totals dollarRate none hprices hreplay
  obtain ⟨v', hv', hcomplete⟩ := exists_ok_of_check
    (x := calculatePortfolioValue db dollarRate sharePrice 0 (some 32) none) (p := fun v => v.complete = true)
    (by decide +kernel)
  obtain rfl := Except.ok.inj (hv.symm.trans hv')
  exact ⟨v, hv, hcomplete, hconsistent hcomplete⟩

end Vault67.Investments
