/-
The two replays of an account's trades, and its valuation, in a decimal context.

The definitions are those of `Holdings` and `Valuation` with every result rounded, in the order of the source; with
nothing rounded they are the exact ones (`calculateHoldings_exact`, `calculateRealizedGainEvents_exact`,
`calculatePortfolioValue_exact`). Prices, rates and balances come from the database as they are.
-/
import Mathlib.Tactic
import Vault67.Core.InContext
import Vault67.Investments.Valuation

namespace Vault67.Investments

open Fallible OrderBy

namespace InContext

variable (round : ℚ → ℚ)

def acquisitionCost (i : InvestmentTransaction) : ℚ := round (round (i.grossAmount + i.fees) + i.taxes)

def netProceeds (i : InvestmentTransaction) : ℚ := round (round (i.grossAmount - i.fees) - i.taxes)

/-- `cost / held * quantity` -/
def allocated (cost held quantity : ℚ) : ℚ := round (round (cost / held) * quantity)

/-! ## Holdings -/

/-- one pass of the loop in `_calculate_from_items` -/
def replayItem (db : Db) (symbol : String) (s : Replay) (i : InvestmentTransaction) : Except Error Replay :=
  match i.transactionType with
  | .buy => do
    let q ← notNone i.quantity
    let rate ← notNone (rateToAccount db i)
    .ok { s with
      quantity := round (s.quantity + q)
      nativeCost := round (s.nativeCost + acquisitionCost round i)
      baseCost := round (s.baseCost + round (acquisitionCost round i * rate)) }
  | .sell => do
    let q ← notNone i.quantity
    if s.quantity < q then .error (.message (.historicalOversell symbol q s.quantity))
    else if s.quantity = 0 then .error .decimal
    else do
      let allocatedNative := allocated round s.nativeCost s.quantity q
      let allocatedBase := allocated round s.baseCost s.quantity q
      let rate ← notNone (rateToAccount db i)
      let quantity := round (s.quantity - q)
      .ok {
        quantity := quantity
        nativeCost := if quantity = 0 then 0 else round (s.nativeCost - allocatedNative)
        baseCost := if quantity = 0 then 0 else round (s.baseCost - allocatedBase)
        realized := round (s.realized + round (netProceeds round i - allocatedNative))
        realizedBase := round (s.realizedBase + round (round (netProceeds round i * rate) - allocatedBase)) }
  | _ => .ok s

def replay (db : Db) (security : ℕ) (s : Replay) (items : List InvestmentTransaction) : Except Error Replay :=
  items.foldlM (replayItem round db (db.security security).symbol) s

def snapshot (db : Db) (security : ℕ) (s : Replay) : HoldingSnapshot where
  security := security
  quantity := s.quantity
  totalCostBasis := s.nativeCost
  averageCost := if s.quantity = 0 then 0 else round (s.nativeCost / s.quantity)
  nativeCurrency := (db.security security).currency
  baseCostBasis := s.baseCost
  realizedGain := s.realized
  realizedGainBase := s.realizedBase

/-- `_calculate_from_items` -/
def calculateFromItems (db : Db) (security : ℕ) (items : List InvestmentTransaction) : Except Error HoldingSnapshot := do
  let s ← replay round db security .empty items
  .ok (snapshot round db security s)

def calculateHolding (db : Db) (account security : ℕ) (asOfDate : Option Date) : Except Error HoldingSnapshot :=
  calculateFromItems round db security (transactions db account (some security) asOfDate)

def calculateHoldings (db : Db) (account : ℕ) (asOfDate : Option Date) (includeClosed : Bool) :
    Except Error (List HoldingSnapshot) := do
  let items := transactions db account none asOfDate
  let snapshots ← (orderBy (fun s => (db.security s).symbol) (groupKeys items)).mapM fun s =>
    calculateFromItems round db s (items.filter fun i => i.security = s)
  .ok (if includeClosed then snapshots else snapshots.filter fun h => h.quantity ≠ 0)

theorem replayItem_exact : replayItem id = Investments.replayItem := rfl

theorem calculateHoldings_exact : calculateHoldings id = Investments.calculateHoldings := rfl

/-! ## Realized gains -/

/-- one pass of the loop in `calculate_realized_gain_events` -/
def gainItem (db : Db) (account : ℕ) (s : GainReplay) (i : InvestmentTransaction) : Except Error GainReplay := do
  let lot := s.positions i.security
  let rate := if i.currency = (db.account account).currency then some 1 else i.exchangeRate
  let q ← notNone i.quantity
  if i.transactionType = .buy then do
    let rate ← notNone rate
    let cost := acquisitionCost round i
    let acquired : Lot :=
      ⟨round (lot.quantity + q), round (lot.nativeCost + cost), round (lot.baseCost + round (cost * rate))⟩
    .ok { s with positions := Function.update s.positions i.security acquired }
  else if lot.quantity < q ∨ lot.quantity = 0 then
    let symbol := (db.security i.security).symbol
    .error (.message (.text
      s!"Capital gain calculation is incomplete because cost basis is unavailable for {symbol}."))
  else do
    let allocatedNative := allocated round lot.nativeCost lot.quantity q
    let allocatedBase := allocated round lot.baseCost lot.quantity q
    let rate ← notNone rate
    let net := netProceeds round i
    let netBase := round (net * rate)
    let remaining := round (lot.quantity - q)
    let left : Lot :=
      ⟨remaining, if remaining = 0 then 0 else round (lot.nativeCost - allocatedNative),
        if remaining = 0 then 0 else round (lot.baseCost - allocatedBase)⟩
    .ok {
      positions := Function.update s.positions i.security left
      events := s.events ++ [{
        investmentTransaction := i
        netProceeds := net
        allocatedCostBasis := allocatedNative
        gain := round (net - allocatedNative)
        netProceedsBase := netBase
        allocatedCostBasisBase := allocatedBase
        gainBase := round (netBase - allocatedBase) }] }

def calculateRealizedGainEvents (db : Db) (account : ℕ) (asOfDate : Option Date) :
    Except Error (List RealizedGainEvent) := do
  let s ← (trades db account asOfDate).foldlM (gainItem round db account) .empty
  .ok s.events

theorem calculateRealizedGainEvents_exact :
    calculateRealizedGainEvents id = Investments.calculateRealizedGainEvents := rfl

/-! ## Valuations -/

def percentOf (gain cost : ℚ) : Option ℚ := if cost = 0 then none else some (round (round (gain / cost) * 100))

section Valuation

variable (db : Db) (fx : Fx) (market : Market) (account : ℕ) (asOfDate : Option Date) (reportingCurrency : ℕ)

/-- the market value and the cost of a holding in the reporting currency -/
def convertHolding (holding : HoldingSnapshot) (price : SecurityPrice) : Except MissingExchangeRate (ℚ × ℚ) := do
  let native := round (holding.quantity * price.price)
  let value ← Vault67.InContext.convertCurrency round fx native price.currency reportingCurrency asOfDate
  let cost ← Vault67.InContext.convertCurrency round fx holding.baseCostBasis (db.account account).currency
    reportingCurrency asOfDate
  .ok (value, cost)

/-- one pass of the loop over the open holdings -/
def valueHolding (s : Totals) (holding : HoldingSnapshot) : Totals :=
  let totalCost := round (s.totalCost + holding.baseCostBasis)
  match getLatestPrice market fx.today holding.security asOfDate with
  | none =>
    let symbol := (db.security holding.security).symbol
    let warning := Message.text s!"Price unavailable for {symbol}."
    { s with
      complete := false
      totalCost := totalCost
      warnings := s.warnings ++ [warning]
      rows := s.rows ++ [{
        holding := holding
        latestPrice := none
        marketValueNative := none
        marketValue := none
        costBasis := some holding.baseCostBasis
        unrealizedGain := none
        unrealizedGainPercent := none
        error := some warning }] }
  | some price =>
    match convertHolding round db fx account asOfDate reportingCurrency holding price with
    | .error exc =>
      { s with
        complete := false
        totalCost := totalCost
        warnings := s.warnings ++ [exc.message]
        rows := s.rows ++ [{
          holding := holding
          latestPrice := some price
          marketValueNative := some (round (holding.quantity * price.price))
          marketValue := none
          costBasis := some holding.baseCostBasis
          unrealizedGain := none
          unrealizedGainPercent := none
          error := some exc.message }] }
    | .ok (value, cost) =>
      { s with
        totalMarket := round (s.totalMarket + value)
        totalCost := totalCost
        rows := s.rows ++ [{
          holding := holding
          latestPrice := some price
          marketValueNative := some (round (holding.quantity * price.price))
          marketValue := some value
          costBasis := some cost
          unrealizedGain := some (round (value - cost))
          unrealizedGainPercent := percentOf round (round (value - cost)) cost }] }

/-- a row's share of the market value -/
def allocateRow (totalMarket : ℚ) (row : HoldingValuation) : HoldingValuation :=
  match row.marketValue with
  | some value => { row with allocationPercent := some (round (round (value / totalMarket) * 100)) }
  | none => row

def allocateRows (totalMarket : ℚ) (rows : List HoldingValuation) : List HoldingValuation :=
  if totalMarket = 0 then rows else rows.map (allocateRow round totalMarket)

/-- cash, cost and realized gain, none when there is no rate from the account's currency -/
def convertAccount (cash cost realized : ℚ) : Except MissingExchangeRate (ℚ × ℚ × ℚ) :=
  if reportingCurrency = (db.account account).currency then .ok (cash, cost, realized)
  else do
    let convert := fun amount => Vault67.InContext.convertCurrency round fx amount (db.account account).currency
      reportingCurrency asOfDate
    let cash ← convert cash
    let cost ← convert cost
    let realized ← convert realized
    .ok (cash, cost, realized)

/-- the value of a row, added to its category -/
def addCategory (values : List (String × ℚ)) (row : HoldingValuation) : Except Error (List (String × ℚ)) := do
  let value ← notNone row.marketValue
  let label := (market.securityType row.holding.security).display
  .ok (Tally.set label (round (Tally.get label values + value)) values)

/-- `allocation_values` -/
def allocationValues (complete : Bool) (rows : List HoldingValuation) (cash : Option ℚ) :
    Except Error (List (String × ℚ)) :=
  if complete then do
    let values ← rows.foldlM (addCategory round market) []
    let cash ← notNone cash
    .ok (if 0 < cash then Tally.set "Cash" cash values else values)
  else .ok []

/-- `allocation` -/
def allocationOf (values : List (String × ℚ)) : List AssetAllocation :=
  let total := Vault67.InContext.sum round (values.map Prod.snd)
  if total = 0 then []
  else (orderBy (fun p : String × ℚ => toLex p) values).map fun p => ⟨p.1, p.2, round (round (p.2 / total) * 100)⟩

/-- the result, from the loop over the holdings and the converted amounts of the account: cash, cost, realized gain -/
def portfolioOf (s : Totals) (converted : Except MissingExchangeRate (ℚ × ℚ × ℚ)) :
    Except Error PortfolioValuation := do
  let rows := allocateRows round s.totalMarket s.rows
  let complete := s.complete && converted.isOk
  let cash := converted.toOption.map fun p => p.1
  let totalCost := converted.toOption.map fun p => p.2.1
  let realized := converted.toOption.map fun p => p.2.2
  let warnings := match converted with
    | .ok _ => s.warnings
    | .error exc => s.warnings ++ [exc.message]
  let unrealized ← whenComplete complete (fun cost => round (s.totalMarket - cost)) totalCost
  let totalValue ← whenComplete complete (fun cash => round (cash + s.totalMarket)) cash
  let values ← allocationValues round market complete rows cash
  .ok {
    account := account
    reportingCurrency := reportingCurrency
    holdings := rows
    marketValue := if complete then some s.totalMarket else none
    costBasis := totalCost
    unrealizedGain := unrealized
    unrealizedGainPercent := do percentOf round (← unrealized) (← totalCost)
    realizedGain := realized
    cashBalance := cash
    totalAccountValue := totalValue
    complete := complete
    warnings := distinct warnings
    allocation := allocationOf round values }

/-- the state after the loop over the open holdings -/
def totalsOf (hs : List HoldingSnapshot) : Totals :=
  (hs.filter fun h => h.quantity ≠ 0).foldl (valueHolding round db fx market account asOfDate reportingCurrency) {}

/-- `calculate_portfolio_value` with its reporting currency -/
def calculatePortfolioValueIn : Except Error PortfolioValuation := do
  let allHoldings ← calculateHoldings round db account asOfDate true
  let s := totalsOf round db fx market account asOfDate reportingCurrency allHoldings
  portfolioOf round market account reportingCurrency s
    (convertAccount round db fx account asOfDate reportingCurrency (Ledger.accountBalance db account asOfDate) s.totalCost
      (Vault67.InContext.sum round (allHoldings.map HoldingSnapshot.realizedGainBase)))

end Valuation

/-- `calculate_portfolio_value`; the reporting currency is the account's unless another is given -/
def calculatePortfolioValue (db : Db) (fx : Fx) (market : Market) (account : ℕ) (asOfDate : Option Date)
    (reportingCurrency : Option ℕ) : Except Error PortfolioValuation :=
  calculatePortfolioValueIn round db fx market account asOfDate (reportingCurrency.getD (db.account account).currency)

theorem addCategory_exact : addCategory id = Investments.addCategory := by
  funext market values row
  simp only [addCategory, Investments.addCategory, Tally.add_eq_set, id]

theorem allocationOf_exact : allocationOf id = Investments.allocationOf := by
  funext values
  rw [allocationOf, Vault67.InContext.sum_exact]
  rfl

theorem portfolioOf_exact : portfolioOf id = Investments.portfolioOf := by
  unfold portfolioOf allocationValues
  rw [addCategory_exact, allocationOf_exact]
  rfl

/-- **Exact arithmetic.** A context that keeps every number computes the exact valuation, or fails as it does. -/
theorem calculatePortfolioValue_exact : calculatePortfolioValue id = Investments.calculatePortfolioValue := by
  unfold calculatePortfolioValue calculatePortfolioValueIn
  rw [portfolioOf_exact, Vault67.InContext.sum_exact]
  rfl

/-! ## What is returned -/

/-- a percentage is all that a row gets -/
theorem allocateRows_map {β : Type} (f : HoldingValuation → β)
    (hf : ∀ row percent, f { row with allocationPercent := percent } = f row) (total : ℚ)
    (rows : List HoldingValuation) : (allocateRows round total rows).map f = rows.map f := by
  unfold allocateRows
  split_ifs
  · rfl
  · rw [List.map_map]
    apply List.map_congr_left
    intro row _
    rw [Function.comp_apply, allocateRow]
    split
    · exact hf _ _
    · rfl

theorem mem_allocateRows {β : Type} (f : HoldingValuation → β)
    (hf : ∀ row percent, f { row with allocationPercent := percent } = f row) {total : ℚ}
    {rows : List HoldingValuation} {row : HoldingValuation} (h : row ∈ allocateRows round total rows) :
    ∃ row' ∈ rows, f row' = f row := by
  have hmem : f row ∈ (allocateRows round total rows).map f := List.mem_map_of_mem h
  rw [allocateRows_map round f hf] at hmem
  exact List.mem_map.1 hmem

theorem allocationValues_returned (market : Market) {rows : List HoldingValuation}
    (hrows : ∀ row ∈ rows, row.marketValue.isSome) (cash : ℚ) :
    ∃ values, allocationValues round market true rows (some cash) = .ok values := by
  have hloop : ∀ values, ∃ values', rows.foldlM (addCategory round market) values = .ok values' := by
    induction rows with
    | nil => exact fun values => ⟨values, rfl⟩
    | cons row rows ih =>
      obtain ⟨hrow, hrest⟩ := List.forall_mem_cons.1 hrows
      obtain ⟨x, hx⟩ := Option.isSome_iff_exists.1 hrow
      intro values
      obtain ⟨values', hvalues'⟩ := ih hrest _
      exact ⟨values', foldlM_cons_ok.2 ⟨_, by rw [addCategory, hx]; rfl, hvalues'⟩⟩
  obtain ⟨values, hvalues⟩ := hloop []
  exact ⟨_, by rw [allocationValues, if_pos rfl, hvalues]; rfl⟩

/-- a valuation is returned; the amounts of the account are there when they can be converted -/
theorem portfolioOf_returned (market : Market) (account reportingCurrency : ℕ) {s : Totals}
    (hs : s.complete = true → ∀ row ∈ s.rows, row.marketValue.isSome)
    (converted : Except MissingExchangeRate (ℚ × ℚ × ℚ)) :
    ∃ v, portfolioOf round market account reportingCurrency s converted = .ok v ∧
      v.holdings = allocateRows round s.totalMarket s.rows ∧ v.cashBalance = converted.toOption.map (fun p => p.1) ∧
      v.costBasis = converted.toOption.map (fun p => p.2.1) ∧
      v.realizedGain = converted.toOption.map fun p => p.2.2 := by
  by_cases hcomplete : (s.complete && converted.isOk) = true
  · obtain ⟨hdone, hok⟩ := Bool.and_eq_true_iff.1 hcomplete
    obtain ⟨⟨cash, cost, realized⟩, rfl⟩ := exists_ok_of_isOk hok
    have hrows : ∀ row ∈ allocateRows round s.totalMarket s.rows, row.marketValue.isSome := by
      intro row hrow
      obtain ⟨row', hrow', heq⟩ := mem_allocateRows round HoldingValuation.marketValue (fun _ _ => rfl) hrow
      rw [← heq]
      exact hs hdone row' hrow'
    obtain ⟨values, hvalues⟩ := allocationValues_returned round market hrows cash
    simp only [portfolioOf, hdone, Except.isOk, Except.toBool, Except.toOption, Option.map_some, Bool.and_self,
      whenComplete, if_true, notNone, Bind.bind, Except.bind, hvalues]
    exact ⟨_, rfl, rfl, rfl, rfl, rfl⟩
  · simp only [portfolioOf, hcomplete, whenComplete, allocationValues, Bool.false_eq_true, if_false]
    exact ⟨_, rfl, rfl, rfl, rfl, rfl⟩

end InContext

end Vault67.Investments
