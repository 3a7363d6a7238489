/-
`investments/services/pricing.py` and `valuation.py`: the newest price of a security, and the value of an account.

`valueHolding` is one pass of the loop over the open holdings; a holding without a price or a rate leaves a row with an
error and makes the valuation incomplete. `None` is `none`, and reading it where a number is needed raises.
-/
import Mathlib.Tactic
import Vault67.Core.Fx
import Vault67.Investments.Holdings
import Vault67.Ledger.Services
import Vault67.Lib.Fallible
import Vault67.Lib.Tally

namespace Vault67.Investments

open Ledger OrderBy

/-! ## Prices -/

inductive SecurityType where
  | stock | etf | fund | bond | crypto | cashEquivalent | other
deriving DecidableEq, Repr

/-- `get_security_type_display` -/
def SecurityType.display : SecurityType → String
  | .stock => "Stock"
  | .etf => "ETF"
  | .fund => "Fund"
  | .bond => "Bond"
  | .crypto => "Crypto"
  | .cashEquivalent => "Cash equivalent"
  | .other => "Other"

structure SecurityPrice where
  security : ℕ
  date : Date
  price : ℚ
  currency : ℕ
  source : String
  createdAt : ℕ
deriving DecidableEq, Repr

/-- the price table, and the type of each security -/
structure Market where
  prices : List SecurityPrice
  securityType : ℕ → SecurityType

/-- `order_by("-date", "source", "-created_at")` -/
def newestPriceFirst (p : SecurityPrice) : ℕᵒᵈ ×ₗ String ×ₗ ℕᵒᵈ :=
  toLex (OrderDual.toDual p.date, toLex (p.source, OrderDual.toDual p.createdAt))

/-- `get_latest_price`; today is `timezone.localdate()` -/
def getLatestPrice (market : Market) (today : Date) (security : ℕ) (asOfDate : Option Date) : Option SecurityPrice :=
  (orderBy newestPriceFirst
    (market.prices.filter fun p => p.security = security ∧ p.date ≤ asOfDate.getD today)).head?

/-! ## Rows -/

structure HoldingValuation where
  holding : HoldingSnapshot
  latestPrice : Option SecurityPrice
  marketValueNative : Option ℚ
  marketValue : Option ℚ
  costBasis : Option ℚ
  unrealizedGain : Option ℚ
  unrealizedGainPercent : Option ℚ
  allocationPercent : Option ℚ := none
  error : Option Message := none
deriving DecidableEq, Repr

structure AssetAllocation where
  category : String
  marketValue : ℚ
  percentage : ℚ
deriving DecidableEq, Repr

structure PortfolioValuation where
  account : ℕ
  reportingCurrency : ℕ
  holdings : List HoldingValuation
  marketValue : Option ℚ
  costBasis : Option ℚ
  unrealizedGain : Option ℚ
  unrealizedGainPercent : Option ℚ
  realizedGain : Option ℚ
  cashBalance : Option ℚ
  totalAccountValue : Option ℚ
  complete : Bool
  warnings : List Message
  allocation : List AssetAllocation
deriving DecidableEq, Repr

/-- the local variables of `calculate_portfolio_value` in its first loop -/
structure Totals where
  rows : List HoldingValuation := []
  warnings : List Message := []
  totalMarket : ℚ := 0
  totalCost : ℚ := 0
  complete : Bool := true

def percentOf (gain cost : ℚ) : Option ℚ := if cost = 0 then none else some (gain / cost * 100)

section Valuation

variable (db : Db) (fx : Fx) (market : Market) (account : ℕ) (asOfDate : Option Date) (reportingCurrency : ℕ)

/-- the market value and the cost of a holding in the reporting currency -/
def convertHolding (holding : HoldingSnapshot) (price : SecurityPrice) : Except MissingExchangeRate (ℚ × ℚ) := do
  let value ← convertCurrency fx (holding.quantity * price.price) price.currency reportingCurrency asOfDate
  let cost ← convertCurrency fx holding.baseCostBasis (db.account account).currency reportingCurrency asOfDate
  .ok (value, cost)

/-- one pass of the loop over the open holdings -/
def valueHolding (s : Totals) (holding : HoldingSnapshot) : Totals :=
  let totalCost := s.totalCost + holding.baseCostBasis
  match getLatestPrice market fx.today holding.security asOfDate with
  | none =>
    let symbol := (db.security holding.security).symbol
    let warning := Message.text s!"Price unavailable for {symbol}."
    { s with
      complete := false
      totalCost := totalCost
      warnings := s.warnings ++ [warning]
      rows := s.rows ++ [{
        holding := holding
        latestPrice := none
        marketValueNative := none
        marketValue := none
        costBasis := some holding.baseCostBasis
        unrealizedGain := none
        unrealizedGainPercent := none
        error := some warning }] }
  | some price =>
    match convertHolding db fx account asOfDate reportingCurrency holding price with
    | .error exc =>
      { s with
        complete := false
        totalCost := totalCost
        warnings := s.warnings ++ [exc.message]
        rows := s.rows ++ [{
          holding := holding
          latestPrice := some price
          marketValueNative := some (holding.quantity * price.price)
          marketValue := none
          costBasis := some holding.baseCostBasis
          unrealizedGain := none
          unrealizedGainPercent := none
          error := some exc.message }] }
    | .ok (value, cost) =>
      { s with
        totalMarket := s.totalMarket + value
        totalCost := totalCost
        rows := s.rows ++ [{
          holding := holding
          latestPrice := some price
          marketValueNative := some (holding.quantity * price.price)
          marketValue := some value
          costBasis := some cost
          unrealizedGain := some (value - cost)
          unrealizedGainPercent := percentOf (value - cost) cost }] }

/-- a row's share of the market value -/
def allocateRow (totalMarket : ℚ) (row : HoldingValuation) : HoldingValuation :=
  match row.marketValue with
  | some value => { row with allocationPercent := some (value / totalMarket * 100) }
  | none => row

def allocateRows (totalMarket : ℚ) (rows : List HoldingValuation) : List HoldingValuation :=
  if totalMarket = 0 then rows else rows.map (allocateRow totalMarket)

/-- cash, cost and realized gain, none when there is no rate from the account's currency -/
def convertAccount (cash cost realized : ℚ) : Except MissingExchangeRate (ℚ × ℚ × ℚ) :=
  if reportingCurrency = (db.account account).currency then .ok (cash, cost, realized)
  else do
    let cash ← convertCurrency fx cash (db.account account).currency reportingCurrency asOfDate
    let cost ← convertCurrency fx cost (db.account account).currency reportingCurrency asOfDate
    let realized ← convertCurrency fx realized (db.account account).currency reportingCurrency asOfDate
    .ok (cash, cost, realized)

/-- the value of a row, added to its category -/
def addCategory (values : List (String × ℚ)) (row : HoldingValuation) : Except Error (List (String × ℚ)) := do
  let value ← notNone row.marketValue
  .ok (Tally.add (market.securityType row.holding.security).display value values)

/-- `allocation_values` -/
def allocationValues (complete : Bool) (rows : List HoldingValuation) (cash : Option ℚ) :
    Except Error (List (String × ℚ)) :=
  if complete then do
    let values ← rows.foldlM (addCategory market) []
    let cash ← notNone cash
    .ok (if 0 < cash then Tally.set "Cash" cash values else values)
  else .ok []

/-- `allocation` -/
def allocationOf (values : List (String × ℚ)) : List AssetAllocation :=
  if Tally.total values = 0 then []
  else (orderBy (fun p : String × ℚ => toLex p) values).map fun p =>
    ⟨p.1, p.2, p.2 / Tally.total values * 100⟩

/-- the sum of two numbers, when the valuation is complete -/
def whenComplete (complete : Bool) (f : ℚ → ℚ) (x : Option ℚ) : Except Error (Option ℚ) :=
  if complete then do
    let x ← notNone x
    .ok (some (f x))
  else .ok none

/-- the result, from the loop over the holdings and the converted amounts of the account: cash, cost, realized gain -/
def portfolioOf (s : Totals) (converted : Except MissingExchangeRate (ℚ × ℚ × ℚ)) :
    Except Error PortfolioValuation := do
  let rows := allocateRows s.totalMarket s.rows
  let complete := s.complete && converted.isOk
  let cash := converted.toOption.map fun p => p.1
  let totalCost := converted.toOption.map fun p => p.2.1
  let realized := converted.toOption.map fun p => p.2.2
  let warnings := match converted with
    | .ok _ => s.warnings
    | .error exc => s.warnings ++ [exc.message]
  let unrealized ← whenComplete complete (fun cost => s.totalMarket - cost) totalCost
  let totalValue ← whenComplete complete (fun cash => cash + s.totalMarket) cash
  let values ← allocationValues market complete rows cash
  .ok {
    account := account
    reportingCurrency := reportingCurrency
    holdings := rows
    marketValue := if complete then some s.totalMarket else none
    costBasis := totalCost
    unrealizedGain := unrealized
    unrealizedGainPercent := do percentOf (← unrealized) (← totalCost)
    realizedGain := realized
    cashBalance := cash
    totalAccountValue := totalValue
    complete := complete
    warnings := distinct warnings
    allocation := allocationOf values }

/-- `calculate_portfolio_value` with its reporting currency -/
def calculatePortfolioValueIn : Except Error PortfolioValuation := do
  let allHoldings ← calculateHoldings db account asOfDate true
  let s := (allHoldings.filter fun h => h.quantity ≠ 0).foldl
    (valueHolding db fx market account asOfDate reportingCurrency) {}
  portfolioOf market account reportingCurrency s
    (convertAccount db fx account asOfDate reportingCurrency (accountBalance db account asOfDate) s.totalCost
      (allHoldings.map HoldingSnapshot.realizedGainBase).sum)

end Valuation

/-- `calculate_portfolio_value`; the reporting currency is the account's unless another is given -/
def calculatePortfolioValue (db : Db) (fx : Fx) (market : Market) (account : ℕ) (asOfDate : Option Date)
    (reportingCurrency : Option ℕ) : Except Error PortfolioValuation :=
  calculatePortfolioValueIn db fx market account asOfDate (reportingCurrency.getD (db.account account).currency)

end Vault67.Investments
