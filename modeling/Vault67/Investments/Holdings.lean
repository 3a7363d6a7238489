/-
`investments/services/holdings.py` and `cost_basis.py`: the two replays of an account's trades.

- `calculateHoldings` groups the account's items by security and replays each group (`replayItem`);
- `calculateRealizedGainEvents` replays all trades in one pass with a table of positions (`gainItem`).

Both order items by (transaction date, transaction pk). Amounts are exact rationals. A missing quantity or rate raises
the TypeError Python raises for arithmetic on None; dividing by an empty position raises as Decimal does.
-/
import Mathlib.Tactic
import Mathlib.Data.Prod.Lex
import Mathlib.Data.String.Basic
import Vault67.Core.Tables
import Vault67.Lib.OrderBy

namespace Vault67.Investments

open OrderBy

/-- `order_by("transaction__transaction_date", "transaction_id")` -/
def replayKey (i : InvestmentTransaction) : ℕ ×ₗ ℕ := toLex (i.tradeDate, i.transaction.pk)

/-- dated on or before the date, if there is one -/
def onOrBefore (asOfDate : Option Date) (i : InvestmentTransaction) : Prop := ∀ d ∈ asOfDate, i.tradeDate ≤ d

instance (asOfDate : Option Date) (i : InvestmentTransaction) : Decidable (onOrBefore asOfDate i) :=
  inferInstanceAs (Decidable (∀ d ∈ asOfDate, _))

/-- `_transactions` -/
def transactions (db : Db) (account : ℕ) (security : Option ℕ) (asOfDate : Option Date) : List InvestmentTransaction :=
  orderBy replayKey
    (db.investments.filter fun i => i.account = account ∧ (∀ s ∈ security, i.security = s) ∧ onOrBefore asOfDate i)

/-- `_rate_to_account` -/
def rateToAccount (db : Db) (i : InvestmentTransaction) : Option ℚ :=
  if i.currency = (db.account i.account).currency then some 1 else i.exchangeRate

/-! ## Holdings -/

/-- the running totals of `_calculate_from_items` -/
structure Replay where
  quantity : ℚ
  nativeCost : ℚ
  baseCost : ℚ
  realized : ℚ
  realizedBase : ℚ
deriving DecidableEq, Repr

structure HoldingSnapshot where
  security : ℕ
  quantity : ℚ
  totalCostBasis : ℚ
  averageCost : ℚ
  nativeCurrency : ℕ
  baseCostBasis : ℚ
  realizedGain : ℚ
  realizedGainBase : ℚ
deriving DecidableEq, Repr

def acquisitionCost (i : InvestmentTransaction) : ℚ := i.grossAmount + i.fees + i.taxes

def netProceeds (i : InvestmentTransaction) : ℚ := i.grossAmount - i.fees - i.taxes

/-- one pass of the loop in `_calculate_from_items` -/
def replayItem (db : Db) (symbol : String) (s : Replay) (i : InvestmentTransaction) : Except Error Replay :=
  match i.transactionType with
  | .buy => do
    let q ← notNone i.quantity
    let rate ← notNone (rateToAccount db i)
    .ok { s with
      quantity := s.quantity + q
      nativeCost := s.nativeCost + acquisitionCost i
      baseCost := s.baseCost + acquisitionCost i * rate }
  | .sell => do
    let q ← notNone i.quantity
    if s.quantity < q then .error (.message (.historicalOversell symbol q s.quantity))
    else if s.quantity = 0 then .error .decimal
    else do
      let allocatedNative := s.nativeCost / s.quantity * q
      let allocatedBase := s.baseCost / s.quantity * q
      let rate ← notNone (rateToAccount db i)
      let quantity := s.quantity - q
      .ok {
        quantity := quantity
        nativeCost := if quantity = 0 then 0 else s.nativeCost - allocatedNative
        baseCost := if quantity = 0 then 0 else s.baseCost - allocatedBase
        realized := s.realized + (netProceeds i - allocatedNative)
        realizedBase := s.realizedBase + (netProceeds i * rate - allocatedBase) }
  | _ => .ok s

def Replay.empty : Replay := ⟨0, 0, 0, 0, 0⟩

def replay (db : Db) (security : ℕ) (s : Replay) (items : List InvestmentTransaction) : Except Error Replay :=
  items.foldlM (replayItem db (db.security security).symbol) s

def snapshot (db : Db) (security : ℕ) (s : Replay) : HoldingSnapshot where
  security := security
  quantity := s.quantity
  totalCostBasis := s.nativeCost
  averageCost := if s.quantity = 0 then 0 else s.nativeCost / s.quantity
  nativeCurrency := (db.security security).currency
  baseCostBasis := s.baseCost
  realizedGain := s.realized
  realizedGainBase := s.realizedBase

/-- `_calculate_from_items` -/
def calculateFromItems (db : Db) (security : ℕ) (items : List InvestmentTransaction) : Except Error HoldingSnapshot := do
  let s ← replay db security .empty items
  .ok (snapshot db security s)

def calculateHolding (db : Db) (account security : ℕ) (asOfDate : Option Date) :
    Except Error HoldingSnapshot :=
  calculateFromItems db security (transactions db account (some security) asOfDate)

/-- the keys of `grouped`, in the order in which they were first met -/
def groupKeys (items : List InvestmentTransaction) : List ℕ := distinct (items.map (·.security))

def calculateHoldings (db : Db) (account : ℕ) (asOfDate : Option Date) (includeClosed : Bool) :
    Except Error (List HoldingSnapshot) := do
  let items := transactions db account none asOfDate
  let snapshots ← (orderBy (fun s => (db.security s).symbol) (groupKeys items)).mapM fun s =>
    calculateFromItems db s (items.filter fun i => i.security = s)
  .ok (if includeClosed then snapshots else snapshots.filter fun h => h.quantity ≠ 0)

def calculateHoldingQuantity (db : Db) (account security : ℕ) (asOfDate : Option Date) : Except Error ℚ := do
  let holding ← calculateHolding db account security asOfDate
  .ok holding.quantity

/-! ## Realized gains -/

structure RealizedGainEvent where
  investmentTransaction : InvestmentTransaction
  netProceeds : ℚ
  allocatedCostBasis : ℚ
  gain : ℚ
  netProceedsBase : ℚ
  allocatedCostBasisBase : ℚ
  gainBase : ℚ
deriving DecidableEq, Repr

/-- an entry of `positions` -/
structure Lot where
  quantity : ℚ
  nativeCost : ℚ
  baseCost : ℚ
deriving DecidableEq, Repr

/-- `positions` (absent securities at their default) and `events` -/
structure GainReplay where
  positions : ℕ → Lot
  events : List RealizedGainEvent

/-- one pass of the loop in `calculate_realized_gain_events` -/
def gainItem (db : Db) (account : ℕ) (s : GainReplay) (i : InvestmentTransaction) : Except Error GainReplay := do
  let lot := s.positions i.security
  let rate := if i.currency = (db.account account).currency then some 1 else i.exchangeRate
  let q ← notNone i.quantity
  if i.transactionType = .buy then do
    let rate ← notNone rate
    let acquired : Lot :=
      ⟨lot.quantity + q, lot.nativeCost + acquisitionCost i, lot.baseCost + acquisitionCost i * rate⟩
    .ok { s with positions := Function.update s.positions i.security acquired }
  else if lot.quantity < q ∨ lot.quantity = 0 then
    let symbol := (db.security i.security).symbol
    .error (.message (.text
      s!"Capital gain calculation is incomplete because cost basis is unavailable for {symbol}."))
  else do
    let allocated := lot.nativeCost / lot.quantity * q
    let allocatedBase := lot.baseCost / lot.quantity * q
    let rate ← notNone rate
    let netBase := netProceeds i * rate
    let remaining := lot.quantity - q
    let left : Lot :=
      ⟨remaining, if remaining = 0 then 0 else lot.nativeCost - allocated,
        if remaining = 0 then 0 else lot.baseCost - allocatedBase⟩
    .ok {
      positions := Function.update s.positions i.security left
      events := s.events ++ [{
        investmentTransaction := i
        netProceeds := netProceeds i
        allocatedCostBasis := allocated
        gain := netProceeds i - allocated
        netProceedsBase := netBase
        allocatedCostBasisBase := allocatedBase
        gainBase := netBase - allocatedBase }] }

def GainReplay.empty : GainReplay := ⟨fun _ => ⟨0, 0, 0⟩, []⟩

def isTrade (i : InvestmentTransaction) : Prop := i.transactionType = .buy ∨ i.transactionType = .sell

instance (i : InvestmentTransaction) : Decidable (isTrade i) := inferInstanceAs (Decidable (_ ∨ _))

/-- the queryset of `calculate_realized_gain_events` -/
def trades (db : Db) (account : ℕ) (asOfDate : Option Date) : List InvestmentTransaction :=
  orderBy replayKey (db.investments.filter fun i => i.account = account ∧ isTrade i ∧ onOrBefore asOfDate i)

def calculateRealizedGainEvents (db : Db) (account : ℕ) (asOfDate : Option Date) :
    Except Error (List RealizedGainEvent) := do
  let s ← (trades db account asOfDate).foldlM (gainItem db account) .empty
  .ok s.events

end Vault67.Investments
