/-
`investments/views.py`: the portfolio page, the page of a security, and what they total.

The reporting currency is the row that has DEFAULT_CURRENCY as its code, none when there is no such row; the accounts are
in the order of their keys.

- `valuation_spec`: the amounts of one account's valuation, in terms of its rows.
- `portfolio_page`: the portfolio page is shown exactly when every account can be replayed, and it adds up.
- `pages_agree`: a complete portfolio is the sum of the pages of its securities.
-/
import Mathlib.Tactic
import Vault67.Investments.PortfolioTotals

namespace Vault67.Investments

open Fallible Ledger Machine OrderBy Rows

/-! ## Pages -/

structure PortfolioSummary where
  reportingCurrency : Option ℕ
  complete : Bool
  totalAccountValue : Option ℚ
  cash : Option ℚ
  costBasis : Option ℚ
  unrealizedGain : Option ℚ
  realizedGain : Option ℚ
deriving DecidableEq, Repr

structure PortfolioPage where
  valuations : List PortfolioValuation
  accounts : List ℕ
  recentTransactions : List InvestmentTransaction
  summary : PortfolioSummary

structure SecurityPosition where
  account : ℕ
  valuation : HoldingValuation

structure PositionSummary where
  currency : Option ℕ
  quantity : ℚ
  marketValue : Option ℚ
  costBasis : Option ℚ
  unrealizedGain : Option ℚ
deriving DecidableEq, Repr

structure SecurityPage where
  positions : List SecurityPosition
  positionSummary : PositionSummary
  latestPrice : Option SecurityPrice

/-- `sum` over amounts, a TypeError when one of them is None -/
def sumAmounts (amounts : List (Option ℚ)) : Except Error ℚ := do
  let xs ← amounts.mapM notNone
  .ok xs.sum

/-- a total of complete amounts, else None -/
def sumWhen (complete : Bool) (amounts : List (Option ℚ)) : Except Error (Option ℚ) :=
  if complete then (sumAmounts amounts).map some else .ok none

def brokerageAccounts (db : Db) (user : ℕ) : List ℕ :=
  db.accountIds.filter fun i => (db.account i).owner = user ∧ (db.account i).accountType = .brokerage

section Views

variable (db : Db) (fx : Fx) (market : Market) (user : ℕ) (reportingCurrency : Option ℕ)

/-- the valuation of an account in the reporting currency, or in its own -/
def valuationOf (account : ℕ) : Except Error PortfolioValuation :=
  calculatePortfolioValue db fx market account none
    (some (reportingCurrency.getD (db.account account).currency))

/-- the newest ten -/
def recentTransactions : List InvestmentTransaction :=
  (orderBy (fun i => OrderDual.toDual (replayKey i))
    (db.investments.filter fun i => (db.account i.account).owner = user)).take 10

/-- `PortfolioView` -/
def portfolioView : Except Error PortfolioPage := do
  let accounts := (brokerageAccounts db user).filter fun i => (db.account i).active
  let valuations ← accounts.mapM (valuationOf db fx market reportingCurrency)
  let complete := valuations.all fun value => value.complete
  let totalAccountValue ←
    sumWhen (complete && reportingCurrency.isSome) (valuations.map fun value => value.totalAccountValue)
  let cash ← sumWhen complete (valuations.map fun value => value.cashBalance)
  let costBasis ← sumWhen complete (valuations.map fun value => value.costBasis)
  let unrealizedGain ← sumWhen complete (valuations.map fun value => value.unrealizedGain)
  let realizedGain ← sumWhen complete (valuations.map fun value => value.realizedGain)
  .ok ⟨valuations, accounts, recentTransactions db user,
    ⟨reportingCurrency, complete, totalAccountValue, cash, costBasis, unrealizedGain, realizedGain⟩⟩

/-- the first row of the security -/
def positionIn (security account : ℕ) : Except Error (Option SecurityPosition) := do
  let valuation ← valuationOf db fx market reportingCurrency account
  .ok ((valuation.holdings.find? fun row => row.holding.security = security).map fun row => ⟨account, row⟩)

/-- `SecurityDetailView`; accounts are archived ones too -/
def securityDetailView (security : ℕ) : Except Error SecurityPage := do
  let rows ← (brokerageAccounts db user).mapM (positionIn db fx market reportingCurrency security)
  let positions := rows.reduceOption
  let complete := positions.all fun position => position.valuation.marketValue.isSome
  let marketValue ← sumWhen complete (positions.map fun position => position.valuation.marketValue)
  let costBasis ← sumWhen complete (positions.map fun position => position.valuation.costBasis)
  let unrealizedGain ← sumWhen complete (positions.map fun position => position.valuation.unrealizedGain)
  let quantity := (positions.map fun position => position.valuation.holding.quantity).sum
  .ok ⟨positions, ⟨reportingCurrency, quantity, marketValue, costBasis, unrealizedGain⟩,
    getLatestPrice market fx.today security none⟩

end Views

variable {db : Db} {fx : Fx} {market : Market} {user : ℕ} {reportingCurrency : Option ℕ} {account : ℕ}
  {hs : List HoldingSnapshot} {v : PortfolioValuation}

/-! ## Sums -/

theorem sumAmounts_ok {amounts : List (Option ℚ)} (h : ∀ x ∈ amounts, x.isSome) :
    sumAmounts amounts = .ok (amounts.map fun x => x.getD 0).sum := by
  have hvalues : amounts.mapM notNone = .ok (amounts.map fun x => x.getD 0) := by
    rw [mapM_ok_iff, List.forall₂_map_right_iff, List.forall₂_same]
    intro x hx
    obtain ⟨a, rfl⟩ := Option.isSome_iff_exists.1 (h x hx)
    rfl
  rw [sumAmounts, hvalues]
  rfl

/-- no None is read -/
theorem sumWhen_ok {complete : Bool} {amounts : List (Option ℚ)} (h : complete → ∀ x ∈ amounts, x.isSome) :
    sumWhen complete amounts = .ok (if complete then some (amounts.map fun x => x.getD 0).sum else none) := by
  cases complete with
  | false => rfl
  | true =>
    rw [sumWhen, if_pos rfl, sumAmounts_ok (h rfl)]
    rfl

/-! ## One account -/

/-- the amounts of a complete valuation are those of its rows -/
structure Totalled (db : Db) (fx : Fx) (account target : ℕ) (v : PortfolioValuation) : Prop where
  rows : ∀ row ∈ v.holdings, row.marketValue.isSome
  cost_basis : v.costBasis = some (v.holdings.map fun row => row.costBasis.getD 0).sum
  unrealized_gain : v.unrealizedGain = some (v.holdings.map fun row => row.unrealizedGain.getD 0).sum
  realized_gain : v.realizedGain.isSome
  total : ∃ rate, getFxRate fx (db.account account).currency target none = .ok rate ∧
    v.cashBalance = some (accountBalance db account none * rate) ∧
    v.totalAccountValue = some (accountBalance db account none * rate +
      (v.holdings.map fun row => row.marketValue.getD 0).sum)

/-- a valuation has the open holdings in its rows, and a row with a market value has a cost and a gain -/
structure Valued (db : Db) (fx : Fx) (account target : ℕ) (hs : List HoldingSnapshot) (v : PortfolioValuation) :
    Prop where
  holdings : v.holdings.map HoldingValuation.holding = openHoldings hs
  priced : ∀ row ∈ v.holdings, row.marketValue.isSome →
    ∃ x k, row.marketValue = some x ∧ row.costBasis = some k ∧ row.unrealizedGain = some (x - k)
  complete : v.complete → Totalled db fx account target v

theorem holdingRow_priced {target : ℕ} {holding : HoldingSnapshot} {x rate : ℚ}
    (hrate : getFxRate fx (db.account account).currency target none = .ok rate)
    (h : (holdingRow db fx market account none target holding).marketValue = some x) :
    (holdingRow db fx market account none target holding).costBasis = some (holding.baseCostBasis * rate) ∧
      (holdingRow db fx market account none target holding).unrealizedGain = some (x - holding.baseCostBasis * rate) := by
  refine ⟨?_, (holdingRow_amounts hrate h).1⟩
  unfold holdingRow at h ⊢
  cases hprice : getLatestPrice market fx.today holding.security none with
  | none =>
    rw [hprice] at h
    cases h
  | some price =>
    rw [hprice] at h
    dsimp only at h ⊢
    cases hconvert : convertHolding db fx account none target holding price with
    | error exc =>
      rw [hconvert] at h
      cases h
    | ok p =>
      obtain ⟨-, -, rate', hrate', -, hcost⟩ := convertHolding_ok_iff.1 hconvert
      rw [hrate] at hrate'
      cases hrate'
      exact congrArg some hcost

/-- what a returned valuation was made from -/
theorem portfolioOf_ok {target : ℕ} {s : Totals} {converted : Except MissingExchangeRate (ℚ × ℚ × ℚ)}
    (h : portfolioOf market account target s converted = .ok v) :
    v.holdings = allocateRows s.totalMarket s.rows ∧
      (v.complete → s.complete ∧ v.marketValue = some s.totalMarket ∧
        ∃ cash cost realized, converted = .ok (cash, cost, realized) ∧ v.cashBalance = some cash ∧
          v.costBasis = some cost ∧ v.realizedGain = some realized ∧ v.unrealizedGain = some (s.totalMarket - cost) ∧
          v.totalAccountValue = some (cash + s.totalMarket)) := by
  simp only [portfolioOf, bind_eq_ok, Except.ok.injEq] at h
  obtain ⟨unrealized, hunrealized, total, htotal, values, -, rfl⟩ := h
  refine ⟨rfl, fun hdone => ?_⟩
  obtain ⟨hs, hok⟩ := Bool.and_eq_true_iff.1 hdone
  obtain ⟨⟨cash, cost, realized⟩, rfl⟩ := exists_ok_of_isOk hok
  rw [whenComplete, if_pos hdone] at hunrealized htotal
  cases hunrealized
  cases htotal
  exact ⟨hs, if_pos hdone, cash, cost, realized, rfl, rfl, rfl, rfl, rfl, rfl⟩

theorem holdingRow_sums {target : ℕ} {rate : ℚ}
    (hrate : getFxRate fx (db.account account).currency target none = .ok rate) {holdings : List HoldingSnapshot}
    (hvalued : ∀ h ∈ holdings, (holdingRow db fx market account none target h).marketValue.isSome) :
    (holdings.map fun h => (holdingRow db fx market account none target h).costBasis.getD 0).sum =
        (holdings.map HoldingSnapshot.baseCostBasis).sum * rate ∧
      (holdings.map fun h => (holdingRow db fx market account none target h).unrealizedGain.getD 0).sum =
        (holdings.map fun h => (holdingRow db fx market account none target h).marketValue.getD 0).sum -
          (holdings.map HoldingSnapshot.baseCostBasis).sum * rate := by
  induction holdings with
  | nil => simp
  | cons h holdings ih =>
    obtain ⟨hfirst, hrest⟩ := List.forall_mem_cons.1 hvalued
    obtain ⟨x, hx⟩ := Option.isSome_iff_exists.1 hfirst
    obtain ⟨hk, hg⟩ := holdingRow_priced hrate hx
    obtain ⟨ihk, ihg⟩ := ih hrest
    simp only [List.map_cons, List.sum_cons, hk, hg, hx, Option.getD_some, ihk, ihg]
    exact ⟨by ring, by ring⟩

/-- the loop over the open holdings, from its start -/
theorem totalsOf_eq (db : Db) (fx : Fx) (market : Market) (account target : ℕ) (hs : List HoldingSnapshot) :
    let row := holdingRow db fx market account none target
    let s := totalsOf db fx market account none target hs
    s.rows = (openHoldings hs).map row ∧ (s.complete → ∀ h ∈ openHoldings hs, (row h).marketValue.isSome) ∧
      s.totalMarket = ((openHoldings hs).map fun h => (row h).marketValue.getD 0).sum ∧
      s.totalCost = ((openHoldings hs).map HoldingSnapshot.baseCostBasis).sum := by
  intro row s
  obtain ⟨hrows, hdone, hmarket, hcost⟩ := foldl_valueHolding db fx market account none target {} (openHoldings hs)
  rw [List.nil_append] at hrows
  rw [zero_add] at hmarket hcost
  refine ⟨hrows, fun hs_done => ?_, hmarket, hcost⟩
  rw [show s.complete = _ from hdone, Bool.true_and, List.all_eq_true] at hs_done
  exact hs_done

section Rows

variable {target : ℕ} {total : ℚ} {holdings : List HoldingSnapshot}

/-- its percentage aside, a row is that of its holding -/
theorem map_allocated {β : Type} (f : HoldingValuation → β)
    (hf : ∀ row percent, f { row with allocationPercent := percent } = f row)
    (hv : v.holdings = allocateRows total (holdings.map (holdingRow db fx market account none target))) :
    v.holdings.map f = holdings.map fun h => f (holdingRow db fx market account none target h) := by
  rw [hv, allocateRows_map f hf, List.map_map]
  rfl

theorem holding_of_row
    (hv : v.holdings = allocateRows total (holdings.map (holdingRow db fx market account none target)))
    {row : HoldingValuation} (hrow : row ∈ v.holdings) : ∃ h ∈ holdings,
      (holdingRow db fx market account none target h).marketValue = row.marketValue ∧
      (holdingRow db fx market account none target h).costBasis = row.costBasis ∧
      (holdingRow db fx market account none target h).unrealizedGain = row.unrealizedGain := by
  have hmem : (row.marketValue, row.costBasis, row.unrealizedGain) ∈
      v.holdings.map fun row => (row.marketValue, row.costBasis, row.unrealizedGain) := List.mem_map_of_mem hrow
  rw [map_allocated _ (fun _ _ => rfl) hv] at hmem
  obtain ⟨h, hh, heq⟩ := List.mem_map.1 hmem
  simp only [Prod.mk.injEq] at heq
  exact ⟨h, hh, heq⟩

/-- a row with a market value has a cost and a gain, whether its valuation is complete or not -/
theorem row_priced
    (hv : v.holdings = allocateRows total (holdings.map (holdingRow db fx market account none target)))
    {row : HoldingValuation} (hrow : row ∈ v.holdings) (hsome : row.marketValue.isSome) :
    ∃ x k, row.marketValue = some x ∧ row.costBasis = some k ∧ row.unrealizedGain = some (x - k) := by
  obtain ⟨h, -, hvalue, hk, hg⟩ := holding_of_row hv hrow
  rw [← hvalue] at hsome
  obtain ⟨x, hx⟩ := Option.isSome_iff_exists.1 hsome
  obtain ⟨rate, hrate⟩ := ((holdingRow_isSome_iff h).1 hsome).account
  obtain ⟨hk', hg'⟩ := holdingRow_priced hrate hx
  exact ⟨x, _, hvalue.symm.trans hx, hk.symm.trans hk', hg.symm.trans hg'⟩

/-- the rows' amounts, all converted at one rate -/
theorem row_sums (hv : v.holdings = allocateRows total (holdings.map (holdingRow db fx market account none target)))
    {rate : ℚ} (hrate : getFxRate fx (db.account account).currency target none = .ok rate)
    (hvalued : ∀ h ∈ holdings, (holdingRow db fx market account none target h).marketValue.isSome) :
    (∀ row ∈ v.holdings, row.marketValue.isSome) ∧
      (v.holdings.map fun row => row.marketValue.getD 0).sum =
        (holdings.map fun h => (holdingRow db fx market account none target h).marketValue.getD 0).sum ∧
      (v.holdings.map fun row => row.costBasis.getD 0).sum = (holdings.map HoldingSnapshot.baseCostBasis).sum * rate ∧
      (v.holdings.map fun row => row.unrealizedGain.getD 0).sum =
        (v.holdings.map fun row => row.marketValue.getD 0).sum -
          (holdings.map HoldingSnapshot.baseCostBasis).sum * rate := by
  obtain ⟨hk, hg⟩ := holdingRow_sums hrate hvalued
  have hm := congrArg List.sum (map_allocated (fun row => row.marketValue.getD 0) (fun _ _ => rfl) hv)
  refine ⟨fun row hrow => ?_, hm, ?_, ?_⟩
  · obtain ⟨h, hh, hvalue, -⟩ := holding_of_row hv hrow
    rw [← hvalue]
    exact hvalued h hh
  · rw [map_allocated _ (fun _ _ => rfl) hv, hk]
  · rw [hm, map_allocated _ (fun _ _ => rfl) hv, hg]

end Rows

/-- **One valuation.** It is returned when the account can be replayed, with a row for each open holding and the
account's cash. -/
theorem valuation_spec (fx : Fx) (market : Market) (reportingCurrency : Option ℕ)
    (hreplay : calculateHoldings db account none true = .ok hs) :
    ∃ v, valuationOf db fx market reportingCurrency account = .ok v ∧
      Valued db fx account (reportingCurrency.getD (db.account account).currency) hs v := by
  set target := reportingCurrency.getD (db.account account).currency
  obtain ⟨v, hv, -⟩ := portfolio_returned fx market (some target) hreplay
  refine ⟨v, hv, ?_⟩
  rw [calculatePortfolioValue_eq fx market (some target) hreplay, Option.getD_some] at hv
  obtain ⟨hholdings, hcomplete⟩ := portfolioOf_ok hv
  obtain ⟨hrows, hdone, hmarket, hcost⟩ := totalsOf_eq db fx market account target hs
  rw [hrows] at hholdings
  refine ⟨?_, fun row hrow => row_priced hholdings hrow, fun hv => ?_⟩
  · rw [map_allocated _ (fun _ _ => rfl) hholdings]
    exact (List.map_congr_left fun h _ => holdingRow_holding h).trans (List.map_id _)
  · obtain ⟨hall, -, cash, cost, realized, hconverted, hcash, hcostBasis, hrealized, hgain, htotal⟩ := hcomplete hv
    cases hrate : getFxRate fx (db.account account).currency target none with
    | error exc =>
      rw [hrate] at hconverted
      cases hconverted
    | ok rate =>
      rw [hrate] at hconverted
      cases hconverted
      obtain ⟨hvalued, hm, hk, hg⟩ := row_sums hholdings hrate (hdone hall)
      rw [← hmarket] at hm
      constructor
      case rows => exact hvalued
      case cost_basis => rw [hcostBasis, hcost, hk]
      case unrealized_gain => rw [hgain, hcost, hg, hm]
      case realized_gain => rw [hrealized]; rfl
      case total => exact ⟨rate, hrate, hcash, by rw [htotal, hm]⟩

/-! ## The portfolio page -/

/-- the rows of an account, none when it cannot be replayed -/
def rowsOf (db : Db) (fx : Fx) (market : Market) (reportingCurrency : Option ℕ) (account : ℕ) :
    List HoldingValuation :=
  ((valuationOf db fx market reportingCurrency account).toOption.map PortfolioValuation.holdings).getD []

/-- the cash of an account in the reporting currency -/
def cashOf (db : Db) (fx : Fx) (reportingCurrency : Option ℕ) (account : ℕ) : ℚ :=
  accountBalance db account none *
    (accountConversion db fx account none (reportingCurrency.getD (db.account account).currency)).getD 0

/-- the summary agrees with the rows of the accounts, or it is empty -/
structure PortfolioPage.AddsUp (db : Db) (fx : Fx) (page : PortfolioPage) : Prop where
  complete_iff : page.summary.complete ↔ ∀ v ∈ page.valuations, v.complete
  incomplete : page.summary.complete = false → page.summary.totalAccountValue = none ∧ page.summary.cash = none ∧
    page.summary.costBasis = none ∧ page.summary.unrealizedGain = none ∧ page.summary.realizedGain = none
  rows : page.summary.complete → ∀ v ∈ page.valuations, ∀ row ∈ v.holdings, row.marketValue.isSome
  cost_basis : page.summary.complete → page.summary.costBasis =
    some ((page.valuations.flatMap PortfolioValuation.holdings).map fun row => row.costBasis.getD 0).sum
  unrealized_gain : page.summary.complete → page.summary.unrealizedGain =
    some ((page.valuations.flatMap PortfolioValuation.holdings).map fun row => row.unrealizedGain.getD 0).sum
  cash : page.summary.complete → page.summary.cash =
    some (page.accounts.map (cashOf db fx page.summary.reportingCurrency)).sum
  total : page.summary.complete → page.summary.totalAccountValue = page.summary.reportingCurrency.map fun _ =>
    (page.accounts.map (cashOf db fx page.summary.reportingCurrency)).sum +
      ((page.valuations.flatMap PortfolioValuation.holdings).map fun row => row.marketValue.getD 0).sum

/-- the totals of several accounts -/
theorem totalled_sums {accounts : List ℕ} {vs : List PortfolioValuation}
    (h : List.Forall₂ (fun a v => Totalled db fx a (reportingCurrency.getD (db.account a).currency) v) accounts vs) :
    ((∀ v ∈ vs, v.cashBalance.isSome) ∧ (∀ v ∈ vs, v.costBasis.isSome) ∧ (∀ v ∈ vs, v.unrealizedGain.isSome) ∧
      (∀ v ∈ vs, v.realizedGain.isSome) ∧ ∀ v ∈ vs, v.totalAccountValue.isSome) ∧
    (vs.map fun v => v.cashBalance.getD 0).sum = (accounts.map (cashOf db fx reportingCurrency)).sum ∧
    (vs.map fun v => v.costBasis.getD 0).sum =
      ((vs.flatMap PortfolioValuation.holdings).map fun row => row.costBasis.getD 0).sum ∧
    (vs.map fun v => v.unrealizedGain.getD 0).sum =
      ((vs.flatMap PortfolioValuation.holdings).map fun row => row.unrealizedGain.getD 0).sum ∧
    (vs.map fun v => v.totalAccountValue.getD 0).sum = (accounts.map (cashOf db fx reportingCurrency)).sum +
      ((vs.flatMap PortfolioValuation.holdings).map fun row => row.marketValue.getD 0).sum := by
  induction h with
  | nil => simp
  | @cons a v accounts vs hv _ ih =>
    obtain ⟨⟨ihcash, ihcost, ihgain, ihrealized, ihtotal⟩, icash, icost, igain, itotal⟩ := ih
    obtain ⟨rate, hrate, hcash, htotal⟩ := hv.total
    have hown : cashOf db fx reportingCurrency a = accountBalance db a none * rate := by
      rw [cashOf, accountConversion, hrate]
      rfl
    refine ⟨⟨?_, ?_, ?_, ?_, ?_⟩, ?_, ?_, ?_, ?_⟩
    · exact List.forall_mem_cons.2 ⟨by rw [hcash]; rfl, ihcash⟩
    · exact List.forall_mem_cons.2 ⟨by rw [hv.cost_basis]; rfl, ihcost⟩
    · exact List.forall_mem_cons.2 ⟨by rw [hv.unrealized_gain]; rfl, ihgain⟩
    · exact List.forall_mem_cons.2 ⟨hv.realized_gain, ihrealized⟩
    · exact List.forall_mem_cons.2 ⟨by rw [htotal]; rfl, ihtotal⟩
    · rw [List.map_cons, List.sum_cons, List.map_cons, List.sum_cons, icash, hcash, hown]
      rfl
    · rw [List.map_cons, List.sum_cons, List.flatMap_cons, List.map_append, List.sum_append, icost, hv.cost_basis]
      rfl
    · rw [List.map_cons, List.sum_cons, List.flatMap_cons, List.map_append, List.sum_append, igain, hv.unrealized_gain]
      rfl
    · rw [List.map_cons, List.sum_cons, List.flatMap_cons, List.map_append, List.sum_append, itotal, htotal,
        List.map_cons, List.sum_cons, hown, Option.getD_some]
      ring

/-- the valuations of accounts that can be replayed -/
theorem valuations_spec (fx : Fx) (market : Market) (reportingCurrency : Option ℕ) {accounts : List ℕ}
    (hreplay : ∀ account ∈ accounts, ∃ hs, calculateHoldings db account none true = .ok hs) :
    ∃ vs, accounts.mapM (valuationOf db fx market reportingCurrency) = .ok vs ∧
      List.Forall₂ (fun a v => valuationOf db fx market reportingCurrency a = .ok v ∧ ∃ hs,
        calculateHoldings db a none true = .ok hs ∧
          Valued db fx a (reportingCurrency.getD (db.account a).currency) hs v) accounts vs := by
  obtain ⟨vs, hvs⟩ := exists_mapM_ok_iff.2 fun account haccount => by
    obtain ⟨hs, hhs⟩ := hreplay account haccount
    obtain ⟨v, hv, -⟩ := valuation_spec fx market reportingCurrency hhs
    exact ⟨v, hv⟩
  refine ⟨vs, hvs, forall₂_imp (fun account haccount v _ hv => ?_) (mapM_ok_iff.1 hvs)⟩
  obtain ⟨hs, hhs⟩ := hreplay account haccount
  obtain ⟨v', hv', hvalued⟩ := valuation_spec fx market reportingCurrency hhs
  rw [hv] at hv'
  cases hv'
  exact ⟨hv, hs, hhs, hvalued⟩

/-- a page of accounts that can be replayed adds up -/
theorem portfolioView_spec (fx : Fx) (market : Market) (reportingCurrency : Option ℕ)
    (hreplay : ∀ account ∈ brokerageAccounts db user, (db.account account).active →
      ∃ hs, calculateHoldings db account none true = .ok hs) :
    ∃ page, portfolioView db fx market user reportingCurrency = .ok page ∧ page.AddsUp db fx ∧
      page.summary.reportingCurrency = reportingCurrency ∧
      List.Forall₂ (fun a v => valuationOf db fx market reportingCurrency a = .ok v) page.accounts page.valuations ∧
      page.accounts = (brokerageAccounts db user).filter fun i => (db.account i).active := by
  set accounts := (brokerageAccounts db user).filter fun i => (db.account i).active
  have hactive : ∀ account ∈ accounts, ∃ hs, calculateHoldings db account none true = .ok hs := by
    intro account hin
    obtain ⟨hmem, hactive⟩ := List.mem_filter.1 hin
    exact hreplay account hmem hactive
  obtain ⟨vs, hvs, hvalued⟩ := valuations_spec fx market reportingCurrency hactive
  set complete := vs.all fun value => value.complete with hcomplete
  have htotalled : complete = true →
      List.Forall₂ (fun a v => Totalled db fx a (reportingCurrency.getD (db.account a).currency) v) accounts vs := by
    intro hall
    rw [hcomplete, List.all_eq_true] at hall
    refine forall₂_imp (fun a _ v hv h => ?_) hvalued
    obtain ⟨-, hs, -, hvalued⟩ := h
    exact hvalued.complete (hall v hv)
  -- a complete page reads no None
  have htotal : ∀ (done : Bool) (field : PortfolioValuation → Option ℚ), (done → ∀ v ∈ vs, (field v).isSome) →
      sumWhen done (vs.map field) = .ok (if done then some (vs.map fun v => (field v).getD 0).sum else none) := by
    intro done field hfield
    rw [sumWhen_ok fun hdone x hx => ?_, List.map_map]
    · rfl
    · obtain ⟨v, hv, rfl⟩ := List.mem_map.1 hx
      exact hfield hdone v hv
  have hvalue := htotal (complete && reportingCurrency.isSome) PortfolioValuation.totalAccountValue fun h =>
    (totalled_sums (htotalled (Bool.and_eq_true_iff.1 h).1)).1.2.2.2.2
  have hcash := htotal complete PortfolioValuation.cashBalance fun h => (totalled_sums (htotalled h)).1.1
  have hcost := htotal complete PortfolioValuation.costBasis fun h => (totalled_sums (htotalled h)).1.2.1
  have hgain := htotal complete PortfolioValuation.unrealizedGain fun h => (totalled_sums (htotalled h)).1.2.2.1
  have hrealized := htotal complete PortfolioValuation.realizedGain fun h => (totalled_sums (htotalled h)).1.2.2.2.1
  refine ⟨⟨vs, accounts, recentTransactions db user, ⟨reportingCurrency, complete, _, _, _, _, _⟩⟩,
    bind_eq_ok.2 ⟨vs, hvs, bind_eq_ok.2 ⟨_, hvalue, bind_eq_ok.2 ⟨_, hcash, bind_eq_ok.2 ⟨_, hcost,
      bind_eq_ok.2 ⟨_, hgain, bind_eq_ok.2 ⟨_, hrealized, rfl⟩⟩⟩⟩⟩⟩, ?_, rfl, ?_, rfl⟩
  · constructor
    case complete_iff => exact List.all_eq_true
    case incomplete =>
      intro hnot
      change complete = false at hnot
      simp [hnot]
    case rows =>
      intro hdone v hv row hrow
      obtain ⟨a, -, htotalled⟩ := exists_of_mem_right (htotalled hdone) hv
      exact htotalled.rows row hrow
    case cost_basis =>
      intro hdone
      obtain ⟨-, -, hsum, -⟩ := totalled_sums (htotalled hdone)
      exact (if_pos hdone).trans (congrArg some hsum)
    case unrealized_gain =>
      intro hdone
      obtain ⟨-, -, -, hsum, -⟩ := totalled_sums (htotalled hdone)
      exact (if_pos hdone).trans (congrArg some hsum)
    case cash =>
      intro hdone
      obtain ⟨-, hsum, -⟩ := totalled_sums (htotalled hdone)
      exact (if_pos hdone).trans (congrArg some hsum)
    case total =>
      intro hdone
      obtain ⟨-, -, -, -, hsum⟩ := totalled_sums (htotalled hdone)
      cases reportingCurrency with
      | none => exact if_neg (by simp)
      | some target => exact (if_pos (by simpa using hdone)).trans (congrArg some hsum)
  · exact forall₂_imp (fun _ _ _ _ h => h.1) hvalued

/-- **The portfolio page.** It is shown exactly when every active brokerage account can be replayed. Then no None is read,
and the summary is that of the rows, or it is empty. -/
theorem portfolio_page (db : Db) (fx : Fx) (market : Market) (user : ℕ) (reportingCurrency : Option ℕ) :
    ((∃ page, portfolioView db fx market user reportingCurrency = .ok page) ↔
      ∀ account ∈ brokerageAccounts db user, (db.account account).active →
        ∃ hs, calculateHoldings db account none true = .ok hs) ∧
    ∀ page, portfolioView db fx market user reportingCurrency = .ok page → page.AddsUp db fx := by
  have hreplayed : ∀ page, portfolioView db fx market user reportingCurrency = .ok page →
      ∀ account ∈ brokerageAccounts db user, (db.account account).active →
        ∃ hs, calculateHoldings db account none true = .ok hs := by
    intro page hpage account hin hactive
    obtain ⟨vs, hvs, -⟩ := bind_eq_ok.1 hpage
    obtain ⟨v, hv⟩ := exists_mapM_ok_iff.1 ⟨vs, hvs⟩ account (List.mem_filter.2 ⟨hin, hactive⟩)
    obtain ⟨hs, hhs, -⟩ := bind_eq_ok.1 hv
    exact ⟨hs, hhs⟩
  refine ⟨⟨fun h => hreplayed h.choose h.choose_spec, fun hreplay => ?_⟩, fun page hpage => ?_⟩
  · obtain ⟨page, hpage, -⟩ := portfolioView_spec fx market reportingCurrency hreplay
    exact ⟨page, hpage⟩
  · obtain ⟨page', hpage', hadds, -⟩ := portfolioView_spec fx market reportingCurrency (hreplayed page hpage)
    rw [hpage] at hpage'
    cases hpage'
    exact hadds

/-- shares on two accounts, and a third account that is archived -/
def twoDepots : List Op :=
  foreignShares ++ [.createAccount 1 (plainForm .brokerage 1), .createAccount 1 (plainForm .brokerage 1),
    .createInvestmentTransaction
      { tradeAtTen .buy 50 2 with account := 1, currency := 2, exchangeRate := some (4 / 5) },
    .archiveAccount 1 2]

theorem portfolio_page_twoDepots :
    let db := run step (Db.init (fun _ => "EUR") fun _ => ⟨"ACME", 2, true⟩) twoDepots
    ∃ page, portfolioView db dollarRate sharePrice 1 (some 1) = .ok page ∧ page.summary.complete ∧
      page.AddsUp db dollarRate := by
  intro db
  obtain ⟨page, hpage, hcomplete⟩ := exists_ok_of_check
    (x := portfolioView db dollarRate sharePrice 1 (some 1)) (p := fun page => page.summary.complete = true)
    (by decide +kernel)
  exact ⟨page, hpage, hcomplete, (portfolio_page db dollarRate sharePrice 1 (some 1)).2 page hpage⟩

/-! ## The pages of the securities -/

theorem rowsOf_eq (hv : valuationOf db fx market reportingCurrency account = .ok v) :
    rowsOf db fx market reportingCurrency account = v.holdings := by
  rw [rowsOf, hv]
  rfl

/-- an account has one row for each security that it holds -/
theorem Valued.securities_nodup {target : ℕ} (h : Valued db fx account target hs v)
    (hreplay : calculateHoldings db account none true = .ok hs) :
    (v.holdings.map fun row => row.holding.security).Nodup := by
  have hkeys : (hs.map HoldingSnapshot.security).Nodup := by
    rw [(calculateHoldings_securities hreplay).1]
    exact heldSecurities_nodup db account none
  have hmap : (v.holdings.map fun row => row.holding.security) = (openHoldings hs).map HoldingSnapshot.security := by
    rw [← h.holdings, List.map_map]
    rfl
  rw [hmap]
  exact hkeys.sublist (List.filter_sublist.map _)

/-- the positions in a security are the rows of that security -/
theorem positions_eq (fx : Fx) (market : Market) (reportingCurrency : Option ℕ) (security : ℕ) {accounts : List ℕ}
    (hreplay : ∀ account ∈ accounts, ∃ hs, calculateHoldings db account none true = .ok hs) :
    ∃ ps, accounts.mapM (positionIn db fx market reportingCurrency security) = .ok ps ∧
      ps.reduceOption.map SecurityPosition.valuation =
        (accounts.flatMap (rowsOf db fx market reportingCurrency)).filter fun row => row.holding.security = security := by
  induction accounts with
  | nil => exact ⟨[], rfl, rfl⟩
  | cons a accounts ih =>
    obtain ⟨⟨hs, hhs⟩, hrest⟩ := List.forall_mem_cons.1 hreplay
    obtain ⟨ps, hps, hrows⟩ := ih hrest
    obtain ⟨v, hv, hvalued⟩ := valuation_spec fx market reportingCurrency hhs
    have hnodup := hvalued.securities_nodup hhs
    refine ⟨(v.holdings.find? fun row => row.holding.security = security).map (fun row => ⟨a, row⟩) :: ps,
      mapM_ok_iff.2 (.cons (bind_eq_ok.2 ⟨v, hv, rfl⟩) (mapM_ok_iff.1 hps)), ?_⟩
    rw [List.flatMap_cons, List.filter_append, ← hrows, rowsOf_eq hv]
    cases hfind : v.holdings.find? fun row => row.holding.security = security with
    | none =>
      have hnone := List.find?_eq_none.1 hfind
      rw [List.filter_eq_nil_iff.2 hnone]
      rfl
    | some row =>
      have hrow : row.holding.security = security := by simpa using List.find?_some hfind
      have hone := filter_key_eq hnodup (List.mem_of_find?_eq_some hfind)
      rw [hrow] at hone
      rw [hone]
      rfl

/-- the page of a security totals the rows of that security, when all of them have a market value -/
theorem securityDetailView_eq (fx : Fx) (market : Market) (reportingCurrency : Option ℕ) (security : ℕ)
    (hreplay : ∀ account ∈ brokerageAccounts db user, ∃ hs, calculateHoldings db account none true = .ok hs) :
    let rows := ((brokerageAccounts db user).flatMap (rowsOf db fx market reportingCurrency)).filter fun row =>
      row.holding.security = security
    let total := fun f : HoldingValuation → Option ℚ =>
      if rows.all fun row => row.marketValue.isSome then some (rows.map fun row => (f row).getD 0).sum else none
    ∃ page, securityDetailView db fx market user reportingCurrency security = .ok page ∧
      page.positionSummary.quantity = (rows.map fun row => row.holding.quantity).sum ∧
      page.positionSummary.marketValue = total HoldingValuation.marketValue ∧
      page.positionSummary.costBasis = total HoldingValuation.costBasis ∧
      page.positionSummary.unrealizedGain = total HoldingValuation.unrealizedGain := by
  intro rows total
  obtain ⟨ps, hps, hrows⟩ := positions_eq fx market reportingCurrency security hreplay
  change ps.reduceOption.map SecurityPosition.valuation = rows at hrows
  have hall : ps.reduceOption.all (fun position => position.valuation.marketValue.isSome) =
      rows.all fun row => row.marketValue.isSome := by
    rw [← hrows, List.all_map]
    rfl
  -- a row with a market value has a cost and a gain
  have hpriced : ∀ row ∈ rows, row.marketValue.isSome → row.costBasis.isSome ∧ row.unrealizedGain.isSome := by
    intro row hrow hsome
    obtain ⟨a, ha, hin⟩ := List.mem_flatMap.1 (List.mem_filter.1 hrow).1
    obtain ⟨hs, hhs⟩ := hreplay a ha
    obtain ⟨v, hv, hvalued⟩ := valuation_spec fx market reportingCurrency hhs
    rw [rowsOf_eq hv] at hin
    obtain ⟨x, k, -, hk, hg⟩ := hvalued.priced row hin hsome
    exact ⟨by rw [hk]; rfl, by rw [hg]; rfl⟩
  have htotal : ∀ f : HoldingValuation → Option ℚ, (∀ row ∈ rows, row.marketValue.isSome → (f row).isSome) →
      sumWhen (ps.reduceOption.all fun position => position.valuation.marketValue.isSome)
        (ps.reduceOption.map fun position => f position.valuation) = .ok (total f) := by
    intro f hf
    have hmap : (ps.reduceOption.map fun position => f position.valuation) = rows.map f := by
      rw [← hrows, List.map_map]
      rfl
    rw [hall, hmap, sumWhen_ok fun hdone x hx => ?_, List.map_map]
    · rfl
    · obtain ⟨row, hrow, rfl⟩ := List.mem_map.1 hx
      exact hf row hrow (List.all_eq_true.1 hdone row hrow)
  have hquantity : (ps.reduceOption.map fun position => position.valuation.holding.quantity) =
      rows.map fun row => row.holding.quantity := by
    rw [← hrows, List.map_map]
    rfl
  refine ⟨⟨ps.reduceOption, ⟨reportingCurrency, _, _, _, _⟩, _⟩,
    bind_eq_ok.2 ⟨ps, hps, bind_eq_ok.2 ⟨_, htotal _ fun _ _ h => h, bind_eq_ok.2 ⟨_, htotal _ fun row hrow h =>
      (hpriced row hrow h).1, bind_eq_ok.2 ⟨_, htotal _ fun row hrow h => (hpriced row hrow h).2, rfl⟩⟩⟩⟩, ?_⟩
  exact ⟨congrArg List.sum hquantity, rfl, rfl, rfl⟩

/-- an archived account without open holdings has no rows -/
theorem rowsOf_closed (hclosed : calculateHoldings db account none false = .ok []) :
    rowsOf db fx market reportingCurrency account = [] := by
  obtain ⟨hs, hhs, hopen⟩ : ∃ hs, calculateHoldings db account none true = .ok hs ∧ openHoldings hs = [] := by
    obtain ⟨snapshots, hsnapshots, hopen⟩ := bind_eq_ok.1 hclosed
    exact ⟨snapshots, bind_eq_ok.2 ⟨snapshots, hsnapshots, rfl⟩, Except.ok.inj hopen⟩
  obtain ⟨v, hv, hvalued⟩ := valuation_spec fx market reportingCurrency hhs
  have hnone := hvalued.holdings
  rw [hopen] at hnone
  rw [rowsOf_eq hv]
  exact List.map_eq_nil_iff.1 hnone

theorem flatMap_rowsOf {accounts : List ℕ} {vs : List PortfolioValuation}
    (h : List.Forall₂ (fun a v => valuationOf db fx market reportingCurrency a = .ok v) accounts vs) :
    vs.flatMap PortfolioValuation.holdings = accounts.flatMap (rowsOf db fx market reportingCurrency) := by
  induction h with
  | nil => rfl
  | cons hv _ ih => rw [List.flatMap_cons, List.flatMap_cons, ih, rowsOf_eq hv]

/-- what is held was traded -/
theorem rowsOf_security {securities : List ℕ} (hall : ∀ i ∈ db.investments, i.security ∈ securities)
    (hreplay : calculateHoldings db account none true = .ok hs) {row : HoldingValuation}
    (hrow : row ∈ rowsOf db fx market reportingCurrency account) : row.holding.security ∈ securities := by
  obtain ⟨v, hv, hvalued⟩ := valuation_spec fx market reportingCurrency hreplay
  rw [rowsOf_eq hv] at hrow
  have hopen : row.holding ∈ openHoldings hs := by
    rw [← hvalued.holdings]
    exact List.mem_map_of_mem hrow
  have hkey : row.holding.security ∈ hs.map HoldingSnapshot.security :=
    List.mem_map_of_mem (List.mem_filter.1 hopen).1
  rw [(calculateHoldings_securities hreplay).1] at hkey
  obtain ⟨i, hi, -, hsecurity, -⟩ := mem_heldSecurities.1 hkey
  exact hsecurity ▸ hall i hi

/-- the totals on the page of a security are those of its rows -/
structure SecurityTotals (rows : List HoldingValuation) (security : ℕ) (p : SecurityPage) : Prop where
  market_value : p.positionSummary.marketValue =
    some ((rows.filter fun row => row.holding.security = security).map fun row => row.marketValue.getD 0).sum
  cost_basis : p.positionSummary.costBasis =
    some ((rows.filter fun row => row.holding.security = security).map fun row => row.costBasis.getD 0).sum
  unrealized_gain : p.positionSummary.unrealizedGain =
    some ((rows.filter fun row => row.holding.security = security).map fun row => row.unrealizedGain.getD 0).sum

/-- every row is on the page of one security -/
theorem securityTotals_sum {rows : List HoldingValuation} {securities : List ℕ} (hnodup : securities.Nodup)
    (hheld : ∀ row ∈ rows, row.holding.security ∈ securities) {pages : List SecurityPage}
    (h : List.Forall₂ (SecurityTotals rows) securities pages) :
    (∀ p ∈ pages, p.positionSummary.marketValue.isSome) ∧
      (pages.map fun p => p.positionSummary.marketValue.getD 0).sum = (rows.map fun row => row.marketValue.getD 0).sum ∧
      (pages.map fun p => p.positionSummary.costBasis.getD 0).sum = (rows.map fun row => row.costBasis.getD 0).sum ∧
      (pages.map fun p => p.positionSummary.unrealizedGain.getD 0).sum =
        (rows.map fun row => row.unrealizedGain.getD 0).sum := by
  have hgroup : ∀ (shown : SecurityPage → Option ℚ) (f : HoldingValuation → ℚ),
      (∀ security p, SecurityTotals rows security p →
        shown p = some ((rows.filter fun row => row.holding.security = security).map f).sum) →
      (pages.map fun p => (shown p).getD 0).sum = (rows.map f).sum := by
    intro shown f hshown
    rw [← sum_groups (fun row : HoldingValuation => row.holding.security) hnodup hheld f]
    clear hnodup hheld
    induction h with
    | nil => rfl
    | cons hp _ ih => rw [List.map_cons, List.map_cons, List.sum_cons, List.sum_cons, ih, hshown _ _ hp, Option.getD_some]
  refine ⟨fun p hp => ?_, hgroup _ _ fun _ _ h => h.market_value, hgroup _ _ fun _ _ h => h.cost_basis,
    hgroup _ _ fun _ _ h => h.unrealized_gain⟩
  obtain ⟨security, -, htotals⟩ := exists_of_mem_right h hp
  rw [htotals.market_value]
  rfl

/-- **The pages agree.** When every brokerage account can be replayed and the archived ones hold nothing, a complete
portfolio page is the sum of the pages of all securities, each of which is complete too. -/
theorem pages_agree {target : ℕ}
    (hreplay : ∀ account ∈ brokerageAccounts db user, ∃ hs, calculateHoldings db account none true = .ok hs)
    (harchived : ∀ account ∈ brokerageAccounts db user, (db.account account).active = false →
      calculateHoldings db account none false = .ok [])
    {securities : List ℕ} (hnodup : securities.Nodup) (hall : ∀ i ∈ db.investments, i.security ∈ securities)
    {page : PortfolioPage} (hpage : portfolioView db fx market user (some target) = .ok page)
    (hcomplete : page.summary.complete) :
    ∃ pages, securities.mapM (securityDetailView db fx market user (some target)) = .ok pages ∧
      (∀ p ∈ pages, p.positionSummary.marketValue.isSome) ∧
      page.summary.costBasis = some (pages.map fun p => p.positionSummary.costBasis.getD 0).sum ∧
      page.summary.unrealizedGain = some (pages.map fun p => p.positionSummary.unrealizedGain.getD 0).sum ∧
      ∃ cash, page.summary.cash = some cash ∧
        page.summary.totalAccountValue = some (cash + (pages.map fun p => p.positionSummary.marketValue.getD 0).sum) := by
  obtain ⟨page', hpage', hadds, hcurrency, hvaluations, haccounts⟩ :=
    portfolioView_spec fx market (some target) fun account hin _ => hreplay account hin
  rw [hpage] at hpage'
  cases hpage'
  set rows := (brokerageAccounts db user).flatMap (rowsOf db fx market (some target))
  have hsame : page.valuations.flatMap PortfolioValuation.holdings = rows := by
    rw [flatMap_rowsOf hvaluations, haccounts]
    exact flatMap_filter_of_nil fun account hin hnot => rowsOf_closed (harchived account hin hnot)
  have hvalued : ∀ row ∈ rows, row.marketValue.isSome := by
    intro row hrow
    rw [← hsame] at hrow
    obtain ⟨v, hv, hin⟩ := List.mem_flatMap.1 hrow
    exact hadds.rows hcomplete v hv row hin
  have hheld : ∀ row ∈ rows, row.holding.security ∈ securities := by
    intro row hrow
    obtain ⟨account, haccount, hin⟩ := List.mem_flatMap.1 hrow
    obtain ⟨hs, hhs⟩ := hreplay account haccount
    exact rowsOf_security hall hhs hin
  have hpages : ∀ security ∈ securities, ∃ p,
      securityDetailView db fx market user (some target) security = .ok p ∧ SecurityTotals rows security p := by
    intro security _
    obtain ⟨p, hp, -, hmarket, hcost, hgain⟩ := securityDetailView_eq fx market (some target) security hreplay
    have hdone : (rows.filter fun row => row.holding.security = security).all fun row => row.marketValue.isSome :=
      List.all_eq_true.2 fun row hrow => hvalued row (List.mem_filter.1 hrow).1
    exact ⟨p, hp, hmarket.trans (if_pos hdone), hcost.trans (if_pos hdone), hgain.trans (if_pos hdone)⟩
  obtain ⟨pages, hok⟩ := exists_mapM_ok_iff.2 fun security hin => ⟨_, (hpages security hin).choose_spec.1⟩
  have htotals : List.Forall₂ (SecurityTotals rows) securities pages := by
    refine forall₂_imp (fun security hin p _ hp => ?_) (mapM_ok_iff.1 hok)
    obtain ⟨p', hp', htotals⟩ := hpages security hin
    rw [hp] at hp'
    cases hp'
    exact htotals
  obtain ⟨hsome, hmarket, hcost, hgain⟩ := securityTotals_sum hnodup hheld htotals
  refine ⟨pages, hok, hsome, ?_, ?_, _, hadds.cash hcomplete, ?_⟩
  · rw [hadds.cost_basis hcomplete, hsame, hcost]
  · rw [hadds.unrealized_gain hcomplete, hsame, hgain]
  · rw [hadds.total hcomplete, hsame, hmarket, hcurrency]
    rfl

theorem pages_agree_twoDepots :
    let db := run step (Db.init (fun _ => "EUR") fun _ => ⟨"ACME", 2, true⟩) twoDepots
    ∃ page pages, portfolioView db dollarRate sharePrice 1 (some 1) = .ok page ∧
      [0].mapM (securityDetailView db dollarRate sharePrice 1 (some 1)) = .ok pages ∧
      (∀ p ∈ pages, p.positionSummary.marketValue.isSome) ∧
      page.summary.costBasis = some (pages.map fun p => p.positionSummary.costBasis.getD 0).sum ∧
      page.summary.unrealizedGain = some (pages.map fun p => p.positionSummary.unrealizedGain.getD 0).sum ∧
      ∃ cash, page.summary.cash = some cash ∧
        page.summary.totalAccountValue = some (cash + (pages.map fun p => p.positionSummary.marketValue.getD 0).sum) := by
  intro db
  obtain ⟨page, hpage, hcomplete⟩ := exists_ok_of_check
    (x := portfolioView db dollarRate sharePrice 1 (some 1)) (p := fun page => page.summary.complete = true)
    (by decide +kernel)
  have hreplay : ∀ account ∈ brokerageAccounts db 1, ∃ hs, calculateHoldings db account none true = .ok hs := by
    have hok : ∀ account ∈ brokerageAccounts db 1, (calculateHoldings db account none true).isOk := by decide +kernel
    exact fun account hin => exists_ok_of_isOk (hok account hin)
  have harchived : ∀ account ∈ brokerageAccounts db 1, (db.account account).active = false →
      calculateHoldings db account none false = .ok [] := by decide +kernel
  have hall : ∀ i ∈ db.investments, i.security ∈ [0] := by decide +kernel
  obtain ⟨pages, hpages, hagree⟩ := pages_agree hreplay harchived (by decide) hall hpage hcomplete
  exact ⟨page, pages, hpage, hpages, hagree⟩

end Vault67.Investments
