/-
The cost basis of a valuation against the cost of its rows.

The total is summed in the account's currency and converted once. A row with a market value carries its cost converted
at the same rate; a row without a price, or without a rate for its price, carries the cost in the account's currency.

- `holdingRow_cost`: the cost of a row.
- `costBasis_reported_iff`: exactly when the total and every row are in the reporting currency.
- `unpricedShares_mixed`: an unpriced holding on an account in another currency.
-/
import Mathlib.Tactic
import Vault67.Investments.PortfolioTotals

namespace Vault67.Investments

open Fallible Machine

section Reported

variable (db : Db) (fx : Fx) (market : Market) (account : ℕ) (asOfDate : Option Date)

/-- rate converts from the account's currency: the total is the sum of the rows, and each row is converted -/
structure CostReported (v : PortfolioValuation) (rate total : ℚ) : Prop where
  total_eq : total = (v.holdings.map fun row => row.costBasis.getD 0).sum
  rows : ∀ row ∈ v.holdings, row.costBasis = some (row.holding.baseCostBasis * rate)

/-- a cost basis that is returned is the sum of its rows, all of them in the reporting currency -/
def CostBasisReported (reporting : Option ℕ) : Prop :=
  ∀ v total, calculatePortfolioValue db fx market account asOfDate reporting = .ok v → v.costBasis = some total →
    ∃ rate, getFxRate fx (db.account account).currency (reporting.getD (db.account account).currency) asOfDate = .ok rate ∧
      CostReported v rate total

/-- an open holding that has no price, or a price without a rate, costs nothing or is converted at a rate of 1 -/
def UnvaluedAtPar (reporting : Option ℕ) : Prop :=
  let target := reporting.getD (db.account account).currency
  ∀ hs rate, calculateHoldings db account asOfDate true = .ok hs →
    getFxRate fx (db.account account).currency target asOfDate = .ok rate →
      ∀ h ∈ openHoldings hs, ¬Valuable db fx market account asOfDate target h → rate = 1 ∨ h.baseCostBasis = 0

end Reported

variable {db : Db} {fx : Fx} {market : Market} {account : ℕ} {asOfDate : Option Date} {reportingCurrency : ℕ} {rate : ℚ}
  {holding : HoldingSnapshot}

theorem holdingRow_cost_valuable (h : Valuable db fx market account asOfDate reportingCurrency holding)
    (hrate : getFxRate fx (db.account account).currency reportingCurrency asOfDate = .ok rate) :
    (holdingRow db fx market account asOfDate reportingCurrency holding).costBasis = some (holding.baseCostBasis * rate) := by
  obtain ⟨price, hprice, r, hr⟩ := h.price
  rw [holdingRow, hprice]
  dsimp only
  rw [convertHolding_ok_iff.2 ⟨r, hr, rate, hrate, rfl, rfl⟩]

theorem holdingRow_cost_unvalued (h : ¬Valuable db fx market account asOfDate reportingCurrency holding) :
    (holdingRow db fx market account asOfDate reportingCurrency holding).costBasis = some holding.baseCostBasis := by
  rw [← holdingRow_isSome_iff] at h
  unfold holdingRow at h ⊢
  cases hprice : getLatestPrice market fx.today holding.security asOfDate with
  | none => rfl
  | some price =>
    rw [hprice] at h
    dsimp only at h ⊢
    cases hconvert : convertHolding db fx account asOfDate reportingCurrency holding price with
    | error exc => rfl
    | ok p =>
      rw [hconvert] at h
      exact absurd rfl h

/-- **The cost of a row** is converted exactly when its holding can be valued, is converted at par, or costs nothing. -/
theorem holdingRow_cost
    (hrate : getFxRate fx (db.account account).currency reportingCurrency asOfDate = .ok rate) :
    (holdingRow db fx market account asOfDate reportingCurrency holding).costBasis =
        some (holding.baseCostBasis * rate) ↔
      (¬Valuable db fx market account asOfDate reportingCurrency holding → rate = 1 ∨ holding.baseCostBasis = 0) := by
  by_cases hvaluable : Valuable db fx market account asOfDate reportingCurrency holding
  · exact iff_of_true (holdingRow_cost_valuable hvaluable hrate) fun hnot => absurd hvaluable hnot
  · rw [holdingRow_cost_unvalued hvaluable, Option.some.injEq, eq_comm, mul_right_eq_self₀]
    exact ⟨fun h _ => h, fun h => h hvaluable⟩

/-- a share of the market value is all that the rows get after the loop -/
theorem forall_rows_iff (P : HoldingSnapshot → Option ℚ → Prop) (total : ℚ) (hs : List HoldingSnapshot) :
    (∀ row ∈ allocateRows total (totalsOf db fx market account asOfDate reportingCurrency hs).rows,
        P row.holding row.costBasis) ↔
      ∀ h ∈ openHoldings hs, P h (holdingRow db fx market account asOfDate reportingCurrency h).costBasis := by
  have hrows := (foldl_valueHolding db fx market account asOfDate reportingCurrency {} (openHoldings hs)).1
  rw [List.nil_append] at hrows
  have hmap := allocateRows_map (fun row : HoldingValuation => P row.holding row.costBasis) (fun _ _ => rfl) total
    (totalsOf db fx market account asOfDate reportingCurrency hs).rows
  have hforall : ∀ l : List HoldingValuation, (∀ row ∈ l, P row.holding row.costBasis) ↔
      ∀ p ∈ l.map (fun row : HoldingValuation => P row.holding row.costBasis), p := fun l => by
    rw [List.forall_mem_map]
  rw [hforall, hmap, ← hforall, show (totalsOf db fx market account asOfDate reportingCurrency hs).rows = _ from hrows,
    List.forall_mem_map]
  simp only [holdingRow_holding]

/-- the total is converted from what the open holdings cost -/
theorem totalsOf_totalCost (hs : List HoldingSnapshot) :
    (totalsOf db fx market account asOfDate reportingCurrency hs).totalCost =
      ((openHoldings hs).map HoldingSnapshot.baseCostBasis).sum := by
  obtain ⟨-, -, -, hcost⟩ := foldl_valueHolding db fx market account asOfDate reportingCurrency {} (openHoldings hs)
  exact hcost.trans (zero_add _)

/-- converted rows add up to the converted total -/
theorem totalsOf_costs (hs : List HoldingSnapshot) (total : ℚ)
    (hrows : ∀ h ∈ openHoldings hs,
      (holdingRow db fx market account asOfDate reportingCurrency h).costBasis = some (h.baseCostBasis * rate)) :
    ((allocateRows total (totalsOf db fx market account asOfDate reportingCurrency hs).rows).map
      fun row => row.costBasis.getD 0).sum =
        (totalsOf db fx market account asOfDate reportingCurrency hs).totalCost * rate := by
  have hall := (foldl_valueHolding db fx market account asOfDate reportingCurrency {} (openHoldings hs)).1
  rw [List.nil_append] at hall
  rw [allocateRows_map (fun row : HoldingValuation => row.costBasis.getD 0) fun _ _ => rfl, totalsOf_totalCost,
    show (totalsOf db fx market account asOfDate reportingCurrency hs).rows = _ from hall, List.map_map,
    ← List.sum_map_mul_right]
  refine congrArg List.sum (List.map_congr_left fun h hh => ?_)
  rw [Function.comp_apply, hrows h hh, Option.getD_some]

/-- **The cost basis is reported in one currency** exactly when every open holding that cannot be valued costs nothing
or is on an account whose currency is converted at par. -/
theorem costBasis_reported_iff (db : Db) (fx : Fx) (market : Market) (account : ℕ) (asOfDate : Option Date)
    (reporting : Option ℕ) :
    CostBasisReported db fx market account asOfDate reporting ↔ UnvaluedAtPar db fx market account asOfDate reporting := by
  refine ⟨?_, ?_⟩
  · intro hreported hs rate hreplay hrate h hh hnot
    obtain ⟨v, hv, hholdings, -, hcost, -⟩ := portfolio_returned fx market reporting hreplay
    rw [accountConversion, hrate] at hcost
    obtain ⟨rate', hrate', hcosts⟩ := hreported v _ hv hcost
    cases hrate.symm.trans hrate'
    have hrow := hcosts.rows
    rw [hholdings, forall_rows_iff fun h cost => cost = some (h.baseCostBasis * rate)] at hrow
    exact (holdingRow_cost hrate).1 (hrow h hh) hnot
  · intro hpar v total hv htotal
    obtain ⟨hs, hreplay, -⟩ := bind_eq_ok.1 hv
    obtain ⟨v', hv', hholdings, -, hcost, -⟩ := portfolio_returned fx market reporting hreplay
    cases hv.symm.trans hv'
    -- a cost basis is there when the account's currency can be converted
    rw [htotal, accountConversion] at hcost
    cases hrate : getFxRate fx (db.account account).currency (reporting.getD (db.account account).currency) asOfDate with
    | error exc =>
      rw [hrate] at hcost
      cases hcost
    | ok rate =>
      rw [hrate] at hcost
      cases hcost
      have hrows := fun h hh => (holdingRow_cost hrate).2 (hpar hs rate hreplay hrate h hh)
      refine ⟨rate, rfl, ?_⟩
      constructor
      case total_eq => rw [hholdings, totalsOf_costs hs _ hrows]
      case rows =>
        rw [hholdings, forall_rows_iff fun h cost => cost = some (h.baseCostBasis * rate)]
        exact hrows

/-- **An unpriced holding.** Shares that cost 800 on an account in currency 1 are reported in currency 2 at 5 / 4: the
total cost is 1000, and the row says 800. -/
theorem unpricedShares_mixed :
    let db := run step (Db.init (fun _ => "EUR") fun _ => ⟨"ACME", 2, true⟩) foreignShares
    ¬CostBasisReported db dollarRate ⟨[], fun _ => .stock⟩ 0 (some 32) (some 2) := by
  intro db hreported
  obtain ⟨v, hv, hcost, hrows⟩ := exists_ok_of_check
    (x := calculatePortfolioValue db dollarRate ⟨[], fun _ => .stock⟩ 0 (some 32) (some 2))
    (p := fun v => v.costBasis = some 1000 ∧ (v.holdings.map fun row => row.costBasis.getD 0).sum = 800)
    (by decide +kernel)
  obtain ⟨rate, -, hsum⟩ := hreported v 1000 hv hcost
  have h := hsum.total_eq
  rw [hrows] at h
  norm_num at h

end Vault67.Investments
