/-
`core/services/fx.py`: historical exchange rates.

A rate says 1 base = rate quote. `getFxRate` takes the newest observation of the pair in either direction, dated on or
before the cutoff; the direct one when both are of the same day, and the reciprocal of an inverse one.

- `getFxRate_pos`: a rate that is found is positive.
- `getFxRate_congr`: it depends on the rates dated on or before the cutoff only.
-/
import Mathlib.Tactic
import Mathlib.Data.Prod.Lex
import Mathlib.Data.String.Basic
import Vault67.Core.Errors
import Vault67.Lib.OrderBy
import Vault67.Lib.Rows

namespace Vault67

open OrderBy Rows

structure ExchangeRate where
  date : Date
  baseCurrency : ℕ
  quoteCurrency : ℕ
  rate : ℚ
  source : String
  createdAt : ℕ
  /-- `fx_currencies_differ` -/
  currencies_differ : baseCurrency ≠ quoteCurrency
  /-- `fx_rate_positive` -/
  rate_pos : 0 < rate
deriving DecidableEq, Repr

/-- the rate table, and `timezone.localdate()` -/
structure Fx where
  rates : List ExchangeRate
  today : Date
deriving DecidableEq, Repr

structure MissingExchangeRate where
  source : ℕ
  target : ℕ
  cutoff : Date
deriving DecidableEq, Repr

def MissingExchangeRate.message (e : MissingExchangeRate) : Message := .noFxRate e.source e.target e.cutoff

/-- `order_by("-date", "source", "-created_at")` -/
def newestFirst (r : ExchangeRate) : ℕᵒᵈ ×ₗ String ×ₗ ℕᵒᵈ :=
  toLex (OrderDual.toDual r.date, toLex (r.source, OrderDual.toDual r.createdAt))

/-- the newest observation of a pair in one direction -/
def observation (fx : Fx) (base quote : ℕ) (cutoff : Date) : Option ExchangeRate :=
  (orderBy newestFirst
    (fx.rates.filter fun r => r.baseCurrency = base ∧ r.quoteCurrency = quote ∧ r.date ≤ cutoff)).head?

/-- units of the target currency for one unit of the source currency -/
def getFxRate (fx : Fx) (source target : ℕ) (asOfDate : Option Date) : Except MissingExchangeRate ℚ :=
  if source = target then .ok 1
  else
    let cutoff := asOfDate.getD fx.today
    match observation fx source target cutoff, observation fx target source cutoff with
    | some direct, none => .ok direct.rate
    | some direct, some inverse => if inverse.date ≤ direct.date then .ok direct.rate else .ok (1 / inverse.rate)
    | none, some inverse => .ok (1 / inverse.rate)
    | none, none => .error ⟨source, target, cutoff⟩

def convertCurrency (fx : Fx) (amount : ℚ) (source target : ℕ) (asOfDate : Option Date) :
    Except MissingExchangeRate ℚ := do
  let rate ← getFxRate fx source target asOfDate
  .ok (amount * rate)

theorem getFxRate_pos {fx : Fx} {source target : ℕ} {asOfDate : Option Date} {r : ℚ}
    (h : getFxRate fx source target asOfDate = .ok r) : 0 < r := by
  unfold getFxRate at h
  split_ifs at h with hc
  · cases h
    exact one_pos
  · dsimp only at h
    split at h
    · cases h
      exact ExchangeRate.rate_pos _
    · split_ifs at h <;> cases h
      · exact ExchangeRate.rate_pos _
      · exact one_div_pos.2 (ExchangeRate.rate_pos _)
    · cases h
      exact one_div_pos.2 (ExchangeRate.rate_pos _)
    · cases h

/-! ## Later rates -/

/-- the tables agree on the rates dated on or before d -/
def SameRates (d : Date) (fx₁ fx₂ : Fx) : Prop :=
  fx₁.rates.filter (fun r => r.date ≤ d) = fx₂.rates.filter (fun r => r.date ≤ d)

variable {d cutoff : Date} {fx₁ fx₂ : Fx}

theorem observation_congr (h : SameRates d fx₁ fx₂) (hc : cutoff ≤ d) (base quote : ℕ) :
    observation fx₁ base quote cutoff = observation fx₂ base quote cutoff := by
  rw [observation, observation, filter_agree_of_imp h]
  rintro r ⟨-, -, hdate⟩
  exact hdate.trans hc

/-- **Later rates.** A rate as of a date depends on the rates dated on or before it only, in both directions of the
pair. -/
theorem getFxRate_congr (h : SameRates d fx₁ fx₂) (hc : cutoff ≤ d) (source target : ℕ) :
    getFxRate fx₁ source target (some cutoff) = getFxRate fx₂ source target (some cutoff) := by
  simp only [getFxRate, Option.getD_some, observation_congr h hc]

theorem convertCurrency_congr (h : SameRates d fx₁ fx₂) (hc : cutoff ≤ d) (amount : ℚ) (source target : ℕ) :
    convertCurrency fx₁ amount source target (some cutoff) = convertCurrency fx₂ amount source target (some cutoff) := by
  rw [convertCurrency, convertCurrency, getFxRate_congr h hc]

end Vault67
