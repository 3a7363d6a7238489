/-
Amounts as a decimal context computes them.

`round` is what the context keeps of a number. Every sum, difference, product and quotient is rounded; negation, `abs`,
`max` and `min` give back digits that are kept already, and stored amounts are read as they are. The code runs in the
default context, where `round` is `kept`. Where nothing is rounded the definitions are the exact ones (`…_exact`).
-/
import Mathlib.Tactic
import Vault67.Core.Fx
import Vault67.Ledger.Csv
import Vault67.Lib.Precision

namespace Vault67

/-- what the default context keeps of a number: 28 digits, half-even -/
def kept : ℚ → ℚ := Ledger.decimalContext.keep

namespace InContext

variable (round : ℚ → ℚ)

/-- `sum(amounts, Decimal(0))` -/
def sum (amounts : List ℚ) : ℚ := amounts.foldl (fun total x => round (total + x)) 0

/-- `get_fx_rate`: the reciprocal of an inverse rate is a quotient -/
def getFxRate (fx : Fx) (source target : ℕ) (asOfDate : Option Date) : Except MissingExchangeRate ℚ :=
  if source = target then .ok 1
  else
    let cutoff := asOfDate.getD fx.today
    match observation fx source target cutoff, observation fx target source cutoff with
    | some direct, none => .ok direct.rate
    | some direct, some inverse =>
      if inverse.date ≤ direct.date then .ok direct.rate else .ok (round (1 / inverse.rate))
    | none, some inverse => .ok (round (1 / inverse.rate))
    | none, none => .error ⟨source, target, cutoff⟩

/-- `convert_currency` -/
def convertCurrency (fx : Fx) (amount : ℚ) (source target : ℕ) (asOfDate : Option Date) :
    Except MissingExchangeRate ℚ := do
  let rate ← getFxRate round fx source target asOfDate
  .ok (round (amount * rate))

theorem sum_exact : sum id = List.sum := by
  funext amounts
  exact List.sum_eq_foldl.symm

theorem convertCurrency_exact : convertCurrency id = Vault67.convertCurrency := rfl

end InContext

end Vault67
