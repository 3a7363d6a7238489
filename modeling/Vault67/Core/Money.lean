/-
Decimal amounts. A Decimal is its exact value, a rational; the digits of its representation are not kept.

- `quantize`: `x.quantize(Decimal("0.0001"))`, half-even, raising when the result needs more than 28 digits;
- `storeMoney`: what a numeric(20, 4) column keeps of a value, half away from zero, refusing 10^16 and above;
- `FitsDecimal`: `DecimalValidator(max_digits, decimal_places)`.
-/
import Mathlib.Tactic
import Mathlib.Data.Rat.Floor
import Vault67.Core.Errors
import Vault67.Lib.Rounding

namespace Vault67

open Rounding

/-- the value has at most k decimals -/
def HasPlaces (k : ℕ) (x : ℚ) : Prop := (x * 10 ^ k).den = 1

instance (k : ℕ) (x : ℚ) : Decidable (HasPlaces k x) := inferInstanceAs (Decidable (_ = 1))

theorem hasPlaces_iff {k : ℕ} {x : ℚ} : HasPlaces k x ↔ ∃ n : ℤ, x * 10 ^ k = n := by
  refine ⟨?_, ?_⟩
  · exact fun h => ⟨_, (Rat.coe_int_num_of_den_eq_one h).symm⟩
  · rintro ⟨n, hn⟩
    unfold HasPlaces
    rw [hn]
    exact Rat.den_intCast n

theorem HasPlaces.add {k : ℕ} {x y : ℚ} (hx : HasPlaces k x) (hy : HasPlaces k y) : HasPlaces k (x + y) := by
  obtain ⟨m, hm⟩ := hasPlaces_iff.1 hx
  obtain ⟨n, hn⟩ := hasPlaces_iff.1 hy
  exact hasPlaces_iff.2 ⟨m + n, by push_cast; rw [add_mul, hm, hn]⟩

theorem HasPlaces.neg {k : ℕ} {x : ℚ} (hx : HasPlaces k x) : HasPlaces k (-x) := by
  obtain ⟨m, hm⟩ := hasPlaces_iff.1 hx
  exact hasPlaces_iff.2 ⟨-m, by push_cast; rw [neg_mul, hm]⟩

theorem HasPlaces.sub {k : ℕ} {x y : ℚ} (hx : HasPlaces k x) (hy : HasPlaces k y) : HasPlaces k (x - y) := by
  rw [sub_eq_add_neg]
  exact hx.add hy.neg

/-- `DecimalValidator(digits, places)` -/
def FitsDecimal (digits places : ℕ) (x : ℚ) : Prop := HasPlaces places x ∧ |x| < 10 ^ (digits - places)

instance (digits places : ℕ) (x : ℚ) : Decidable (FitsDecimal digits places x) :=
  inferInstanceAs (Decidable (_ ∧ _))

/-- MONEY_QUANTUM is 0.0001; the default context has 28 digits -/
def quantize (x : ℚ) : Except Error ℚ :=
  if |toPlaces halfEven 4 x| < 10 ^ 24 then .ok (toPlaces halfEven 4 x) else .error .decimal

theorem quantize_ok {x r : ℚ} (h : quantize x = .ok r) : r = toPlaces halfEven 4 x := by
  unfold quantize at h
  split_ifs at h
  cases h
  rfl

theorem quantize_places {x r : ℚ} (h : quantize x = .ok r) : HasPlaces 4 r := by
  rw [quantize_ok h]
  exact hasPlaces_iff.2 (toPlaces_mul halfEven 4 x)

theorem quantize_exact {x r : ℚ} (h : quantize x = .ok r) (hx : HasPlaces 4 x) : r = x := by
  rw [quantize_ok h]
  exact toPlaces_eq_self halfEven_intCast (hasPlaces_iff.1 hx)

/-- a quantized amount is within half a unit of the fourth place -/
theorem quantize_near {x r : ℚ} (h : quantize x = .ok r) : |r - x| ≤ 1 / 20000 := by
  rw [quantize_ok h]
  refine (abs_toPlaces_halfEven_sub_le 4 x).trans_eq ?_
  norm_num

/-- what a numeric(20, 4) column keeps -/
def storeMoney (x : ℚ) : Except Error ℚ :=
  if |toPlaces halfAway 4 x| < 10 ^ 16 then .ok (toPlaces halfAway 4 x) else .error .database

theorem storeMoney_ok {x r : ℚ} (h : storeMoney x = .ok r) : r = toPlaces halfAway 4 x := by
  unfold storeMoney at h
  split_ifs at h
  cases h
  rfl

theorem storeMoney_exact {x r : ℚ} (h : storeMoney x = .ok r) (hx : HasPlaces 4 x) : r = x := by
  rw [storeMoney_ok h]
  exact toPlaces_eq_self halfAway_intCast (hasPlaces_iff.1 hx)

theorem storeMoney_eq_ok {x : ℚ} (hplaces : HasPlaces 4 x) (hlt : |x| < 10 ^ 16) : storeMoney x = .ok x := by
  unfold storeMoney
  rw [toPlaces_eq_self halfAway_intCast (hasPlaces_iff.1 hplaces), if_pos hlt]

theorem storeMoney_nonneg {x r : ℚ} (h : storeMoney x = .ok r) (hx : 0 ≤ x) : 0 ≤ r := by
  rw [storeMoney_ok h]
  have hn : 0 ≤ halfAway (x * 10 ^ 4) := halfAway_nonneg (by positivity)
  unfold toPlaces
  positivity

theorem storeMoney_neg {x r s : ℚ} (hr : storeMoney x = .ok r) (hs : storeMoney (-x) = .ok s) : s = -r := by
  rw [storeMoney_ok hr, storeMoney_ok hs]
  exact toPlaces_neg halfAway_neg 4 x

end Vault67
