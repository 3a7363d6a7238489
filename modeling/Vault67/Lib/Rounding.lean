/-
Rounding to a number of decimal places, over any ordered field with a floor.

- `halfEven`: to the nearest integer, ties to the even one (what a decimal quantize does by default);
- `halfAway`: to the nearest integer, ties away from zero (what a numeric column does);
- `toPlaces r k`: the rounding r applied at k decimal places. It fixes every multiple of 10^-k, `halfEven` moves a
  value by at most half a unit of the last place, and `halfAway` is odd.
-/
import Mathlib.Tactic
import Mathlib.Algebra.Order.Floor.Ring
import Mathlib.Algebra.Order.Round

namespace Vault67.Rounding

variable {K : Type*} [Field K] [LinearOrder K] [IsStrictOrderedRing K] [FloorRing K]

def halfEven (x : K) : ℤ :=
  if Int.fract x < 1 / 2 then ⌊x⌋
  else if 1 / 2 < Int.fract x then ⌊x⌋ + 1
  else if Even ⌊x⌋ then ⌊x⌋ else ⌊x⌋ + 1

def halfAway (x : K) : ℤ := if 0 ≤ x then round x else -round (-x)

/-- round at k decimal places -/
def toPlaces (r : K → ℤ) (k : ℕ) (x : K) : K := r (x * 10 ^ k) / 10 ^ k

@[simp] theorem halfEven_intCast (n : ℤ) : halfEven (n : K) = n := by
  simp [halfEven]

theorem abs_halfEven_sub_le (x : K) : |(halfEven x : K) - x| ≤ 1 / 2 := by
  have hx := Int.floor_add_fract x
  have h0 := Int.fract_nonneg x
  have h1 := (Int.fract_lt_one x).le
  unfold halfEven
  split_ifs with ha hb hc <;> rw [abs_le] <;> push_cast <;> constructor <;> linarith

omit [IsStrictOrderedRing K] in
theorem halfEven_nonneg {x : K} (h : 0 ≤ x) : 0 ≤ halfEven x := by
  have hfloor : 0 ≤ ⌊x⌋ := Int.floor_nonneg.2 h
  unfold halfEven
  split_ifs <;> omega

theorem halfEven_le {x : K} {n : ℤ} (h : x ≤ n) : halfEven x ≤ n := by
  have hnear := (abs_le.1 (abs_halfEven_sub_le x)).2
  exact Int.lt_add_one_iff.1 (by exact_mod_cast (by linarith : (halfEven x : K) < n + 1))

theorem le_halfEven {x : K} {n : ℤ} (h : (n : K) ≤ x) : n ≤ halfEven x := by
  have hnear := (abs_le.1 (abs_halfEven_sub_le x)).1
  exact Int.le_of_lt_add_one (by exact_mod_cast (by linarith : (n : K) < halfEven x + 1))

/-- a value halfway below an even number goes up to it -/
theorem halfEven_lt_iff {x : K} {n : ℤ} (hn : Even n) : halfEven x < n ↔ x < n - 1 / 2 := by
  have hnear := abs_le.1 (abs_halfEven_sub_le x)
  refine ⟨fun h => ?_, fun h => ?_⟩
  · have hle : (halfEven x : K) ≤ n - 1 := by exact_mod_cast Int.le_sub_one_of_lt h
    refine lt_of_le_of_ne (by linarith) fun htie => ?_
    have hx : x = (n - 1 : ℤ) + 1 / 2 := by
      rw [htie]
      push_cast
      ring
    have hfloor : ⌊x⌋ = n - 1 := by
      rw [hx, Int.floor_intCast_add, Int.floor_eq_iff.2 (by norm_num : ((0 : ℤ) : K) ≤ 1 / 2 ∧ (1 / 2 : K) < (0 : ℤ) + 1),
        add_zero]
    have hfract : Int.fract x = 1 / 2 := by
      rw [Int.fract, hfloor, hx]
      ring
    have hodd : ¬Even (n - 1) := by
      rw [Int.even_sub_one, not_not]
      exact hn
    rw [halfEven, hfract, if_neg (lt_irrefl _), if_neg (lt_irrefl _), hfloor, if_neg hodd] at h
    omega
  · have hlt : (halfEven x : K) < n := by linarith
    exact_mod_cast hlt

@[simp] theorem halfAway_intCast (n : ℤ) : halfAway (n : K) = n := by
  unfold halfAway
  split_ifs with h
  · exact round_intCast n
  · rw [← Int.cast_neg, round_intCast, neg_neg]

theorem halfAway_neg (x : K) : halfAway (-x) = -halfAway x := by
  unfold halfAway
  rcases lt_trichotomy x 0 with h | rfl | h
  · rw [if_pos (by linarith), if_neg (by linarith), neg_neg]
  · simp
  · rw [if_neg (by linarith), if_pos h.le, neg_neg]

theorem halfAway_nonneg {x : K} (h : 0 ≤ x) : 0 ≤ halfAway x := by
  unfold halfAway
  rw [if_pos h, round_eq]
  exact Int.floor_nonneg.2 (by linarith)

theorem ten_pow_ne_zero (k : ℕ) : (10 : K) ^ k ≠ 0 := pow_ne_zero k (by norm_num)

/-- a multiple of 10^-k is fixed -/
theorem toPlaces_eq_self {r : K → ℤ} (hr : ∀ n : ℤ, r n = n) {k : ℕ} {x : K} (hx : ∃ n : ℤ, x * 10 ^ k = n) :
    toPlaces r k x = x := by
  obtain ⟨n, hn⟩ := hx
  unfold toPlaces
  rw [hn, hr, ← hn, mul_div_cancel_right₀ x (ten_pow_ne_zero k)]

/-- the result is a multiple of 10^-k -/
theorem toPlaces_mul (r : K → ℤ) (k : ℕ) (x : K) : ∃ n : ℤ, toPlaces r k x * 10 ^ k = n :=
  ⟨r (x * 10 ^ k), div_mul_cancel₀ _ (ten_pow_ne_zero k)⟩

omit [IsStrictOrderedRing K] in
theorem toPlaces_neg {r : K → ℤ} (hr : ∀ x, r (-x) = -r x) (k : ℕ) (x : K) :
    toPlaces r k (-x) = -toPlaces r k x := by
  unfold toPlaces
  rw [neg_mul, hr]
  push_cast
  ring

/-- half-even rounding moves a value by at most half a unit of the last place -/
theorem abs_toPlaces_halfEven_sub_le (k : ℕ) (x : K) : |toPlaces halfEven k x - x| ≤ 1 / 2 / 10 ^ k := by
  have h10 : (0 : K) < 10 ^ k := by positivity
  have e : toPlaces halfEven k x - x = ((halfEven (x * 10 ^ k) : K) - x * 10 ^ k) / 10 ^ k := by
    unfold toPlaces
    rw [sub_div, mul_div_cancel_right₀ x h10.ne']
  rw [e, abs_div, abs_of_pos h10]
  exact div_le_div_of_nonneg_right (abs_halfEven_sub_le _) h10.le

end Vault67.Rounding
