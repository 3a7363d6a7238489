/-
Accrual over a term: a term begins and ends, and what has been earned depends on how much of the term has gone by.

A time before the term counts as its beginning, a time after it as its end (`Set.projIcc`).

- `elapsed_add_remaining`: what has gone by and what is left make up the whole term.
- `elapsed_mono` / `remaining_anti`: as time passes, more has gone by and less is left.
- `accrued_mono` / `accrued_of_le` / `accrued_of_ge` / `accrued_le`: under any law, what has been earned grows with time,
  is nothing up to the beginning and everything from the end on.
- `Law.linear` and `Law.compound`: growth in proportion to time, and growth by a power of it.
- `growth_add`: a power of time grows by the product of what it grows by over two times in a row.
- `growth_le_linear` / `linear_le_growth`: it stays below the growth in proportion up to one period, and above it from then on.
-/
import Mathlib.Tactic
import Mathlib.Analysis.Convex.SpecificFunctions.Basic
import Mathlib.Analysis.SpecialFunctions.Pow.Real

namespace Vault67.Accrual

variable {T K : Type} [AddCommGroup T] [LinearOrder T]

/-! ## Time inside the term -/

section Term

variable {a b t : T} (h : a ≤ b)

/-- the part of the term that has gone by -/
def elapsed (t : T) : T := Set.projIcc a b h t - a

/-- the part of the term that is left -/
def remaining (t : T) : T := b - Set.projIcc a b h t

theorem elapsed_add_remaining (t : T) : elapsed h t + remaining h t = b - a :=
  sub_add_sub_cancel' _ _ _

theorem elapsed_of_le (ht : t ≤ a) : elapsed h t = 0 := by
  rw [elapsed, Set.projIcc_of_le_left h ht, sub_self]

theorem elapsed_of_ge (ht : b ≤ t) : elapsed h t = b - a := by
  rw [elapsed, Set.projIcc_of_right_le h ht]

theorem elapsed_of_start_le (ht : a ≤ t) : elapsed h t = min t b - a := by
  rw [elapsed, Set.coe_projIcc, max_eq_right (le_min h ht), min_comm]

theorem remaining_of_le (ht : t ≤ a) : remaining h t = b - a := by
  rw [remaining, Set.projIcc_of_le_left h ht]

variable [IsOrderedAddMonoid T]

theorem elapsed_mono : Monotone (elapsed h) := by
  intro t t' htt
  have hproj : (Set.projIcc a b h t : T) ≤ Set.projIcc a b h t' := Set.monotone_projIcc h htt
  exact sub_le_sub_right hproj a

theorem remaining_anti : Antitone (remaining h) := by
  intro t t' htt
  have hproj : (Set.projIcc a b h t : T) ≤ Set.projIcc a b h t' := Set.monotone_projIcc h htt
  exact sub_le_sub_left hproj b

theorem elapsed_nonneg (t : T) : 0 ≤ elapsed h t :=
  sub_nonneg.2 (Set.projIcc a b h t).2.1

theorem elapsed_le (t : T) : elapsed h t ≤ b - a :=
  sub_le_sub_right (Set.projIcc a b h t).2.2 a

theorem remaining_of_start_le (ht : a ≤ t) : remaining h t = max (b - t) 0 := by
  rw [remaining, Set.coe_projIcc, max_eq_right (le_min h ht), ← max_sub_sub_left, sub_self, max_comm]

/-- the whole of a term that is not empty has gone by only from its end on -/
theorem elapsed_lt_iff (hlt : a < b) : elapsed h t < b - a ↔ t < b := by
  refine ⟨fun helapsed => ?_, fun ht => ?_⟩
  · contrapose! helapsed
    exact (elapsed_of_ge h helapsed).ge
  · refine sub_lt_sub_right ?_ a
    rw [Set.coe_projIcc]
    exact max_lt hlt (min_lt_of_right_lt ht)

end Term

/-! ## Laws of growth -/

/-- what is earned after a time: nothing at once, and never less for a longer time -/
structure Law (T K : Type) [AddCommGroup T] [LinearOrder T] [Zero K] [Preorder K] where
  earned : T → K
  earned_zero : earned 0 = 0
  earned_mono : ∀ {s t : T}, 0 ≤ s → s ≤ t → earned s ≤ earned t

section Accrued

variable [Zero K] [Preorder K] (L : Law T K) {a b t : T} (h : a ≤ b)

/-- what has been earned at the time t -/
def accrued (t : T) : K := L.earned (elapsed h t)

theorem accrued_of_le (ht : t ≤ a) : accrued L h t = 0 := by
  rw [accrued, elapsed_of_le h ht, L.earned_zero]

theorem accrued_of_ge (ht : b ≤ t) : accrued L h t = L.earned (b - a) := by
  rw [accrued, elapsed_of_ge h ht]

variable [IsOrderedAddMonoid T]

theorem accrued_mono : Monotone (accrued L h) := by
  intro t t' htt
  exact L.earned_mono (elapsed_nonneg h t) (elapsed_mono h htt)

theorem accrued_le (t : T) : accrued L h t ≤ L.earned (b - a) :=
  L.earned_mono (elapsed_nonneg h t) (elapsed_le h t)

theorem accrued_nonneg (t : T) : 0 ≤ accrued L h t := by
  rw [← L.earned_zero]
  exact L.earned_mono le_rfl (elapsed_nonneg h t)

end Accrued

/-! ## Growth in proportion to time, and growth by a power of it -/

/-- `rate` for each unit of time -/
@[simps] def Law.linear [Field K] [LinearOrder K] [IsStrictOrderedRing K] (rate : K) (hrate : 0 ≤ rate) : Law ℤ K where
  earned n := rate * n
  earned_zero := by simp
  earned_mono _ hst := mul_le_mul_of_nonneg_left (Int.cast_le.2 hst) hrate

/-- `principal` grows by the factor `base` to the power of `rate` for each unit of time -/
@[simps] noncomputable def Law.compound (principal base rate : ℝ) (hprincipal : 0 ≤ principal) (hbase : 1 ≤ base)
    (hrate : 0 ≤ rate) : Law ℤ ℝ where
  earned n := principal * (base ^ (rate * n) - 1)
  earned_zero := by simp
  earned_mono := by
    intro s t _ hst
    have hexponent : rate * s ≤ rate * t := mul_le_mul_of_nonneg_left (Int.cast_le.2 hst) hrate
    have hpower := Real.rpow_le_rpow_of_exponent_le hbase hexponent
    exact mul_le_mul_of_nonneg_left (sub_le_sub_right hpower 1) hprincipal

/-! ## Growth over times in a row -/

section Growth

variable {base x rate : ℝ} {m n : ℤ}

/-- the factor of growth: `base` to the power of `rate` for each unit of time -/
noncomputable def growth (base rate : ℝ) (n : ℤ) : ℝ := base ^ (rate * n)

theorem growth_add (hbase : 0 < base) : growth base rate (m + n) = growth base rate m * growth base rate n := by
  rw [growth, Int.cast_add, mul_add, Real.rpow_add hbase]
  rfl

/-- up to one period -/
theorem growth_le_linear (hx : 0 ≤ x) (hstart : 0 ≤ rate * n) (hperiod : rate * n ≤ 1) :
    growth (1 + x) rate n ≤ 1 + rate * n * x :=
  rpow_one_add_le_one_add_mul_self (by linarith) hstart hperiod

/-- from one period on -/
theorem linear_le_growth (hx : 0 ≤ x) (hperiod : 1 ≤ rate * n) : 1 + rate * n * x ≤ growth (1 + x) rate n :=
  one_add_mul_self_le_rpow_one_add (by linarith) hperiod

end Growth

end Vault67.Accrual
