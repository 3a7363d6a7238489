/-
Noninterference by unwinding.

A machine takes the steps of several users. `solo` is what one of them would see alone: its own steps are taken, and in
place of a step of anybody else only what that step leaks (`leak`) is copied from the machine. When the user's own steps
keep a relation between the machine and its solo state, and so does the leak, the relation holds after every run.
-/
import Mathlib.Tactic

namespace Vault67.Unwinding

variable {σ τ α : Type*} (step : σ → α → σ) (own : α → Prop) [DecidablePred own] (alone : τ → α → τ) (leak : σ → τ → τ)

/-- the machine in state s and the user's state t, after the steps -/
def solo (s : σ) (t : τ) : List α → τ
  | [] => t
  | a :: steps => solo (step s a) (if own a then alone t a else leak (step s a) t) steps

variable {step own alone leak}

/-- **Unwinding.** -/
theorem solo_related {R : σ → τ → Prop} (hown : ∀ s t a, R s t → own a → R (step s a) (alone t a))
    (hother : ∀ s t a, R s t → ¬own a → R (step s a) (leak (step s a) t)) {s : σ} {t : τ} (h : R s t)
    (steps : List α) : R (steps.foldl step s) (solo step own alone leak s t steps) := by
  induction steps generalizing s t with
  | nil => exact h
  | cons a steps ih =>
    by_cases ha : own a
    · rw [solo, if_pos ha]
      exact ih (hown s t a h ha)
    · rw [solo, if_neg ha]
      exact ih (hother s t a h ha)

end Vault67.Unwinding
