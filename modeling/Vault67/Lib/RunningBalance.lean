/-
A running balance: after an opening balance o come the balances bs, one after each of the amounts as.

- `Running o bs as`: after every row, the sum of the amounts so far is the balance minus the opening one;
- `running_cons`: that is, every amount is the change of the balance;
- `Running.sum`: all amounts together are the closing balance minus the opening one.
-/
import Mathlib.Tactic
import Mathlib.Algebra.BigOperators.Group.List.Basic

namespace Vault67

variable {α : Type*} [AddCommGroup α]

/-- after each row, what was posted is the balance minus the opening balance -/
def Running (o : α) (bs as : List α) : Prop := ∀ k b, bs[k]? = some b → (as.take (k + 1)).sum = b - o

@[simp] theorem running_nil (o : α) (as : List α) : Running o [] as := fun _ _ h => nomatch h

theorem running_cons {o b a : α} {bs as : List α} : Running o (b :: bs) (a :: as) ↔ a = b - o ∧ Running b bs as := by
  refine ⟨?_, ?_⟩
  · intro h
    have ha : a = b - o := by simpa using h 0 b rfl
    refine ⟨ha, fun k c hc => ?_⟩
    have hk := h (k + 1) c hc
    rw [List.take_succ_cons, List.sum_cons, ha] at hk
    rw [eq_sub_of_add_eq' hk]
    abel
  · intro h k c hc
    obtain ⟨rfl, h⟩ := h
    cases k with
    | zero =>
      cases hc
      simp
    | succ k =>
      rw [List.take_succ_cons, List.sum_cons, h k c hc]
      abel

/-- the sum of all amounts is the closing balance minus the opening one -/
theorem Running.sum {o c : α} {bs as : List α} (h : Running o bs as) (hlength : as.length = bs.length)
    (hc : bs.getLast? = some c) : as.sum = c - o := by
  rw [List.getLast?_eq_getElem?] at hc
  have hpos : 0 < bs.length := by
    by_contra hnil
    rw [List.getElem?_eq_none (by omega)] at hc
    cases hc
  rw [← h _ c hc, Nat.sub_add_cancel hpos, ← hlength, List.take_length]

end Vault67
