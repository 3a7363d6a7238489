/-
Amounts under keys, in the order in which the keys were first met: a dictionary of running totals.

- `total_add`, `total_set`: what an update does to the sum of all amounts.
- `add_eq_set`: an update writes the amount read plus the new one.
- `mem_keys_add`: the keys.
- `add_nonneg`, `set_nonneg`: updates with non-negative amounts keep every amount non-negative.
-/
import Mathlib.Tactic

namespace Vault67.Tally

variable {κ M : Type*}

section Total

variable [AddCommMonoid M]

def total (ps : List (κ × M)) : M := (ps.map Prod.snd).sum

@[simp] theorem total_nil : total ([] : List (κ × M)) = 0 := rfl

@[simp] theorem total_cons (p : κ × M) (ps : List (κ × M)) : total (p :: ps) = p.2 + total ps := by
  simp [total]

theorem total_perm {ps qs : List (κ × M)} (h : ps.Perm qs) : total ps = total qs := (h.map Prod.snd).sum_eq

theorem total_nonneg [PartialOrder M] [IsOrderedAddMonoid M] {ps : List (κ × M)} (h : ∀ p ∈ ps, 0 ≤ p.2) :
    0 ≤ total ps := by
  apply List.sum_nonneg
  intro y hy
  obtain ⟨p, hp, rfl⟩ := List.mem_map.1 hy
  exact h p hp

end Total

variable [DecidableEq κ]

/-- `tally[k] = tally.get(k, 0) + x` -/
def add [Add M] (k : κ) (x : M) : List (κ × M) → List (κ × M)
  | [] => [(k, x)]
  | p :: ps => if p.1 = k then (k, p.2 + x) :: ps else p :: add k x ps

/-- `tally[k] = x` -/
def set (k : κ) (x : M) : List (κ × M) → List (κ × M)
  | [] => [(k, x)]
  | p :: ps => if p.1 = k then (k, x) :: ps else p :: set k x ps

/-- `tally.get(k, 0)` -/
def get [Zero M] (k : κ) (ps : List (κ × M)) : M := (ps.lookup k).getD 0

theorem add_eq_set [AddCommMonoid M] (k : κ) (x : M) (ps : List (κ × M)) : add k x ps = set k (get k ps + x) ps := by
  induction ps with
  | nil => simp [add, set, get]
  | cons p ps ih =>
    rw [add, set]
    split_ifs with h
    · subst h
      rw [get, List.lookup_cons, beq_self_eq_true]
      rfl
    · rw [ih, get, get, List.lookup_cons, beq_false_of_ne (Ne.symm h)]

theorem mem_keys_add [Add M] {k l : κ} {x : M} {ps : List (κ × M)} :
    l ∈ (add k x ps).map Prod.fst ↔ l = k ∨ l ∈ ps.map Prod.fst := by
  induction ps with
  | nil => simp [add]
  | cons p ps ih =>
    rw [add]
    split_ifs with h
    · simp [h]
    · rw [List.map_cons, List.mem_cons, ih, List.map_cons, List.mem_cons]
      exact or_left_comm

theorem total_add [AddCommMonoid M] (k : κ) (x : M) (ps : List (κ × M)) : total (add k x ps) = total ps + x := by
  induction ps with
  | nil => simp [add]
  | cons p ps ih =>
    rw [add]
    split_ifs
    · rw [total_cons, total_cons, add_right_comm]
    · rw [total_cons, total_cons, ih, add_assoc]

/-- a key that is not there is added -/
theorem total_set [AddCommMonoid M] (k : κ) (x : M) {ps : List (κ × M)} (hk : k ∉ ps.map Prod.fst) :
    total (set k x ps) = total ps + x := by
  induction ps with
  | nil => simp [set]
  | cons p ps ih =>
    rw [List.map_cons, List.mem_cons, not_or] at hk
    rw [set, if_neg (Ne.symm hk.1), total_cons, total_cons, ih hk.2, add_assoc]

section Order

variable [AddCommMonoid M] [PartialOrder M] {k : κ} {x : M} {ps : List (κ × M)}

theorem add_nonneg [IsOrderedAddMonoid M] (hx : 0 ≤ x) (h : ∀ p ∈ ps, 0 ≤ p.2) : ∀ p ∈ add k x ps, 0 ≤ p.2 := by
  induction ps with
  | nil => simpa [add] using hx
  | cons p ps ih =>
    obtain ⟨hp, hps⟩ := List.forall_mem_cons.1 h
    rw [add]
    split_ifs
    · exact List.forall_mem_cons.2 ⟨Left.add_nonneg hp hx, hps⟩
    · exact List.forall_mem_cons.2 ⟨hp, ih hps⟩

theorem set_nonneg (hx : 0 ≤ x) (h : ∀ p ∈ ps, 0 ≤ p.2) : ∀ p ∈ set k x ps, 0 ≤ p.2 := by
  induction ps with
  | nil => simpa [set] using hx
  | cons p ps ih =>
    obtain ⟨hp, hps⟩ := List.forall_mem_cons.1 h
    rw [set]
    split_ifs
    · exact List.forall_mem_cons.2 ⟨hx, hps⟩
    · exact List.forall_mem_cons.2 ⟨hp, ih hps⟩

end Order

end Vault67.Tally
