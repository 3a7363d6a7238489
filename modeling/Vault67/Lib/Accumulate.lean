/-
Loops that only add to what they have collected: a pass over row a takes m to m + part a.

- `foldl_eq_add`, `foldlM_ok_iff`: the loop adds the sum of the parts.
- `sum_flatMap`, `sum_map`: a field of a sum of records is the concatenation, or the sum, of the field.
- `foldl_update_apply`: a loop over distinct keys changes the row of each key once.
- `foldl_observe_perm`: what a loop shows does not depend on the order of its rows when the passes it shows commute.
-/
import Mathlib.Tactic
import Mathlib.Algebra.BigOperators.Group.List.Basic
import Vault67.Lib.Fallible

namespace Vault67.Accumulate

open Fallible

universe u

variable {α β M N : Type u} {κ ε : Type*}

section Monoid

variable [AddMonoid M]

/-- every pass adds the part of its row -/
theorem foldl_eq_add {f : M → α → M} {part : α → M} (hf : ∀ m a, f m a = m + part a) (m : M) (l : List α) :
    l.foldl f m = m + (l.map part).sum := by
  induction l generalizing m with
  | nil => simp
  | cons a l ih => rw [List.foldl_cons, ih, hf, List.map_cons, List.sum_cons, add_assoc]

/-- the same for a loop that raises at the rows without p -/
theorem foldlM_ok_iff {f : M → α → Except ε M} {part : α → M} {p : α → Prop}
    (hf : ∀ m m' a, f m a = .ok m' ↔ p a ∧ m + part a = m') {m m' : M} {l : List α} :
    l.foldlM f m = .ok m' ↔ (∀ a ∈ l, p a) ∧ m + (l.map part).sum = m' := by
  induction l generalizing m with
  | nil => simp
  | cons a l ih =>
    rw [foldlM_cons_ok, List.forall_mem_cons, List.map_cons, List.sum_cons, ← add_assoc]
    refine ⟨?_, ?_⟩
    · intro h
      obtain ⟨t, ht, hl⟩ := h
      obtain ⟨ha, rfl⟩ := (hf m t a).1 ht
      obtain ⟨hp, hsum⟩ := ih.1 hl
      exact ⟨⟨ha, hp⟩, hsum⟩
    · intro h
      obtain ⟨⟨ha, hp⟩, hsum⟩ := h
      exact ⟨m + part a, (hf m _ a).2 ⟨ha, rfl⟩, ih.2 ⟨hp, hsum⟩⟩

/-! ## Fields of a sum -/

theorem sum_flatMap {g : M → List β} (h0 : g 0 = []) (hadd : ∀ m n, g (m + n) = g m ++ g n) (l : List M) :
    g l.sum = l.flatMap g := by
  induction l with
  | nil => exact h0
  | cons m l ih => rw [List.sum_cons, hadd, ih, List.flatMap_cons]

@[simp] theorem flatMap_nil_right (l : List α) : l.flatMap (fun _ => ([] : List β)) = [] :=
  List.flatMap_eq_nil_iff.2 fun _ _ => rfl

theorem sum_parts {γ : Type u} {g : M → List β} (h0 : g 0 = []) (hadd : ∀ m n, g (m + n) = g m ++ g n) (part : γ → M)
    (l : List γ) : g (l.map part).sum = l.flatMap fun a => g (part a) := by
  rw [sum_flatMap h0 hadd, List.flatMap_map]

theorem sum_map [AddMonoid N] {g : M → N} (h0 : g 0 = 0) (hadd : ∀ m n, g (m + n) = g m + g n) (l : List M) :
    g l.sum = (l.map g).sum := by
  induction l with
  | nil => exact h0
  | cons m l ih => rw [List.sum_cons, hadd, ih, List.map_cons, List.sum_cons]

end Monoid

/-! ## Rows of a table -/

variable [DecidableEq κ]

/-- **Each row once.** A loop over distinct keys changes the row of every key, by the row as it was before the loop. -/
theorem foldl_update_apply {f : κ → α → α} {ks : List κ} (hks : ks.Nodup) (rows : κ → α) (k : κ) :
    ks.foldl (fun rows k => Function.update rows k (f k (rows k))) rows k =
      if k ∈ ks then f k (rows k) else rows k := by
  induction ks generalizing rows with
  | nil => simp
  | cons j ks ih =>
    obtain ⟨hj, hks⟩ := List.nodup_cons.1 hks
    rw [List.foldl_cons, ih hks]
    by_cases hkj : k = j
    · subst hkj
      simp [hj]
    · simp [hkj]

/-! ## Any order -/

section Order

variable {σ τ ι : Type*} {γ : Type*} {f : σ → γ → σ} {obs : σ → τ} {key : γ → ι} {g : τ → ι → τ} {p : γ → Prop}

/-- a pass over row a shows as a pass over its key -/
theorem foldl_observe (hstep : ∀ s a, p a → obs (f s a) = g (obs s) (key a)) {l : List γ} (hl : ∀ a ∈ l, p a) (s : σ) :
    obs (l.foldl f s) = (l.map key).foldl g (obs s) := by
  induction l generalizing s with
  | nil => rfl
  | cons a l ih =>
    obtain ⟨ha, hl⟩ := List.forall_mem_cons.1 hl
    rw [List.foldl_cons, ih hl, hstep s a ha, List.map_cons, List.foldl_cons]

/-- **Any order.** Rows with the same keys, in whatever order, show the same. -/
theorem foldl_observe_perm (hstep : ∀ s a, p a → obs (f s a) = g (obs s) (key a))
    (hcomm : ∀ t j k, g (g t j) k = g (g t k) j) {l l' : List γ} (hl : ∀ a ∈ l, p a) (hl' : ∀ a ∈ l', p a)
    (hkeys : (l.map key).Perm (l'.map key)) (s : σ) : obs (l.foldl f s) = obs (l'.foldl f s) := by
  rw [foldl_observe hstep hl, foldl_observe hstep hl']
  apply hkeys.foldl_eq'
  intro j _ k _ t
  exact hcomm t j k

end Order

end Vault67.Accumulate
