/-
Rows with equal keys keep their old order.

- `sorted_ext`: an ordered list is known by its rows with each key.
- `orderBy_reverse_twice`: reversing an ordered list and ordering it again, twice, gives it back.
- `orderBy_forall₂`: lists of related rows with the same keys are ordered alike.
-/
import Mathlib.Tactic
import Mathlib.Data.List.Sort
import Vault67.Lib.OrderBy

namespace Vault67.OrderBy

variable {α β κ : Type*} [LinearOrder κ] {key : α → κ} {l l' : List α}

theorem orderBy_of_sorted (h : l.Pairwise fun a b => key a ≤ key b) : orderBy key l = l := h.insertionSort_eq

/-- with distinct keys there is one ordered list of the rows -/
theorem orderBy_of_perm (hperm : l'.Perm l) (hsorted : l'.Pairwise fun a b => key a ≤ key b)
    (hkey : ∀ a ∈ l, ∀ b ∈ l, key a = key b → a = b) : orderBy key l = l' := by
  refine List.Perm.eq_of_pairwise ?_ (orderBy_sorted key l) hsorted ((orderBy_perm key l).trans hperm.symm)
  intro a b ha hb hab hba
  exact hkey a (mem_orderBy.1 ha) b (hperm.mem_iff.1 hb) (le_antisymm hab hba)

/-- the rows with one key stay as they are -/
theorem filter_key_orderBy (l : List α) (k : κ) : (orderBy key l).filter (key · = k) = l.filter (key · = k) := by
  rw [filter_orderBy]
  apply orderBy_of_sorted
  refine List.pairwise_of_forall_mem_list fun a ha b hb => ?_
  simp only [List.mem_filter, decide_eq_true_eq] at ha hb
  rw [ha.2, hb.2]

theorem mem_of_filter_key (h : ∀ k, l.filter (key · = k) = l'.filter (key · = k)) (a : α) : a ∈ l ↔ a ∈ l' := by
  simpa using congrArg (a ∈ ·) (h (key a))

/-- **An ordered list is known by its rows with each key.** Both lists begin with the first row of the least key. -/
theorem sorted_ext (hl : l.Pairwise fun a b => key a ≤ key b) (hl' : l'.Pairwise fun a b => key a ≤ key b)
    (h : ∀ k, l.filter (key · = k) = l'.filter (key · = k)) : l = l' := by
  induction l generalizing l' with
  | nil =>
    cases l' with
    | nil => rfl
    | cons b l' => simpa using mem_of_filter_key h b
  | cons a l ih =>
    cases l' with
    | nil => simpa using mem_of_filter_key h a
    | cons b l' =>
      obtain ⟨ha, hl⟩ := List.pairwise_cons.1 hl
      obtain ⟨hb, htail⟩ := List.pairwise_cons.1 hl'
      have hba : key b ≤ key a := by
        rcases List.mem_cons.1 ((mem_of_filter_key h a).1 List.mem_cons_self) with rfl | hin
        · exact le_refl _
        · exact hb a hin
      have hab : key a ≤ key b := by
        rcases List.mem_cons.1 ((mem_of_filter_key h b).2 List.mem_cons_self) with rfl | hin
        · exact le_refl _
        · exact ha b hin
      have hkey := le_antisymm hab hba
      have hfirst := h (key a)
      simp only [List.filter_cons, hkey, decide_true, if_true, List.cons.injEq] at hfirst
      obtain ⟨rfl, -⟩ := hfirst
      have hrest : ∀ k, l.filter (key · = k) = l'.filter (key · = k) := by
        intro k
        have hk := h k
        by_cases hak : key a = k
        · simpa [List.filter_cons, hak] using hk
        · simpa [List.filter_cons, hak] using hk
      rw [ih hl htail hrest]

theorem orderBy_unique (hl' : l'.Pairwise fun a b => key a ≤ key b)
    (h : ∀ k, l.filter (key · = k) = l'.filter (key · = k)) : orderBy key l = l' :=
  sorted_ext (orderBy_sorted key l) hl' fun k => (filter_key_orderBy l k).trans (h k)

/-- **Twice is not at all.** -/
theorem orderBy_reverse_twice (hl : l.Pairwise fun a b => key a ≤ key b) :
    orderBy key (orderBy key l.reverse).reverse = l := by
  apply orderBy_unique hl
  intro k
  calc (orderBy key l.reverse).reverse.filter (key · = k)
      = ((orderBy key l.reverse).filter (key · = k)).reverse := List.filter_reverse
    _ = (l.reverse.filter (key · = k)).reverse := by rw [filter_key_orderBy]
    _ = l.filter (key · = k) := by rw [List.filter_reverse, List.reverse_reverse]

/-! ## Related rows -/

variable {R : α → β → Prop} {key' : β → κ}

theorem orderedInsert_forall₂ (hkey : ∀ a b, R a b → key a = key' b) {a : α} {b : β} (hab : R a b) {m : List β}
    (h : List.Forall₂ R l m) :
    List.Forall₂ R (l.orderedInsert (fun a b => key a ≤ key b) a) (m.orderedInsert (fun a b => key' a ≤ key' b) b) := by
  induction h with
  | nil => exact .cons hab .nil
  | @cons c d l m hcd hrest ih =>
    rw [List.orderedInsert_cons, List.orderedInsert_cons, hkey a b hab, hkey c d hcd]
    split_ifs
    · exact .cons hab (.cons hcd hrest)
    · exact .cons hcd ih

theorem orderBy_forall₂ (hkey : ∀ a b, R a b → key a = key' b) {m : List β} (h : List.Forall₂ R l m) :
    List.Forall₂ R (orderBy key l) (orderBy key' m) := by
  induction h with
  | nil => exact .nil
  | cons hab _ ih =>
    rw [orderBy_cons, orderBy_cons]
    exact orderedInsert_forall₂ hkey hab ih

end Vault67.OrderBy
