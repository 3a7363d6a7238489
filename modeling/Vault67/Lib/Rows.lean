/-
Tables as lists of rows with a key.

- `nodup_map_concat`: a new row whose key is above all others keeps the keys distinct.
- `filter_key_eq`: with distinct keys, the rows with the key of a row are that row alone.
- `map_filter_key`, `eq_of_map_key_eq`: a list of rows and the list of their keys.
- `dedup_length_eq_one`: a list has one distinct element exactly when all its elements are the same.
- `filter_agree`: two tables that agree on a selection agree on every selection from it.
- `sum_groups`: the sums over the groups of a table add up to the sum over the table.
- `forall₂_filter`: selecting matching rows from two tables that are related row by row.
- `abs_sum_sub_le`: the sums over two such tables differ by at most what each row allows.
-/
import Mathlib.Tactic
import Mathlib.Algebra.BigOperators.Group.List.Basic

namespace Vault67.Rows

variable {α β κ M : Type*} {key : α → κ}

/-! ## Keys -/

theorem nodup_map_concat (key : α → ℕ) {l : List α} {b : α} (hl : (l.map key).Nodup) (hb : ∀ a ∈ l, key a < key b) :
    ((l ++ [b]).map key).Nodup := by
  rw [List.map_append, List.nodup_append']
  refine ⟨hl, List.nodup_singleton _, ?_⟩
  simp only [List.map_cons, List.map_nil, List.disjoint_singleton, List.mem_map]
  rintro ⟨a, ha, e⟩
  exact (hb a ha).ne e

theorem nodup_map_concat_of_ne {l : List α} {b : α} (hl : (l.map key).Nodup) (hb : ∀ a ∈ l, key a ≠ key b) :
    ((l ++ [b]).map key).Nodup := by
  rw [List.map_append, List.nodup_append']
  refine ⟨hl, List.nodup_singleton _, ?_⟩
  intro k hk hk'
  obtain ⟨a, ha, rfl⟩ := List.mem_map.1 hk
  exact hb a ha (List.mem_singleton.1 hk')

variable [DecidableEq κ]

theorem filter_key_eq {l : List α} (hl : (l.map key).Nodup) {a : α} (ha : a ∈ l) :
    l.filter (fun b => decide (key b = key a)) = [a] := by
  induction l with
  | nil => simp at ha
  | cons b l ih =>
    obtain ⟨hb, hl⟩ := List.nodup_cons.1 hl
    rcases List.mem_cons.1 ha with rfl | ha
    · have hnil : l.filter (fun b => decide (key b = key a)) = [] :=
        List.filter_eq_nil_iff.2 fun c hc e => hb (List.mem_map.2 ⟨c, hc, of_decide_eq_true e⟩)
      simp [hnil]
    · have hne : key b ≠ key a := fun e => hb (List.mem_map.2 ⟨a, ha, e.symm⟩)
      simp [hne, ih hl ha]

theorem dedup_length_eq_one {l : List κ} (hne : l ≠ []) : l.dedup.length = 1 ↔ ∃ k, ∀ x ∈ l, x = k := by
  refine ⟨?_, ?_⟩
  · intro h
    obtain ⟨k, hk⟩ := List.length_eq_one_iff.1 h
    refine ⟨k, fun x hx => ?_⟩
    rw [← List.mem_singleton, ← hk]
    exact List.mem_dedup.2 hx
  · intro h
    obtain ⟨k, hk⟩ := h
    rw [List.eq_replicate_of_mem hk, List.replicate_dedup (List.length_pos_iff.2 hne).ne']
    rfl

/-! ## Tables that agree on a selection -/

omit [DecidableEq κ] in
/-- two tables that agree on a selection agree on everything selected further from it -/
theorem filter_agree {p p' q q' : α → Bool} {l m : List α} (h : l.filter q = m.filter q')
    (hl : ∀ a ∈ l, p a = true → q a = true) (hm : ∀ a ∈ m, p' a = true → q' a = true)
    (hpp : ∀ a ∈ l.filter q, p a = p' a) : l.filter p = m.filter p' := by
  have hsub : ∀ (p q : α → Bool) (l : List α), (∀ a ∈ l, p a = true → q a = true) →
      l.filter p = (l.filter q).filter p := by
    intro p q l hpq
    rw [List.filter_filter]
    apply List.filter_congr
    intro a ha
    cases hp : p a
    · rfl
    · rw [hpq a ha hp]
      rfl
  calc l.filter p = (l.filter q).filter p := hsub p q l hl
    _ = (l.filter q).filter p' := List.filter_congr hpp
    _ = (m.filter q').filter p' := by rw [h]
    _ = m.filter p' := (hsub p' q' m hm).symm

omit [DecidableEq κ] in
/-- the same further selection from both -/
theorem filter_agree_of_imp {p q : α → Prop} [DecidablePred p] [DecidablePred q] {l m : List α}
    (h : (l.filter fun a => q a) = m.filter fun a => q a) (hpq : ∀ a, p a → q a) :
    (l.filter fun a => p a) = m.filter fun a => p a := by
  have hdecide : ∀ a, decide (p a) = true → decide (q a) = true := fun a ha =>
    decide_eq_true (hpq a (of_decide_eq_true ha))
  exact filter_agree h (fun a _ => hdecide a) (fun a _ => hdecide a) fun _ _ => rfl

/-! ## Groups -/

variable [AddCommMonoid M]

theorem sum_ite_key {keys : List κ} (hk : keys.Nodup) {k : κ} (h : k ∈ keys) (x : M) :
    (keys.map fun j => if k = j then x else 0).sum = x := by
  induction keys with
  | nil => simp at h
  | cons j keys ih =>
    obtain ⟨hj, hk⟩ := List.nodup_cons.1 hk
    rw [List.map_cons, List.sum_cons]
    rcases List.mem_cons.1 h with rfl | h
    · have hz : (keys.map fun j => if k = j then x else 0) = keys.map fun _ => 0 :=
        List.map_congr_left fun j hj' => if_neg (ne_of_mem_of_not_mem hj' hj).symm
      rw [if_pos rfl, hz, List.sum_map_zero, add_zero]
    · rw [if_neg (ne_of_mem_of_not_mem h hj), zero_add, ih hk h]

/-- **Groups.** Every row is in exactly one group. -/
theorem sum_groups (key : α → κ) {keys : List κ} (hk : keys.Nodup) {l : List α} (hl : ∀ a ∈ l, key a ∈ keys) (f : α → M) :
    (keys.map fun k => ((l.filter fun a => decide (key a = k)).map f).sum).sum = (l.map f).sum := by
  induction l with
  | nil => simp
  | cons a l ih =>
    have hcons : ∀ k, (((a :: l).filter fun a => decide (key a = k)).map f).sum =
        (if key a = k then f a else 0) + ((l.filter fun a => decide (key a = k)).map f).sum := fun k => by
      by_cases h : key a = k <;> simp [h]
    simp only [hcons, List.sum_map_add, List.map_cons, List.sum_cons]
    rw [sum_ite_key hk (hl a List.mem_cons_self), ih fun b hb => hl b (List.mem_cons_of_mem a hb)]

omit [DecidableEq κ] in
/-- the selected rows that have p, and those that do not -/
theorem sum_filter_split (p q : α → Prop) [DecidablePred p] [DecidablePred q] (l : List α) (f : α → M) :
    ((l.filter fun a => q a).map f).sum =
      ((l.filter fun a => p a ∧ q a).map f).sum + ((l.filter fun a => ¬p a ∧ q a).map f).sum := by
  rw [← List.sum_map_filter_add_sum_map_filter_not p, List.filter_filter, List.filter_filter]
  simp only [Bool.decide_and, decide_not]

omit [DecidableEq κ] [AddCommMonoid M] in
/-- what yields no rows can be left out -/
theorem flatMap_filter_of_nil {p : α → Bool} {f : α → List β} {l : List α} (h : ∀ a ∈ l, p a = false → f a = []) :
    (l.filter p).flatMap f = l.flatMap f := by
  induction l with
  | nil => rfl
  | cons a l ih =>
    obtain ⟨ha, hl⟩ := List.forall_mem_cons.1 h
    cases hp : p a with
    | false => rw [List.filter_cons_of_neg (by simp [hp]), ih hl, List.flatMap_cons, ha hp, List.nil_append]
    | true => rw [List.filter_cons_of_pos hp, List.flatMap_cons, List.flatMap_cons, ih hl]

/-! ## Tables related row by row -/

omit [DecidableEq κ] [AddCommMonoid M] in
theorem forall₂_filter {R : α → β → Prop} {p : α → Bool} {q : β → Bool} (h : ∀ a b, R a b → p a = q b) {l : List α}
    {m : List β} (hlm : List.Forall₂ R l m) : List.Forall₂ R (l.filter p) (m.filter q) := by
  induction hlm with
  | nil => exact .nil
  | cons hab _ ih =>
    rw [List.filter_cons, List.filter_cons, h _ _ hab]
    split
    · exact .cons hab ih
    · exact ih

omit [DecidableEq κ] in
/-- rows found under their keys -/
theorem forall₂_key (key : α → κ) {R : κ → α → Prop} (hR : ∀ k a, R k a → key a = k) {keys : List κ} {l : List α}
    (h : List.Forall₂ R keys l) : l.map key = keys ∧ ∀ a ∈ l, R (key a) a := by
  induction h with
  | nil => simp
  | cons hka _ ih =>
    refine ⟨?_, List.forall_mem_cons.2 ⟨?_, ih.2⟩⟩
    · rw [List.map_cons, hR _ _ hka, ih.1]
    · rwa [hR _ _ hka]

omit [DecidableEq κ] [AddCommMonoid M] in
theorem forall₂_imp {R S : α → β → Prop} {l : List α} {m : List β} (hRS : ∀ a ∈ l, ∀ b ∈ m, R a b → S a b)
    (h : List.Forall₂ R l m) : List.Forall₂ S l m := by
  induction h with
  | nil => exact .nil
  | cons hab _ ih =>
    refine .cons (hRS _ List.mem_cons_self _ List.mem_cons_self hab) (ih ?_)
    exact fun a ha b hb => hRS a (List.mem_cons_of_mem _ ha) b (List.mem_cons_of_mem _ hb)

omit [DecidableEq κ] [AddCommMonoid M] in
theorem exists_of_mem_right {R : α → β → Prop} {l : List α} {m : List β} (h : List.Forall₂ R l m) {b : β}
    (hb : b ∈ m) : ∃ a ∈ l, R a b := by
  induction h with
  | nil => simp at hb
  | cons hab _ ih =>
    rcases List.mem_cons.1 hb with rfl | hb
    · exact ⟨_, List.mem_cons_self, hab⟩
    · obtain ⟨a, ha, hR⟩ := ih hb
      exact ⟨a, List.mem_cons_of_mem _ ha, hR⟩

omit [DecidableEq κ] [AddCommMonoid M] in
theorem exists_of_mem_left {R : α → β → Prop} {l : List α} {m : List β} (h : List.Forall₂ R l m) {a : α}
    (ha : a ∈ l) : ∃ b ∈ m, R a b := exists_of_mem_right h.flip ha

/-- **Errors add up.** Two sums over related rows differ by at most the sum of the differences allowed for each row. -/
theorem abs_sum_sub_le {K : Type*} [AddCommGroup K] [LinearOrder K] [IsOrderedAddMonoid K] {R : α → β → Prop}
    {f ε : α → K} {g : β → K} (hR : ∀ a b, R a b → |g b - f a| ≤ ε a) {l : List α} {m : List β}
    (h : List.Forall₂ R l m) : |(m.map g).sum - (l.map f).sum| ≤ (l.map ε).sum := by
  induction h with
  | nil => simp
  | @cons a b l m hab _ ih =>
    simp only [List.map_cons, List.sum_cons]
    calc |g b + (m.map g).sum - (f a + (l.map f).sum)|
        = |(g b - f a) + ((m.map g).sum - (l.map f).sum)| := by rw [add_sub_add_comm]
      _ ≤ |g b - f a| + |(m.map g).sum - (l.map f).sum| := abs_add_le _ _
      _ ≤ ε a + (l.map ε).sum := add_le_add (hR a b hab) ih

end Vault67.Rows
