/-
Ordering the rows of a query by a key: `orderBy key l` is l sorted by key, rows with equal keys in their old order.

- `filter_orderBy`: selecting rows and ordering them commute.
- `orderBy_concat`: a row added at the end of a table is placed after every row whose key is at most its own.
- `orderBy_split`: the rows below a bound are a prefix of the ordered rows.
- `head?_orderBy_eq_some`: the first row is the one with the least key.
-/
import Mathlib.Tactic
import Mathlib.Data.List.Sort

namespace Vault67.OrderBy

variable {α κ : Type*} [LinearOrder κ] {key : α → κ}

def orderBy (key : α → κ) (l : List α) : List α := l.insertionSort (fun a b => key a ≤ key b)

instance instTotalKey : Std.Total (fun a b : α => key a ≤ key b) :=
  ⟨fun a b => le_total (key a) (key b)⟩

instance instTransKey : IsTrans α (fun a b => key a ≤ key b) := ⟨fun _ _ _ => le_trans⟩

@[simp] theorem orderBy_nil : orderBy key [] = [] := rfl

theorem orderBy_cons (a : α) (l : List α) :
    orderBy key (a :: l) = (orderBy key l).orderedInsert (fun a b => key a ≤ key b) a := rfl

/-- only the keys of the rows matter -/
theorem orderBy_congr {key' : α → κ} {l : List α} (h : ∀ a ∈ l, key a = key' a) : orderBy key l = orderBy key' l := by
  have hinsert : ∀ (a : α) (l : List α), key a = key' a → (∀ b ∈ l, key b = key' b) →
      l.orderedInsert (fun a b => key a ≤ key b) a = l.orderedInsert (fun a b => key' a ≤ key' b) a := by
    intro a l ha hl
    induction l with
    | nil => rfl
    | cons b l ih =>
      rw [List.orderedInsert_cons, List.orderedInsert_cons, ha, hl b List.mem_cons_self,
        ih fun c hc => hl c (List.mem_cons_of_mem b hc)]
  induction l with
  | nil => rfl
  | cons a l ih =>
    have hl : ∀ b ∈ l, key b = key' b := fun b hb => h b (List.mem_cons_of_mem a hb)
    rw [orderBy_cons, orderBy_cons, ih hl]
    refine hinsert a _ (h a List.mem_cons_self) fun b hb => hl b ?_
    exact (List.perm_insertionSort _ l).mem_iff.1 hb

theorem orderBy_perm (key : α → κ) (l : List α) : (orderBy key l).Perm l := List.perm_insertionSort _ l

@[simp] theorem mem_orderBy {a : α} {l : List α} : a ∈ orderBy key l ↔ a ∈ l := (orderBy_perm key l).mem_iff

theorem orderBy_sorted (key : α → κ) (l : List α) : (orderBy key l).Pairwise (fun a b => key a ≤ key b) :=
  List.pairwise_insertionSort _ l

theorem orderedInsert_append_right {a : α} {l₁ : List α} (l₂ : List α) (h : ∀ b ∈ l₁, key b < key a) :
    (l₁ ++ l₂).orderedInsert (fun a b => key a ≤ key b) a = l₁ ++ l₂.orderedInsert (fun a b => key a ≤ key b) a := by
  induction l₁ with
  | nil => rfl
  | cons b l₁ ih =>
    have hb : ¬ key a ≤ key b := not_le.2 (h b List.mem_cons_self)
    rw [List.cons_append, List.orderedInsert_cons, if_neg hb, ih fun c hc => h c (List.mem_cons_of_mem b hc)]
    rfl

theorem orderedInsert_append_left {a b : α} (l₁ l₂ : List α) (h : key a ≤ key b) :
    (l₁ ++ b :: l₂).orderedInsert (fun a b => key a ≤ key b) a =
      l₁.orderedInsert (fun a b => key a ≤ key b) a ++ b :: l₂ := by
  induction l₁ with
  | nil => simp [h]
  | cons c l₁ ih =>
    rw [List.cons_append, List.orderedInsert_cons, List.orderedInsert_cons, ih]
    split_ifs <;> rfl

theorem orderedInsert_of_forall_le {a : α} {l : List α} (h : ∀ b ∈ l, key a ≤ key b) :
    l.orderedInsert (fun a b => key a ≤ key b) a = a :: l := by
  cases l with
  | nil => rfl
  | cons b l => rw [List.orderedInsert_cons, if_pos (h b List.mem_cons_self)]

/-- inserting in an ordered list and selecting rows commute -/
theorem filter_orderedInsert (p : α → Bool) (a : α) {l : List α} (hl : l.Pairwise (fun a b => key a ≤ key b)) :
    (l.orderedInsert (fun a b => key a ≤ key b) a).filter p =
      if p a then (l.filter p).orderedInsert (fun a b => key a ≤ key b) a else l.filter p := by
  induction l with
  | nil => cases h : p a <;> simp [h]
  | cons b l ih =>
    have hb := List.pairwise_cons.1 hl
    rw [List.orderedInsert_cons]
    by_cases hab : key a ≤ key b
    · -- a goes in front of b, hence in front of every selected row
      have hle : ∀ c ∈ (b :: l).filter p, key a ≤ key c := by
        intro c hc
        rcases List.mem_cons.1 (List.mem_filter.1 hc).1 with rfl | hc
        · exact hab
        · exact hab.trans (hb.1 c hc)
      rw [if_pos hab, orderedInsert_of_forall_le hle]
      cases h : p a <;> simp [h]
    · rw [if_neg hab]
      cases hpb : p b
      · simp only [List.filter_cons, hpb, Bool.false_eq_true, if_false]
        exact ih hb.2
      · simp only [List.filter_cons, hpb, if_true, ih hb.2]
        cases h : p a
        · simp
        · simp [hab]

theorem filter_orderBy (p : α → Bool) (l : List α) : (orderBy key l).filter p = orderBy key (l.filter p) := by
  induction l with
  | nil => rfl
  | cons a l ih =>
    rw [orderBy_cons, filter_orderedInsert p a (orderBy_sorted key l), ih]
    cases h : p a <;> simp [h, orderBy_cons]

/-- an ordered list splits at any upward closed bound -/
theorem sorted_split {p : α → Bool} {l : List α} (hl : l.Pairwise (fun a b => key a ≤ key b))
    (hp : ∀ a b, key a ≤ key b → p b = true → p a = true) :
    l = l.filter p ++ l.filter (fun a => !p a) := by
  induction l with
  | nil => rfl
  | cons a l ih =>
    have ha := List.pairwise_cons.1 hl
    cases h : p a
    · -- nothing after a is selected
      have hnone : ∀ b ∈ l, p b = false := by
        intro b hb
        by_contra hpb
        have hpa := hp a b (ha.1 b hb) (by simpa using hpb)
        rw [h] at hpa
        exact Bool.false_ne_true hpa
      have h1 : l.filter p = [] := List.filter_eq_nil_iff.2 fun b hb => by simp [hnone b hb]
      have h2 : l.filter (fun a => !p a) = l := List.filter_eq_self.2 fun b hb => by simp [hnone b hb]
      simp [h, h1, h2]
    · simp only [List.filter_cons, h, if_true, Bool.not_true, Bool.false_eq_true, if_false, List.cons_append]
      rw [← ih ha.2]

theorem orderBy_split {p : α → Bool} (hp : ∀ a b, key a ≤ key b → p b = true → p a = true) (l : List α) :
    orderBy key l = orderBy key (l.filter p) ++ orderBy key (l.filter (fun a => !p a)) := by
  rw [← filter_orderBy, ← filter_orderBy]
  exact sorted_split (orderBy_sorted key l) hp

/-- **A new row.** Added at the end of the table, it is placed after every row whose key is at most its own. -/
theorem orderBy_concat (l : List α) (a : α) :
    orderBy key (l ++ [a]) =
      orderBy key (l.filter (fun b => decide (key b ≤ key a))) ++
        a :: orderBy key (l.filter (fun b => !decide (key b ≤ key a))) := by
  induction l with
  | nil => rfl
  | cons b l ih =>
    rw [List.cons_append, orderBy_cons, ih]
    by_cases hb : key b ≤ key a
    · rw [orderedInsert_append_left _ _ hb]
      simp [hb, orderBy_cons]
    · have hlt : ∀ c ∈ orderBy key (l.filter (fun b => decide (key b ≤ key a))), key c < key b := by
        intro c hc
        have hca : key c ≤ key a := by simpa using (List.mem_filter.1 (mem_orderBy.1 hc)).2
        exact hca.trans_lt (not_le.1 hb)
      rw [orderedInsert_append_right _ hlt, List.orderedInsert_cons, if_neg hb]
      simp [hb, orderBy_cons]

/-- with distinct keys, the rows up to a are the rows whose key is at most its own -/
theorem filter_le_perm {l A B : List α} {a : α} (hl : (l.map key).Nodup) (h : orderBy key l = A ++ a :: B) :
    (l.filter fun b => decide (key b ≤ key a)).Perm (A ++ [a]) := by
  have hsorted := orderBy_sorted key l
  have hnodup : ((orderBy key l).map key).Nodup := ((orderBy_perm key l).map key).nodup_iff.2 hl
  rw [h] at hsorted hnodup
  have hA : A.filter (fun b => decide (key b ≤ key a)) = A :=
    List.filter_eq_self.2 fun b hb =>
      decide_eq_true ((List.pairwise_append.1 hsorted).2.2 b hb a List.mem_cons_self)
  have hB : B.filter (fun b => decide (key b ≤ key a)) = [] := by
    apply List.filter_eq_nil_iff.2
    intro b hb hle
    have hge : key a ≤ key b := (List.pairwise_cons.1 (List.pairwise_append.1 hsorted).2.1).1 b hb
    have heq : key a = key b := le_antisymm hge (of_decide_eq_true hle)
    rw [List.map_append, List.map_cons] at hnodup
    exact (List.nodup_cons.1 (List.nodup_append'.1 hnodup).2.1).1 (heq ▸ List.mem_map_of_mem hb)
  have hfilter : (orderBy key l).filter (fun b => decide (key b ≤ key a)) = A ++ [a] := by
    rw [h, List.filter_append, List.filter_cons_of_pos (by simp), hA, hB]
  rw [← hfilter]
  exact ((orderBy_perm key l).filter _).symm

/-! ## The first row -/

theorem head?_orderBy_eq_none {l : List α} : (orderBy key l).head? = none ↔ l = [] := by
  rw [List.head?_eq_none_iff]
  refine ⟨fun h => List.perm_nil.1 (h ▸ (orderBy_perm key l).symm), fun h => ?_⟩
  rw [h, orderBy_nil]

/-- the first row has the least key -/
theorem head?_orderBy_le {l : List α} {a : α} (h : (orderBy key l).head? = some a) : a ∈ l ∧ ∀ b ∈ l, key a ≤ key b := by
  obtain ⟨rest, hrest⟩ := List.head?_eq_some_iff.1 h
  have hsorted := orderBy_sorted key l
  rw [hrest, List.pairwise_cons] at hsorted
  refine ⟨mem_orderBy.1 (hrest ▸ List.mem_cons_self), fun b hb => ?_⟩
  rcases List.mem_cons.1 (hrest ▸ mem_orderBy.2 hb) with rfl | hb
  · exact le_rfl
  · exact hsorted.1 b hb

/-- where rows with equal keys are equal, the first row is the one with the least key -/
theorem head?_orderBy_eq_some {l : List α} (hkey : ∀ a ∈ l, ∀ b ∈ l, key a = key b → a = b) {a : α} :
    (orderBy key l).head? = some a ↔ a ∈ l ∧ ∀ b ∈ l, key a ≤ key b := by
  refine ⟨head?_orderBy_le, fun h => ?_⟩
  obtain ⟨ha, hle⟩ := h
  cases hfirst : (orderBy key l).head? with
  | none =>
    rw [head?_orderBy_eq_none.1 hfirst] at ha
    cases ha
  | some b =>
    obtain ⟨hb, hleast⟩ := head?_orderBy_le hfirst
    rw [hkey b hb a ha (le_antisymm (hleast a ha) (hle b hb))]

/-! ## Distinct values -/

variable [DecidableEq α]

/-- the values of a list, each where it first occurs -/
def distinct (l : List α) : List α := l.reverse.dedup.reverse

@[simp] theorem mem_distinct {a : α} {l : List α} : a ∈ distinct l ↔ a ∈ l := by
  simp [distinct]

theorem distinct_nodup (l : List α) : (distinct l).Nodup := List.nodup_reverse.2 (List.nodup_dedup _)

end Vault67.OrderBy
