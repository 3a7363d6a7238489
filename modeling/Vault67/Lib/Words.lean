/-
Searching a text for a keyword, word by word.

A letter is what a class p says; the words are the maximal runs of letters. The text is searched after every character
was replaced by a list of characters (a case folding does this).

- `infix_of_separator`: a keyword without the characters of a separator lies on one side of it.
- `infix_flatMap_iff`: so a keyword of letters occurs in a text exactly when it occurs in one of its words.
- `find?_eq_iff`: of kinds in an order, a part of a text has the same first one as the text exactly when every beginning
  of the order that the text has a kind of is one that the part has a kind of.
-/
import Mathlib.Tactic

namespace Vault67.Words

variable {α β : Type}

/-- the maximal runs of p -/
def words (p : α → Bool) (l : List α) : List (List α) := (l.splitOnP fun a => !p a).filter (· ≠ [])

/-! ## Separators -/

theorem infix_of_separator {k A S B : List β} (hk : k ≠ []) (hS : S ≠ []) (hsep : ∀ x ∈ S, x ∉ k) :
    k <:+: A ++ (S ++ B) ↔ k <:+: A ∨ k <:+: B := by
  -- no part of k at the end of S, and none at its beginning
  have hleft : ∀ {l : List β}, l <:+: k → l <:+: S → l = [] := by
    intro l hlk hlS
    refine List.eq_nil_iff_forall_not_mem.2 fun x hx => ?_
    exact hsep x (hlS.subset hx) (hlk.subset hx)
  refine ⟨fun h => ?_, fun h => ?_⟩
  · rcases List.infix_append_iff_ne_nil.1 h with hA | hSB | ⟨l₁, l₂, -, hl₂, rfl, -, hl₂SB⟩
    · exact Or.inl hA
    · rcases List.infix_append_iff_ne_nil.1 hSB with hinS | hB | ⟨l₁, l₂, hl₁, -, rfl, hl₁S, -⟩
      · exact absurd (hleft (List.infix_refl k) hinS) hk
      · exact Or.inr hB
      · exact absurd (hleft List.infix_append_left hl₁S.isInfix) hl₁
    · -- the part of k behind A would begin with a character of S
      obtain ⟨s, S', rfl⟩ := List.exists_cons_of_ne_nil hS
      obtain ⟨x, l₂', rfl⟩ := List.exists_cons_of_ne_nil hl₂
      obtain ⟨rfl, -⟩ := List.cons_prefix_cons.1 hl₂SB
      exact absurd (List.mem_append_right _ List.mem_cons_self) (hsep x List.mem_cons_self)
  · rcases h with hA | hB
    · exact List.infix_append_of_infix_left hA
    · exact List.infix_append_of_infix_right (List.infix_append_of_infix_right hB)

/-! ## Words -/

section

variable {p : α → Bool} {f : α → List β} {k : List β}

/-- the text after the letters that have been read -/
theorem infix_splitOnPPrepend_iff (hk : k ≠ []) (hsep : ∀ a, p a = false → f a ≠ [] ∧ ∀ x ∈ f a, x ∉ k) (l acc : List α) :
    k <:+: (acc.reverse ++ l).flatMap f ↔ ∃ w ∈ l.splitOnPPrepend (fun a => !p a) acc, k <:+: w.flatMap f := by
  induction l generalizing acc with
  | nil => simp
  | cons a l ih =>
    by_cases ha : p a = true
    · rw [List.splitOnPPrepend_cons_neg (by simp [ha]), ← ih, List.reverse_cons, List.append_assoc, List.singleton_append]
    · obtain ⟨hne, hout⟩ := hsep a (Bool.eq_false_iff.2 ha)
      rw [List.splitOnPPrepend_cons_pos (by simp [ha]), List.flatMap_append, List.flatMap_cons,
        infix_of_separator hk hne hout, List.exists_mem_cons_iff, List.splitOnP_eq_splitOnPPrepend, ← ih]
      rfl

theorem infix_flatMap_iff (hk : k ≠ []) (hsep : ∀ a, p a = false → f a ≠ [] ∧ ∀ x ∈ f a, x ∉ k) (l : List α) :
    k <:+: l.flatMap f ↔ ∃ w ∈ words p l, k <:+: w.flatMap f := by
  rw [show l = [].reverse ++ l from rfl, infix_splitOnPPrepend_iff hk hsep]
  refine ⟨?_, ?_⟩
  · rintro ⟨w, hw, hkw⟩
    refine ⟨w, List.mem_filter.2 ⟨hw, decide_eq_true ?_⟩, hkw⟩
    rintro rfl
    exact hk (List.infix_nil.1 hkw)
  · rintro ⟨w, hw, hkw⟩
    exact ⟨w, (List.mem_filter.1 hw).1, hkw⟩

end

/-! ## The first kind of a text and of a part of it -/

theorem find?_eq_iff {p q : α → Bool} {kinds : List α} (hqp : ∀ x ∈ kinds, q x → p x) :
    kinds.find? q = kinds.find? p ↔ ∀ first, first <+: kinds → (∃ x ∈ first, p x) → ∃ x ∈ first, q x := by
  induction kinds with
  | nil => simp
  | cons x kinds ih =>
    obtain ⟨hx, hkinds⟩ := List.forall_mem_cons.1 hqp
    by_cases hp : p x
    · rw [List.find?_cons_of_pos hp]
      by_cases hq : q x
      · rw [List.find?_cons_of_pos hq]
        refine iff_of_true rfl fun first hfirst hany => ?_
        rcases List.prefix_cons_iff.1 hfirst with rfl | ⟨rest, rfl, -⟩
        · simp at hany
        · exact ⟨x, List.mem_cons_self, hq⟩
      · -- a part without the first kind of the text
        refine iff_of_false (fun h => hq (List.find?_some h)) fun h => hq ?_
        simpa using h [x] ((List.prefix_append [x] kinds)) ⟨x, List.mem_cons_self, hp⟩
    · have hq : ¬q x := mt hx hp
      rw [List.find?_cons_of_neg hp, List.find?_cons_of_neg hq, ih hkinds]
      refine ⟨fun h first hfirst hany => ?_, fun h first hfirst hany => ?_⟩
      · rcases List.prefix_cons_iff.1 hfirst with rfl | ⟨rest, rfl, hrest⟩
        · simp at hany
        · have hany : ∃ y ∈ rest, p y := by simpa [hp] using hany
          obtain ⟨y, hy, hqy⟩ := h rest hrest hany
          exact ⟨y, List.mem_cons_of_mem x hy, hqy⟩
      · obtain ⟨y, hy, hpy⟩ := hany
        simpa [hq] using h (x :: first) (List.cons_prefix_cons.2 ⟨rfl, hfirst⟩) ⟨y, List.mem_cons_of_mem x hy, hpy⟩

end Vault67.Words
