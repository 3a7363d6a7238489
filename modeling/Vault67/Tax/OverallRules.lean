/-
Overall reductions: the manual ones are shared, the rules repeat.

`Shared r b b'`: rule r takes the rows from b to b' as `_apply_overall_reduction` would with the rule's limit.

- `reductionRule_taxable`: the rule loop takes up to the limit from every category.
- `shared_iff`: that is a shared reduction in three cases only: the limit is zero, or it covers the whole taxable
  amount, or at most one category has any.
- `overallRule_shared_iff`: for every rule at its place in the rule loop of a tax year.
-/
import Mathlib.Tactic
import Vault67.Tax.Reductions

namespace Vault67.Tax

open Waterfall Fallible

/-- what the traces added between b and b' say was taken off category c -/
def recorded (b b' : Breakdowns) (c : TaxableCategory) : ℚ :=
  (((b' c).appliedRules.drop (b c).appliedRules.length).map fun trace => -trace.adjustment).sum

structure Shared (r : TaxRule) (b b' : Breakdowns) : Prop where
  total : b'.total CategoryTaxBreakdown.taxableAmount = b.total CategoryTaxBreakdown.taxableAmount -
    min r.reductionLimit (b.total CategoryTaxBreakdown.taxableAmount)
  inOrder : ∀ c ∈ categoryOrder,
    (b' c).taxableAmount = (applyOverallReduction b r.reductionLimit r.attr c).taxableAmount
  recorded_le : (categoryOrder.map (recorded b b')).sum ≤ r.reductionLimit

/-- the cases in which taking up to the limit from every category is the same as sharing it -/
def OneShare (r : TaxRule) (b : Breakdowns) : Prop :=
  r.reductionLimit = 0 ∨ b.total CategoryTaxBreakdown.taxableAmount ≤ r.reductionLimit ∨
    (categoryOrder.filter fun c => 0 < (b c).taxableAmount).length ≤ 1

variable {r : TaxRule} {b : Breakdowns}

theorem reductionRule_taxable (hr : r.category = .overall) {c : TaxableCategory} (hc : c ∈ categoryOrder) :
    (reductionRule b r c).taxableAmount = (b c).taxableAmount - min (b c).taxableAmount r.reductionLimit := by
  have htarget : c ∈ r.targets := by
    rw [TaxRule.targets, if_pos hr]
    exact hc
  rw [reductionRule_apply, if_pos htarget]
  exact take_taxableAmount _ _ _

theorem recorded_reductionRule (hr : r.category = .overall) {c : TaxableCategory} (hc : c ∈ categoryOrder) :
    recorded b (reductionRule b r) c = min (b c).taxableAmount r.reductionLimit := by
  have htarget : c ∈ r.targets := by
    rw [TaxRule.targets, if_pos hr]
    exact hc
  simp [recorded, reductionRule_apply, htarget, reduceRow]

/-- **Shared or repeated.** From rows that are not negative, an overall rule is used as one shared reduction exactly
when its limit is zero, no less than what is left in all categories, or met by one category at most. -/
theorem shared_iff (hr : r.category = .overall) (hb : ∀ c ∈ categoryOrder, 0 ≤ (b c).taxableAmount) :
    Shared r b (reductionRule b r) ↔ OneShare r b := by
  -- the waterfall reads each row's taxable amount from zero up
  let avail : TaxableCategory → ℚ := fun c => max 0 (b c).taxableAmount
  have havail : ∀ c ∈ categoryOrder, avail c = (b c).taxableAmount := fun c hc => max_eq_right (hb c hc)
  have h0 : ∀ c, 0 ≤ avail c := fun c => le_max_left _ _
  have hL := r.reductionLimit_nonneg
  have htotal : (categoryOrder.map avail).sum = b.total CategoryTaxBreakdown.taxableAmount :=
    congrArg List.sum (List.map_congr_left havail)
  have hpositive : (categoryOrder.filter fun c => decide (0 < avail c)) =
      categoryOrder.filter fun c => decide (0 < (b c).taxableAmount) :=
    List.filter_congr fun c hc => by rw [havail c hc]
  have hiff := min_eq_drain_iff categoryOrder_nodup h0 hL
  rw [htotal, hpositive] at hiff
  have hdrain : ∀ c ∈ categoryOrder, (applyOverallReduction b r.reductionLimit r.attr c).taxableAmount =
      (b c).taxableAmount - drain avail categoryOrder r.reductionLimit c := by
    intro c _
    rw [applyOverallReduction, reduceInOrder_apply categoryOrder_nodup, take_taxableAmount]
  have hmin : ∀ c ∈ categoryOrder, min (avail c) r.reductionLimit = drain avail categoryOrder r.reductionLimit c ↔
      (reductionRule b r c).taxableAmount = (applyOverallReduction b r.reductionLimit r.attr c).taxableAmount := by
    intro c hc
    rw [reductionRule_taxable hr hc, hdrain c hc, havail c hc, sub_right_inj]
  unfold OneShare
  rw [← hiff]
  refine ⟨?_, ?_⟩
  · intro hshared c hc
    exact (hmin c hc).2 (hshared.inOrder c hc)
  · intro heq
    have hsum : (categoryOrder.map (recorded b (reductionRule b r))).sum =
        min r.reductionLimit (b.total CategoryTaxBreakdown.taxableAmount) := by
      calc (categoryOrder.map (recorded b (reductionRule b r))).sum
          = (categoryOrder.map (drain avail categoryOrder r.reductionLimit)).sum := by
            refine congrArg List.sum (List.map_congr_left fun c hc => ?_)
            rw [recorded_reductionRule hr hc, ← havail c hc, heq c hc]
        _ = min r.reductionLimit (categoryOrder.map avail).sum := drain_sum categoryOrder_nodup h0 hL
        _ = _ := by rw [htotal]
    refine ⟨?_, fun c hc => (hmin c hc).1 (heq c hc), ?_⟩
    · rw [← hsum, eq_sub_iff_add_eq]
      unfold Breakdowns.total
      rw [← List.sum_map_add]
      refine congrArg List.sum (List.map_congr_left fun c hc => ?_)
      rw [reductionRule_taxable hr hc, recorded_reductionRule hr hc, sub_add_cancel]
    · rw [hsum]
      exact min_le_left _ _

variable {db : Db} {fx : Fx} {tables : TaxTables} {taxYear : TaxYear} {s : Collected}

/-- the rows just before a rule of the rule loop, the rules pre having been applied -/
def rowsBefore (s : Collected) (pre : List TaxRule) : Breakdowns := pre.foldl reductionRule (applyManual s)

/-- **Each overall rule.** The rows of a summary pass through every rule of the year, and there an overall rule is
shared as a manual overall reduction is exactly in the three cases. -/
theorem overallRule_shared_iff (hs : collect db fx tables taxYear = .ok s) {pre post : List TaxRule}
    (hsplit : reductionRules tables taxYear = pre ++ r :: post) (hr : r.category = .overall) :
    applyRules tables taxYear (applyManual s) = (flatRateRules tables taxYear).foldlM flatRateRule
      (post.foldl reductionRule (reductionRule (rowsBefore s pre) r)) ∧
    (Shared r (rowsBefore s pre) (reductionRule (rowsBefore s pre) r) ↔ OneShare r (rowsBefore s pre)) := by
  refine ⟨?_, ?_⟩
  · rw [applyRules, hsplit, List.foldl_append, List.foldl_cons, rowsBefore]
  · apply shared_iff hr
    intro c hc
    exact (reductionRules_explained (applyManual_explained (collect_valid hs)) pre c hc).taxable_nonneg

theorem overallRule_shared_twoIncomes :
    ∃ s, collect plainDb ⟨[], 365⟩ twoIncomes plainYear = .ok s ∧
      (Shared saverRule (rowsBefore s []) (reductionRule (rowsBefore s []) saverRule) ↔
        OneShare saverRule (rowsBefore s [])) := by
  obtain ⟨s, hs⟩ := exists_ok_of_isOk (x := collect plainDb ⟨[], 365⟩ twoIncomes plainYear) (by decide +kernel)
  have hsplit : reductionRules twoIncomes plainYear = [] ++ saverRule :: [] := by decide +kernel
  exact ⟨s, hs, (overallRule_shared_iff hs hsplit rfl).2⟩

/-- **The rule is repeated.** An overall allowance of 100 takes 100 off each of two categories, 200 altogether. -/
theorem twoIncomes_repeated :
    ¬∀ s, collect plainDb ⟨[], 365⟩ twoIncomes plainYear = .ok s → ∀ pre r post,
      reductionRules twoIncomes plainYear = pre ++ r :: post → r.category = .overall →
        Shared r (rowsBefore s pre) (reductionRule (rowsBefore s pre) r) := by
  intro h
  obtain ⟨s, hs⟩ := exists_ok_of_isOk (x := collect plainDb ⟨[], 365⟩ twoIncomes plainYear) (by decide +kernel)
  have hshared := h s hs [] saverRule [] (by decide +kernel) rfl
  obtain ⟨-, rfl⟩ := collect_ok_iff.1 hs
  have hrecorded := hshared.recorded_le
  revert hrecorded
  decide +kernel

end Vault67.Tax
