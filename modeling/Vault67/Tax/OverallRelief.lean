/-
A manual overall relief is used exactly, and in category order.

- `applyOverallReduction_relief`: one reduction lowers the taxable amounts by what it is worth, records what it took where it took it,
  and comes to a category only when the earlier ones are used up.
- `applyOverallReduction_add`: two reductions leave what one of their sum leaves.
-/
import Mathlib.Tactic
import Vault67.Tax.Reductions

namespace Vault67.Tax

open Waterfall

/-- the taxable amounts of the five categories together -/
def totalTaxable (b : Breakdowns) : ℚ := (categoryOrder.map fun c => (b c).taxableAmount).sum

/-- the rows after an overall reduction of `amount`, recorded in an attribute -/
structure OverallRelief (attr : Attribute) (amount : ℚ) (b b' : Breakdowns) : Prop where
  total : totalTaxable b - totalTaxable b' = min amount (totalTaxable b)
  /-- what is taken from a row is recorded in its attribute, and nothing else of the row changes -/
  recorded : ∀ c, b' c = (b c).take attr ((b c).taxableAmount - (b' c).taxableAmount)
  lowered : ∀ c, (b' c).taxableAmount ≤ (b c).taxableAmount
  nonneg : ∀ c ∈ categoryOrder, 0 ≤ (b' c).taxableAmount
  other : ∀ c ∉ categoryOrder, b' c = b c
  /-- a row is touched only when the rows before it are reduced to zero -/
  in_order : ∀ before c after, categoryOrder = before ++ c :: after → b' c ≠ b c →
    ∀ d ∈ before, (b' d).taxableAmount = 0

variable {b : Breakdowns}

/-- what the waterfall takes from each category -/
def relief (b : Breakdowns) (amount : ℚ) (c : TaxableCategory) : ℚ :=
  drain (fun c => max 0 (b c).taxableAmount) categoryOrder amount c

theorem applyOverallReduction_apply (b : Breakdowns) (amount : ℚ) (attr : Attribute) (c : TaxableCategory) :
    applyOverallReduction b amount attr c = (b c).take attr (relief b amount c) :=
  reduceInOrder_apply categoryOrder_nodup attr b amount c

theorem applyOverallReduction_taxableAmount (b : Breakdowns) (amount : ℚ) (attr : Attribute) (c : TaxableCategory) :
    (applyOverallReduction b amount attr c).taxableAmount = (b c).taxableAmount - relief b amount c := by
  rw [applyOverallReduction_apply, take_taxableAmount]

theorem relief_nonneg (b : Breakdowns) (amount : ℚ) (c : TaxableCategory) : 0 ≤ relief b amount c := drain_nonneg c

theorem relief_le {amount : ℚ} {c : TaxableCategory} (h : 0 ≤ (b c).taxableAmount) :
    relief b amount c ≤ (b c).taxableAmount := by
  have hle : relief b amount c ≤ max 0 (b c).taxableAmount := drain_le (fun c => le_max_left 0 (b c).taxableAmount) c
  rwa [max_eq_right h] at hle

theorem pots_eq (h0 : ∀ c ∈ categoryOrder, 0 ≤ (b c).taxableAmount) :
    categoryOrder.map (fun c => max 0 (b c).taxableAmount) = categoryOrder.map fun c => (b c).taxableAmount :=
  List.map_congr_left fun c hc => max_eq_right (h0 c hc)

theorem relief_sum (h0 : ∀ c ∈ categoryOrder, 0 ≤ (b c).taxableAmount) {amount : ℚ} (ha : 0 ≤ amount) :
    (categoryOrder.map (relief b amount)).sum = min amount (totalTaxable b) := by
  rw [totalTaxable, ← pots_eq h0]
  exact drain_sum categoryOrder_nodup (fun c => le_max_left 0 (b c).taxableAmount) ha

/-- **The relief is used exactly and in order.** What is taken off the rows, first to last, is what their attribute
records, and altogether the amount or all there is. -/
theorem applyOverallReduction_relief (h0 : ∀ c ∈ categoryOrder, 0 ≤ (b c).taxableAmount) (attr : Attribute)
    {amount : ℚ} (ha : 0 ≤ amount) :
    OverallRelief attr amount b (applyOverallReduction b amount attr) := by
  constructor
  case total =>
    have hbefore : totalTaxable b =
        totalTaxable (applyOverallReduction b amount attr) + (categoryOrder.map (relief b amount)).sum := by
      rw [totalTaxable, totalTaxable, ← List.sum_map_add]
      refine congrArg List.sum (List.map_congr_left fun c _ => ?_)
      rw [applyOverallReduction_taxableAmount, sub_add_cancel]
    rw [← relief_sum h0 ha]
    exact sub_eq_of_eq_add' hbefore
  case recorded =>
    intro c
    rw [applyOverallReduction_taxableAmount, sub_sub_cancel]
    exact applyOverallReduction_apply b amount attr c
  case lowered =>
    intro c
    rw [applyOverallReduction_taxableAmount]
    exact sub_le_self _ (relief_nonneg b amount c)
  case nonneg =>
    intro c hc
    rw [applyOverallReduction_taxableAmount]
    exact sub_nonneg.2 (relief_le (h0 c hc))
  case other =>
    intro c hc
    rw [applyOverallReduction_apply, relief, drain_of_notMem hc, take_zero]
  case in_order =>
    intro before c after horder htouched d hd
    have hpos : 0 < relief b amount c := by
      refine lt_of_le_of_ne (relief_nonneg b amount c) fun hzero => htouched ?_
      rw [applyOverallReduction_apply, ← hzero, take_zero]
    have hemptied : relief b amount d = max 0 (b d).taxableAmount := by
      unfold relief at hpos ⊢
      rw [horder] at hpos ⊢
      exact drain_before (fun c => le_max_left 0 (b c).taxableAmount) (horder ▸ categoryOrder_nodup) hpos hd
    have hmem : d ∈ categoryOrder := horder ▸ List.mem_append_left _ hd
    rw [applyOverallReduction_taxableAmount, hemptied, max_eq_right (h0 d hmem), sub_self]

/-- **Two reductions.** One after the other leaves the taxable amounts that their sum leaves, whatever attributes record
them. -/
theorem applyOverallReduction_add (h0 : ∀ c ∈ categoryOrder, 0 ≤ (b c).taxableAmount) (attr₁ attr₂ attr : Attribute)
    {amount₁ amount₂ : ℚ} (ha₁ : 0 ≤ amount₁) (ha₂ : 0 ≤ amount₂) (c : TaxableCategory) :
    (applyOverallReduction (applyOverallReduction b amount₁ attr₁) amount₂ attr₂ c).taxableAmount =
      (applyOverallReduction b (amount₁ + amount₂) attr c).taxableAmount := by
  have hpots : ∀ d ∈ categoryOrder, max 0 (applyOverallReduction b amount₁ attr₁ d).taxableAmount =
      max 0 (b d).taxableAmount - relief b amount₁ d := by
    intro d hd
    rw [applyOverallReduction_taxableAmount, max_eq_right (h0 d hd), max_eq_right (sub_nonneg.2 (relief_le (h0 d hd)))]
  have hsecond : relief (applyOverallReduction b amount₁ attr₁) amount₂ c =
      drain (fun d => max 0 (b d).taxableAmount - relief b amount₁ d) categoryOrder amount₂ c :=
    congrFun (drain_congr hpots) c
  have hadd := drain_add (fun c => le_max_left 0 (b c).taxableAmount) categoryOrder_nodup ha₁ ha₂ c
  rw [applyOverallReduction_taxableAmount, applyOverallReduction_taxableAmount, applyOverallReduction_taxableAmount,
    hsecond, sub_sub]
  exact congrArg _ hadd

/-- **An overall relief.** From five taxable amounts that are not negative, a reduction is used exactly and in order, and
two reductions leave the taxable amounts that one of their sum leaves. -/
theorem overall_relief (b : Breakdowns) (h0 : ∀ c ∈ categoryOrder, 0 ≤ (b c).taxableAmount) (attr : Attribute)
    (amount : ℚ) (ha : 0 ≤ amount) :
    OverallRelief attr amount b (applyOverallReduction b amount attr) ∧
      ∀ attr' amount', 0 ≤ amount' → ∀ c ∈ categoryOrder,
        (applyOverallReduction (applyOverallReduction b amount attr) amount' attr' c).taxableAmount =
          (applyOverallReduction b (amount + amount') attr c).taxableAmount :=
  ⟨applyOverallReduction_relief h0 attr ha,
    fun attr' _ ha' c _ => applyOverallReduction_add h0 attr attr' attr ha ha' c⟩

/-- 100 of interest and 50 of dividends -/
def interestAndDividends : Breakdowns
  | .interest => { taxableAmount := 100 }
  | .dividend => { taxableAmount := 50 }
  | _ => {}

theorem overall_relief_interestAndDividends :
    OverallRelief .allowances 120 interestAndDividends (applyOverallReduction interestAndDividends 120 .allowances) ∧
      (applyOverallReduction interestAndDividends 120 .allowances .dividend).taxableAmount = 30 :=
  ⟨(overall_relief interestAndDividends (by decide +kernel) .allowances 120 (by norm_num)).1, by decide +kernel⟩

/-- five sixths of interest, as 28 digits keep it, and 200 of dividends -/
def sixthsAndDividends : Breakdowns
  | .interest => { taxableAmount := kept (5 / 6) }
  | .dividend => { taxableAmount := 200 }
  | _ => {}

/-- **Twenty-eight digits.** In the default context 100 lowers the total by something else than 100, and the row it comes to
last records something else than what it lost. -/
theorem sixthsAndDividends_lastDigit :
    let b := InContext.applyOverallReduction kept sixthsAndDividends 100 .allowances
    totalTaxable sixthsAndDividends - totalTaxable b ≠ min 100 (totalTaxable sixthsAndDividends) ∧
      (b .dividend).allowances ≠
        kept ((sixthsAndDividends .dividend).taxableAmount - (b .dividend).taxableAmount) := by
  decide +kernel

end Vault67.Tax
