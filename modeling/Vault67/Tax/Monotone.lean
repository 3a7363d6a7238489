/-
Less income or more relief never raises the estimate.

`calculate` is the part of `build_tax_year_summary` after the collection. Two inputs are compared category by category:
in the first every tax base is at most that of the second, every manual bucket and every limit of a reduction rule at
least that of the second.

- `applyOverallReduction_lower`: the shared reduction, although it takes less from a category whenever it takes more
  from an earlier one.
- `reductionRule_lower`, `flatRateRule_lower`: one rule.
- `tax_monotone`: the whole calculation.
- `buildTaxYearSummary_lower`: two years whose collected amounts are so related.
-/
import Mathlib.Tactic
import Vault67.Lib.Rows
import Vault67.Tax.Reductions

namespace Vault67.Tax

open Accumulate Fallible Waterfall

/-- `build_tax_year_summary`, from the collected amounts on -/
def calculate (db : Db) (tables : TaxTables) (taxYear : TaxYear) (s : Collected) : Except Error TaxYearSummary := do
  let b ← applyRules tables taxYear (applyManual s)
  .ok (summarize db taxYear s b)

theorem buildTaxYearSummary_eq (db : Db) (fx : Fx) (tables : TaxTables) (taxYear : TaxYear) :
    buildTaxYearSummary db fx tables taxYear = collect db fx tables taxYear >>= calculate db tables taxYear := rfl

/-! ## Rows -/

/-- the first row is taxed on less, and less -/
structure LowerRow (row₁ row₂ : CategoryTaxBreakdown) : Prop where
  nonneg : 0 ≤ row₁.taxableAmount
  taxable : row₁.taxableAmount ≤ row₂.taxableAmount
  tax : row₁.estimatedTax ≤ row₂.estimatedTax

def Lower (b₁ b₂ : Breakdowns) : Prop := ∀ c ∈ categoryOrder, LowerRow (b₁ c) (b₂ c)

variable {row₁ row₂ : CategoryTaxBreakdown} {b₁ b₂ : Breakdowns}

/-- a reduction up to a limit -/
theorem LowerRow.takeMin (h : LowerRow row₁ row₂) (attr₁ attr₂ : Attribute) {x₁ x₂ : ℚ} (hx : x₂ ≤ x₁) :
    LowerRow (row₁.take attr₁ (min row₁.taxableAmount x₁)) (row₂.take attr₂ (min row₂.taxableAmount x₂)) := by
  refine ⟨?_, ?_, ?_⟩
  · rw [take_taxableAmount, sub_min_eq]
    exact le_max_left _ _
  · rw [take_taxableAmount, take_taxableAmount, sub_min_eq, sub_min_eq]
    exact max_le_max le_rfl (sub_le_sub h.taxable hx)
  · rw [take_estimatedTax, take_estimatedTax]
    exact h.tax

theorem manualRow_lower {allowances₁ allowances₂ deductions₁ deductions₂ : ℚ}
    (hbase : row₁.grossAmount + row₁.losses ≤ row₂.grossAmount + row₂.losses)
    (htax : row₁.estimatedTax ≤ row₂.estimatedTax) (ha : allowances₂ ≤ allowances₁) (hd : deductions₂ ≤ deductions₁) :
    LowerRow (manualRow allowances₁ deductions₁ row₁) (manualRow allowances₂ deductions₂ row₂) := by
  have hnet : LowerRow { row₁ with taxableAmount := max 0 (row₁.grossAmount + row₁.losses) }
      { row₂ with taxableAmount := max 0 (row₂.grossAmount + row₂.losses) } :=
    ⟨le_max_left _ _, max_le_max le_rfl hbase, htax⟩
  exact (hnet.takeMin .allowances .allowances ha).takeMin .deductions .deductions hd

theorem LowerRow.reduceRow (h : LowerRow row₁ row₂) {r₁ r₂ : TaxRule} (hlimit : r₂.reductionLimit ≤ r₁.reductionLimit) :
    LowerRow (reduceRow r₁ row₁) (reduceRow r₂ row₂) := by
  have htake := h.takeMin r₁.attr r₂.attr hlimit
  exact ⟨htake.nonneg, htake.taxable, htake.tax⟩

theorem LowerRow.taxRow (h : LowerRow row₁ row₂) (r₁ r₂ : TaxRule) {rate : ℚ} (hrate : 0 ≤ rate) :
    LowerRow (taxRow r₁ rate row₁) (taxRow r₂ rate row₂) := by
  refine ⟨h.nonneg, h.taxable, ?_⟩
  have htaxable := h.taxable
  have htax := h.tax
  show row₁.estimatedTax + row₁.taxableAmount * rate / 100 ≤ row₂.estimatedTax + row₂.taxableAmount * rate / 100
  gcongr

/-! ## Stages -/

/-- **The shared reduction.** A smaller base uses up less of the reduction, and leaves more of it to the others. -/
theorem applyOverallReduction_lower (h : Lower b₁ b₂) {amount₁ amount₂ : ℚ} (ha : amount₂ ≤ amount₁) (attr : Attribute) :
    Lower (applyOverallReduction b₁ amount₁ attr) (applyOverallReduction b₂ amount₂ attr) := by
  intro c hc
  have hrow := h c hc
  have hpot : ∀ b : Breakdowns, ∀ amount, 0 ≤ (b c).taxableAmount →
      (applyOverallReduction b amount attr c).taxableAmount =
        max 0 (b c).taxableAmount - drain (fun c => max 0 (b c).taxableAmount) categoryOrder amount c := by
    intro b amount hb
    rw [applyOverallReduction, reduceInOrder_apply categoryOrder_nodup, take_taxableAmount, max_eq_right hb]
  have hnonneg : ∀ k ∈ categoryOrder, 0 ≤ max 0 (b₁ k).taxableAmount := fun _ _ => le_max_left _ _
  have hle : ∀ k ∈ categoryOrder, max 0 (b₁ k).taxableAmount ≤ max 0 (b₂ k).taxableAmount := fun k hk =>
    max_le_max le_rfl (h k hk).taxable
  refine ⟨?_, ?_, ?_⟩
  · rw [hpot b₁ amount₁ hrow.nonneg]
    exact sub_nonneg.2 (drain_le (fun _ => le_max_left _ _) c)
  · rw [hpot b₁ amount₁ hrow.nonneg, hpot b₂ amount₂ (hrow.nonneg.trans hrow.taxable)]
    exact left_mono hnonneg hle ha hc
  · simp only [applyOverallReduction, reduceInOrder_apply categoryOrder_nodup, take_estimatedTax]
    exact hrow.tax

/-- the rows before the calculation: no tax yet -/
def Fresh (s : Collected) : Prop := ∀ c ∈ categoryOrder, (s.breakdowns c).estimatedTax = 0

/-- the first input has less income and more relief -/
structure Eases (s₁ s₂ : Collected) : Prop where
  base : ∀ c ∈ categoryOrder, (s₁.breakdowns c).grossAmount + (s₁.breakdowns c).losses ≤
    (s₂.breakdowns c).grossAmount + (s₂.breakdowns c).losses
  allowances : ∀ c, s₂.manualAllowances c ≤ s₁.manualAllowances c
  deductions : ∀ c, s₂.manualDeductions c ≤ s₁.manualDeductions c

theorem applyManual_lower {s₁ s₂ : Collected} (h : Eases s₁ s₂) (h₁ : Fresh s₁) (h₂ : Fresh s₂) :
    Lower (applyManual s₁) (applyManual s₂) := by
  have hcategories : Lower (manualCategories s₁) (manualCategories s₂) := by
    intro c hc
    rw [manualCategories_apply hc, manualCategories_apply hc]
    exact manualRow_lower (h.base c hc) (by rw [h₁ c hc, h₂ c hc]) (h.allowances c) (h.deductions c)
  exact applyOverallReduction_lower (applyOverallReduction_lower hcategories (h.allowances .overall) .allowances)
    (h.deductions .overall) .deductions

/-- the same rule, with at least the same limit -/
structure EasesRule (r₁ r₂ : TaxRule) : Prop where
  ruleType : r₁.ruleType = r₂.ruleType
  category : r₁.category = r₂.category
  rate : r₁.rate = r₂.rate
  limit : r₂.reductionLimit ≤ r₁.reductionLimit

theorem EasesRule.targets {r₁ r₂ : TaxRule} (h : EasesRule r₁ r₂) : r₁.targets = r₂.targets := by
  rw [TaxRule.targets, TaxRule.targets, h.category]

theorem reductionRule_lower (h : Lower b₁ b₂) {r₁ r₂ : TaxRule} (hr : EasesRule r₁ r₂) :
    Lower (reductionRule b₁ r₁) (reductionRule b₂ r₂) := by
  intro c hc
  rw [reductionRule_apply, reductionRule_apply, hr.targets]
  split_ifs
  · exact (h c hc).reduceRow hr.limit
  · exact h c hc

theorem reductionRules_lower (h : Lower b₁ b₂) {rules₁ rules₂ : List TaxRule}
    (hrules : List.Forall₂ EasesRule rules₁ rules₂) :
    Lower (rules₁.foldl reductionRule b₁) (rules₂.foldl reductionRule b₂) := by
  induction hrules generalizing b₁ b₂ with
  | nil => exact h
  | cons hr _ ih => exact ih (reductionRule_lower h hr)

theorem flatRateRule_lower (h : Lower b₁ b₂) {r₁ r₂ : TaxRule} (hr : EasesRule r₁ r₂) :
    Related Lower (flatRateRule b₁ r₁) (flatRateRule b₂ r₂) := by
  cases hrate : r₂.rate with
  | none => simp [flatRateRule, hr.rate, hrate, notNone, bind, Except.bind, Related]
  | some rate =>
    have hnonneg : 0 ≤ rate := (r₂.rate_valid rate hrate).1
    simp only [flatRateRule, hr.rate, hrate, notNone, bind, Except.bind, Related]
    intro c hc
    rw [@foldl_update_apply _ _ _ (fun _ => taxRow r₁ rate) _ r₁.targets_nodup,
      @foldl_update_apply _ _ _ (fun _ => taxRow r₂ rate) _ r₂.targets_nodup, hr.targets]
    split_ifs
    · exact (h c hc).taxRow r₁ r₂ hnonneg
    · exact h c hc

/-! ## The calculation -/

/-- every category is taxed on less, and less; so is the whole -/
structure LowerSummary (summary₁ summary₂ : TaxYearSummary) : Prop where
  categories : List.Forall₂ (fun p q => p.1 = q.1 ∧ p.2.taxableAmount ≤ q.2.taxableAmount ∧
    p.2.estimatedTax ≤ q.2.estimatedTax) summary₁.categories summary₂.categories
  liability : summary₁.estimatedTaxLiability ≤ summary₂.estimatedTaxLiability

theorem summarize_lower (h : Lower b₁ b₂) (db₁ db₂ : Db) (y₁ y₂ : TaxYear) (s₁ s₂ : Collected) :
    LowerSummary (summarize db₁ y₁ s₁ b₁) (summarize db₂ y₂ s₂ b₂) := by
  refine ⟨?_, ?_⟩
  · rw [summarize, summarize, List.forall₂_map_left_iff, List.forall₂_map_right_iff, List.forall₂_same]
    exact fun c hc => ⟨rfl, (h c hc).taxable, (h c hc).tax⟩
  · exact List.sum_le_sum fun c hc => (h c hc).tax

section Runs

variable {s₁ s₂ : Collected} {tables₁ tables₂ : TaxTables} {y₁ y₂ : TaxYear}

/-- the rules in their order, and then the summary -/
theorem calculate_lower (h : Eases s₁ s₂) (h₁ : Fresh s₁) (h₂ : Fresh s₂)
    (hrules : List.Forall₂ EasesRule (activeRules tables₁ y₁) (activeRules tables₂ y₂)) (db₁ db₂ : Db) :
    Related LowerSummary (calculate db₁ tables₁ y₁ s₁) (calculate db₂ tables₂ y₂ s₂) := by
  have hmanual := applyManual_lower h h₁ h₂
  have hreduction : List.Forall₂ EasesRule (reductionRules tables₁ y₁) (reductionRules tables₂ y₂) :=
    Rows.forall₂_filter (fun r₁ r₂ hr => by rw [hr.ruleType]) hrules
  have hflat : List.Forall₂ EasesRule (flatRateRules tables₁ y₁) (flatRateRules tables₂ y₂) :=
    Rows.forall₂_filter (fun r₁ r₂ hr => by rw [hr.ruleType]) hrules
  have hstep : ∀ b₁ b₂ r₁ r₂, Lower b₁ b₂ → EasesRule r₁ r₂ → Related Lower (flatRateRule b₁ r₁) (flatRateRule b₂ r₂) :=
    fun _ _ _ _ hb hr => flatRateRule_lower hb hr
  have happlied : Related Lower (applyRules tables₁ y₁ (applyManual s₁)) (applyRules tables₂ y₂ (applyManual s₂)) :=
    Related.foldlM hstep hflat (reductionRules_lower hmanual hreduction)
  exact happlied.bind fun b₁ b₂ hb => summarize_lower hb db₁ db₂ y₁ y₂ s₁ s₂

theorem collect_fresh {db : Db} {fx : Fx} {tables : TaxTables} {taxYear : TaxYear} {s : Collected}
    (h : collect db fx tables taxYear = .ok s) : Fresh s :=
  fun c _ => (collect_bare h c).estimatedTax

/-- **Two tax years.** When the collected amounts and the active rules of the first ease those of the second, the first
is taxed on less in every category, and less. -/
theorem buildTaxYearSummary_lower {db₁ db₂ : Db} {fx₁ fx₂ : Fx} (hs₁ : collect db₁ fx₁ tables₁ y₁ = .ok s₁)
    (hs₂ : collect db₂ fx₂ tables₂ y₂ = .ok s₂) (h : Eases s₁ s₂)
    (hrules : List.Forall₂ EasesRule (activeRules tables₁ y₁) (activeRules tables₂ y₂)) :
    Related LowerSummary (buildTaxYearSummary db₁ fx₁ tables₁ y₁) (buildTaxYearSummary db₂ fx₂ tables₂ y₂) := by
  rw [buildTaxYearSummary_eq, buildTaxYearSummary_eq, hs₁, hs₂]
  exact calculate_lower h (collect_fresh hs₁) (collect_fresh hs₂) hrules db₁ db₂

end Runs

/-- **Tax is monotone in income and antitone in reliefs.** For any two collected inputs, rule lists and years: when the
first input has no larger base in any category and no smaller manual bucket, and the active rules differ at most in
larger limits of the reductions of the first, then every category of the first is taxed on less, and less, and so is
the whole. -/
theorem tax_monotone {s₁ s₂ : Collected} (h : Eases s₁ s₂) (h₁ : Fresh s₁) (h₂ : Fresh s₂) {tables₁ tables₂ : TaxTables}
    {y₁ y₂ : TaxYear} (hrules : List.Forall₂ EasesRule (activeRules tables₁ y₁) (activeRules tables₂ y₂))
    (db₁ db₂ : Db) :
    Related LowerSummary (calculate db₁ tables₁ y₁ s₁) (calculate db₂ tables₂ y₂ s₂) :=
  calculate_lower h h₁ h₂ hrules db₁ db₂

/-- interest and dividends, and an overall allowance -/
def savingsIncome (interest dividend allowance : ℚ) : Collected where
  breakdowns c := { grossAmount := if c = .interest then interest else if c = .dividend then dividend else 0 }
  manualAllowances c := if c = .overall then allowance else 0

/-- interest at 12%, dividends at 27% -/
def savingsRates : TaxTables where
  deductions := []
  allowances := []
  adjustments := []
  rules := [
    ⟨0, some 1, some 1, "DE", .flatRate, .interest, "Interest", some 12, none, none, 0, true, by simp; norm_num,
      saverRule.threshold_nonneg, saverRule.threshold_nonneg⟩,
    ⟨1, some 1, some 1, "DE", .flatRate, .dividend, "Dividends", some 27, none, none, 0, true, by simp; norm_num,
      saverRule.threshold_nonneg, saverRule.threshold_nonneg⟩]

/-- less interest leaves more of the allowance to the dividends -/
theorem tax_monotone_lessInterest :
    let db := Db.init (fun _ => "EUR") fun _ => ⟨"ACME", 0, true⟩
    Related LowerSummary (calculate db savingsRates plainYear (savingsIncome 50 100 80))
      (calculate db savingsRates plainYear (savingsIncome 60 100 80)) := by
  refine tax_monotone ⟨?_, ?_, ?_⟩ (fun _ _ => rfl) (fun _ _ => rfl)
    (List.forall₂_same.2 fun r _ => ⟨rfl, rfl, rfl, le_rfl⟩) _ _
  · decide +kernel
  · exact fun _ => le_rfl
  · exact fun _ => le_rfl

end Vault67.Tax
