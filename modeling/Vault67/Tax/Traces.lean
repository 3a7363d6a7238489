/-
The rule traces explain a tax year.

`Chain x traces y`: the traces lead from the amount x to the amount y, each from where the one before it stopped, and none
of them adds or goes below zero.

- `reductionRules_apply`, `rateRules_apply`: the loops, row by row.
- `Reduced.reduceRow`, `reduceRows`: what one reduction, and what all of them, leave of a row.
- `taxRows_eq`: what the flat rates add to it.
- `traces_explain`: so the traces of every row lead from its amount before the rules to its taxable amount, and to its tax.
-/
import Mathlib.Tactic
import Vault67.Tax.RuleOrder

namespace Vault67.Tax

open Fallible OrderBy

/-! ## Chains -/

/-- the traces lead from x to y -/
def Chain : ℚ → List RuleTrace → ℚ → Prop
  | x, [], y => x = y
  | x, trace :: traces, y =>
    trace.inputAmount = x ∧ trace.outputAmount = trace.inputAmount + trace.adjustment ∧ trace.adjustment ≤ 0 ∧
      0 ≤ trace.outputAmount ∧ Chain trace.outputAmount traces y

theorem Chain.append {x y z : ℚ} {traces rest : List RuleTrace} (h : Chain x traces y) (hrest : Chain y rest z) :
    Chain x (traces ++ rest) z := by
  induction traces generalizing x with
  | nil =>
    cases h
    exact hrest
  | cons trace traces ih =>
    obtain ⟨hin, hout, hle, hnonneg, h⟩ := h
    exact ⟨hin, hout, hle, hnonneg, ih h⟩

/-! ## The loops, row by row -/

/-- the rules of a list that target a category -/
def targeting (c : TaxableCategory) (rules : List TaxRule) : List TaxRule := rules.filter fun r => c ∈ r.targets

theorem targeting_cons (c : TaxableCategory) (r : TaxRule) (rules : List TaxRule) :
    targeting c (r :: rules) = if c ∈ r.targets then r :: targeting c rules else targeting c rules := by
  simp [targeting, List.filter_cons]

/-- a loop over rules and their targets, at one category -/
theorem foldl_targets_apply {f : TaxRule → CategoryTaxBreakdown → CategoryTaxBreakdown}
    {step : Breakdowns → TaxRule → Breakdowns} (c : TaxableCategory)
    (hstep : ∀ b r, step b r c = if c ∈ r.targets then f r (b c) else b c) (rules : List TaxRule) (b : Breakdowns) :
    rules.foldl step b c = (targeting c rules).foldl (fun row r => f r row) (b c) := by
  induction rules generalizing b with
  | nil => rfl
  | cons r rules ih =>
    rw [List.foldl_cons, ih, hstep, targeting_cons]
    split_ifs <;> rfl

theorem reductionRules_apply (rules : List TaxRule) (b : Breakdowns) (c : TaxableCategory) :
    rules.foldl reductionRule b c = (targeting c rules).foldl (fun row r => reduceRow r row) (b c) :=
  foldl_targets_apply c (fun b r => reductionRule_apply b r c) rules b

theorem rateRules_apply (rules : List TaxRule) (b : Breakdowns) (c : TaxableCategory) :
    rules.foldl rateRule b c = (targeting c rules).foldl (fun row r => taxRow r (r.rate.getD 0) row) (b c) :=
  foldl_targets_apply c (fun _ _ => rfl) rules b

/-! ## Reductions -/

/-- the row after some of the reductions: they lead from the start to its taxable amount, and none taxed it -/
structure Reduced (start : ℚ) (rules : List TaxRule) (row : CategoryTaxBreakdown) : Prop where
  nonneg : 0 ≤ row.taxableAmount
  chain : Chain start row.appliedRules row.taxableAmount
  rules_eq : row.appliedRules.map RuleTrace.rule = rules
  traces_untaxed : ∀ trace ∈ row.appliedRules, trace.tax = 0
  row_untaxed : row.estimatedTax = 0

theorem Reduced.reduceRow {start : ℚ} {rules : List TaxRule} {row : CategoryTaxBreakdown} (h : Reduced start rules row)
    (r : TaxRule) : Reduced start (rules ++ [r]) (reduceRow r row) := by
  have htaken : 0 ≤ min row.taxableAmount r.reductionLimit := le_min h.nonneg r.reductionLimit_nonneg
  have hleft : 0 ≤ row.taxableAmount - min row.taxableAmount r.reductionLimit := sub_nonneg.2 (min_le_left _ _)
  unfold Tax.reduceRow
  refine ⟨?_, ?_, ?_, ?_, ?_⟩
  · simpa only [take_taxableAmount] using hleft
  · simp only [take_taxableAmount, take_appliedRules]
    exact h.chain.append ⟨rfl, sub_eq_add_neg _ _, neg_nonpos.2 htaken, hleft, rfl⟩
  · simp [h.rules_eq]
  · intro trace htrace
    simp only [take_appliedRules, List.mem_append, List.mem_singleton] at htrace
    rcases htrace with htrace | rfl
    · exact h.traces_untaxed trace htrace
    · rfl
  · simpa only [take_estimatedTax] using h.row_untaxed

theorem reduceRows {start : ℚ} {done : List TaxRule} {row : CategoryTaxBreakdown} (h : Reduced start done row)
    (rules : List TaxRule) : Reduced start (done ++ rules) (rules.foldl (fun row r => Tax.reduceRow r row) row) := by
  induction rules generalizing done row with
  | nil => rwa [List.append_nil]
  | cons r rules ih =>
    have hrest := ih (h.reduceRow r)
    rwa [List.append_assoc] at hrest

/-! ## Flat rates -/

/-- the trace of a flat rate on a taxable amount -/
def rateTrace (x : ℚ) (r : TaxRule) : RuleTrace := ⟨r, x, 0, x, x * r.rate.getD 0 / 100⟩

/-- the rates leave the taxable amount, so each is charged on all of it -/
theorem taxRows_eq (rules : List TaxRule) (row : CategoryTaxBreakdown) :
    rules.foldl (fun row r => taxRow r (r.rate.getD 0) row) row =
      { row with
        estimatedTax := row.estimatedTax + ((rules.map (rateTrace row.taxableAmount)).map RuleTrace.tax).sum
        appliedRules := row.appliedRules ++ rules.map (rateTrace row.taxableAmount) } := by
  induction rules generalizing row with
  | nil => simp
  | cons r rules ih =>
    rw [List.foldl_cons, ih]
    simp [taxRow, rateTrace, add_assoc]

theorem rateTraces_chain {x : ℚ} (hx : 0 ≤ x) (rules : List TaxRule) : Chain x (rules.map (rateTrace x)) x := by
  induction rules with
  | nil => rfl
  | cons r rules ih => exact ⟨rfl, (add_zero x).symm, le_rfl, hx, ih⟩

/-! ## The summary -/

/-- in the order of the rule query -/
def ByPriority (rules : List TaxRule) : Prop :=
  rules.Pairwise fun r r' => r.priority < r'.priority ∨ r.priority = r'.priority ∧ r.pk ≤ r'.pk

theorem activeRules_byPriority (tables : TaxTables) (taxYear : TaxYear) : ByPriority (activeRules tables taxYear) := by
  refine (orderBy_sorted _ _).imp ?_
  intro r r' h
  exact Prod.Lex.le_iff.1 h

/-- the traces of a row account for its taxable amount and its tax -/
structure TracesExplain (tables : TaxTables) (taxYear : TaxYear) (start : ℚ) (c : TaxableCategory)
    (row : CategoryTaxBreakdown) (reductions rates : List RuleTrace) : Prop where
  split : row.appliedRules = reductions ++ rates
  chain : Chain start row.appliedRules row.taxableAmount
  reductions_rules : reductions.map RuleTrace.rule = targeting c (reductionRules tables taxYear)
  rates_rules : rates.map RuleTrace.rule = targeting c (flatRateRules tables taxYear)
  reductions_ordered : ByPriority (reductions.map RuleTrace.rule)
  rates_ordered : ByPriority (rates.map RuleTrace.rule)
  reductions_tax : ∀ trace ∈ reductions, trace.rule.ruleType ≠ .flatRate ∧ trace.tax = 0
  rates_tax : ∀ trace ∈ rates, trace.rule.ruleType = .flatRate ∧
    ∃ rate, trace.rule.rate = some rate ∧ trace.tax = row.taxableAmount * rate / 100
  tax_sum : (row.appliedRules.map RuleTrace.tax).sum = row.estimatedTax

variable {db : Db} {fx : Fx} {tables : TaxTables} {taxYear : TaxYear} {s : Collected}

/-- before the rules, the taxable amount is what the manual reductions left of the base -/
theorem applyManual_reduced (h : collect db fx tables taxYear = .ok s) {c : TaxableCategory} (hc : c ∈ categoryOrder) :
    Reduced (max 0 ((applyManual s c).grossAmount + (applyManual s c).losses) - (applyManual s c).allowances -
      (applyManual s c).deductions) [] (applyManual s c) := by
  have hexplained := applyManual_explained (collect_valid h) c hc
  have hbare := collect_bare h c
  have hkept : (applyManual s c).appliedRules = (s.breakdowns c).appliedRules ∧
      (applyManual s c).estimatedTax = (s.breakdowns c).estimatedTax := by
    simp [applyManual, applyOverallReduction, reduceInOrder_apply categoryOrder_nodup, manualCategories_apply hc, manualRow]
  have hnone : (applyManual s c).appliedRules = [] := hkept.1.trans hbare.appliedRules
  refine ⟨hexplained.taxable_nonneg, ?_, ?_, ?_, hkept.2.trans hbare.estimatedTax⟩
  · rw [hnone, hexplained.base_eq]
    show _ = _
    ring
  · rw [hnone]
    rfl
  · simp [hnone]

theorem ByPriority.targeting {rules : List TaxRule} (h : ByPriority rules) (p : TaxRule → Bool) (c : TaxableCategory) :
    ByPriority (targeting c (rules.filter p)) := (h.filter p).filter _

/-- **The traces explain the result.** In every category they lead from the base less the manual reductions to the
taxable amount: first the reductions, then the flat rates, both by priority, and the flat rates add up to the tax. -/
theorem traces_explain {summary : TaxYearSummary} (h : buildTaxYearSummary db fx tables taxYear = .ok summary) :
    ∃ s, collect db fx tables taxYear = .ok s ∧ summary.categories.map Prod.fst = categoryOrder ∧
      ∀ p ∈ summary.categories, ∃ reductions rates,
        TracesExplain tables taxYear (max 0 (p.2.grossAmount + p.2.losses) - (applyManual s p.1).allowances -
          (applyManual s p.1).deductions) p.1 p.2 reductions rates := by
  obtain ⟨s, hs, b, hb, rfl⟩ := buildTaxYearSummary_ok.1 h
  refine ⟨s, hs, by simp [summarize, Function.comp_def], ?_⟩
  intro p hp
  obtain ⟨c, hc, rfl⟩ := List.mem_map.1 hp
  have hsource := applyRules_source hb c
  rw [applyRules_eq] at hb
  split_ifs at hb with hrates
  obtain rfl := Except.ok.inj hb
  have hreduced := reduceRows (applyManual_reduced hs hc) (targeting c (reductionRules tables taxYear))
  rw [← reductionRules_apply, List.nil_append] at hreduced
  simp only [CategoryTaxBreakdown.source, Prod.mk.injEq] at hsource
  dsimp only
  rw [hsource.1, hsource.2.1, rateRules_apply, taxRows_eq]
  generalize (reductionRules tables taxYear).foldl reductionRule (applyManual s) c = row at hreduced ⊢
  have horder := activeRules_byPriority tables taxYear
  have hrule : (fun r => (rateTrace row.taxableAmount r).rule) = id := rfl
  have hrules : ((targeting c (flatRateRules tables taxYear)).map (rateTrace row.taxableAmount)).map RuleTrace.rule =
      targeting c (flatRateRules tables taxYear) := by
    rw [List.map_map]
    exact List.map_id _
  refine ⟨row.appliedRules, _, rfl, ?_, hreduced.rules_eq, hrules, ?_, ?_, ?_, ?_, ?_⟩
  · exact hreduced.chain.append (rateTraces_chain hreduced.nonneg _)
  · rw [hreduced.rules_eq]
    exact horder.targeting _ c
  · rw [hrules]
    exact horder.targeting _ c
  · intro trace htrace
    refine ⟨?_, hreduced.traces_untaxed trace htrace⟩
    have hmem : trace.rule ∈ targeting c (reductionRules tables taxYear) :=
      hreduced.rules_eq ▸ List.mem_map_of_mem htrace
    exact of_decide_eq_true (List.mem_filter.1 (List.mem_filter.1 hmem).1).2
  · intro trace htrace
    obtain ⟨r, hr, rfl⟩ := List.mem_map.1 htrace
    obtain ⟨hr, -⟩ := List.mem_filter.1 hr
    obtain ⟨rate, hrate⟩ := Option.isSome_iff_exists.1 (hrates r hr)
    refine ⟨of_decide_eq_true (List.mem_filter.1 hr).2, rate, hrate, ?_⟩
    simp [rateTrace, hrate]
  · have hzero : (row.appliedRules.map RuleTrace.tax).sum = 0 :=
      List.sum_eq_zero (by simpa using hreduced.traces_untaxed)
    simp only [List.map_append, List.sum_append, hzero, hreduced.row_untaxed]

theorem traces_explain_twoIncomes :
    ∃ summary s, buildTaxYearSummary plainDb ⟨[], 365⟩ twoIncomes plainYear = .ok summary ∧
      collect plainDb ⟨[], 365⟩ twoIncomes plainYear = .ok s ∧ summary.categories.map Prod.fst = categoryOrder ∧
      ∀ p ∈ summary.categories, ∃ reductions rates,
        TracesExplain twoIncomes plainYear (max 0 (p.2.grossAmount + p.2.losses) - (applyManual s p.1).allowances -
          (applyManual s p.1).deductions) p.1 p.2 reductions rates := by
  obtain ⟨summary, h⟩ := exists_ok_of_isOk (x := buildTaxYearSummary plainDb ⟨[], 365⟩ twoIncomes plainYear)
    (by decide +kernel)
  obtain ⟨s, hs, hrest⟩ := traces_explain h
  exact ⟨summary, s, h, hs, hrest⟩

/-- **Twenty-eight digits.** In the default context the first trace may start a last digit beside the base less the manual
reductions, whether they are subtracted there or exactly. -/
theorem foreignReliefs_firstInput :
    ∃ summary, InContext.buildTaxYearSummary kept plainDb thirdsAndSixths foreignReliefs plainYear = .ok summary ∧
      ∃ p ∈ summary.categories, ∃ trace ∈ p.2.appliedRules.head?,
        trace.inputAmount ≠
            kept (kept (max 0 (kept (p.2.grossAmount + p.2.losses)) - p.2.allowances) - p.2.deductions) ∧
          trace.inputAmount ≠ max 0 (p.2.grossAmount + p.2.losses) - p.2.allowances - p.2.deductions :=
  exists_ok_of_check (by decide +kernel)

end Vault67.Tax
