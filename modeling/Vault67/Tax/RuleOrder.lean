/-
The rule loops of a tax year under other priorities.

`SameTax`: two rows show the same tax. They may split what was taken off differently between allowances and deductions,
and their traces may come in another order and record other reductions.

- `reduceRow_seen`, `taxRow_seen`: what a rule shows of a row depends only on what the row showed.
- `reduced_comm`, `taxed_comm`: two rules show the same in both orders.
- `tax_of_priorities`: so the priorities never change the tax.
- `smallReductions_traced`: but the amounts in the traces change.
-/
import Mathlib.Tactic
import Vault67.Tax.Reductions

namespace Vault67.Tax

open Accumulate Fallible OrderBy Waterfall

/-! ## Priorities -/

/-- the rules of the year under other priorities -/
def TaxTables.prioritize (priority : TaxRule → ℕ) (tables : TaxTables) : TaxTables :=
  { tables with rules := tables.rules.map fun r => { r with priority := priority r } }

/-- a rule without its priority -/
def TaxRule.unprioritized (r : TaxRule) : TaxRule := { r with priority := 0 }

def RuleTrace.unprioritized (trace : RuleTrace) : RuleTrace := { trace with rule := trace.rule.unprioritized }

/-- the two rows show the same tax -/
structure SameTax (row row' : CategoryTaxBreakdown) : Prop where
  gross_amount : row.grossAmount = row'.grossAmount
  losses : row.losses = row'.losses
  withholding : row.withholding = row'.withholding
  taxable_amount : row.taxableAmount = row'.taxableAmount
  estimated_tax : row.estimatedTax = row'.estimatedTax
  reductions : row.allowances + row.deductions = row'.allowances + row'.deductions
  rules : (row.appliedRules.map fun trace => trace.rule.unprioritized).Perm
    (row'.appliedRules.map fun trace => trace.rule.unprioritized)
  rates : ((row.appliedRules.filter fun trace => trace.rule.ruleType = .flatRate).map RuleTrace.unprioritized).Perm
    ((row'.appliedRules.filter fun trace => trace.rule.ruleType = .flatRate).map RuleTrace.unprioritized)

/-! ## What a row shows -/

/-- what a row shows, whatever the order of the rules -/
structure Seen where
  source : ℚ × ℚ × ℚ
  taxableAmount : ℚ
  estimatedTax : ℚ
  reductions : ℚ
  rules : Multiset TaxRule
  rates : Multiset RuleTrace

def CategoryTaxBreakdown.seen (row : CategoryTaxBreakdown) : Seen where
  source := row.source
  taxableAmount := row.taxableAmount
  estimatedTax := row.estimatedTax
  reductions := row.allowances + row.deductions
  rules := row.appliedRules.map fun trace => trace.rule.unprioritized
  rates := (row.appliedRules.filter fun trace => trace.rule.ruleType = .flatRate).map RuleTrace.unprioritized

theorem sameTax_of_seen {row row' : CategoryTaxBreakdown} (h : row.seen = row'.seen) : SameTax row row' := by
  simp only [CategoryTaxBreakdown.seen, CategoryTaxBreakdown.source, Seen.mk.injEq, Prod.mk.injEq, Multiset.coe_eq_coe] at h
  obtain ⟨⟨hgross, hlosses, hwithholding⟩, htaxable, htax, hreductions, hrules, hrates⟩ := h
  exact ⟨hgross, hlosses, hwithholding, htaxable, htax, hreductions, hrules, hrates⟩

/-- a reduction rule, seen -/
def Seen.reduced (r : TaxRule) (t : Seen) : Seen :=
  let reduction := min t.taxableAmount r.reductionLimit
  { t with
    taxableAmount := t.taxableAmount - reduction
    reductions := t.reductions + reduction
    rules := r ::ₘ t.rules }

/-- a flat rate, seen -/
def Seen.taxed (r : TaxRule) (t : Seen) : Seen :=
  let tax := t.taxableAmount * r.rate.getD 0 / 100
  { t with
    estimatedTax := t.estimatedTax + tax
    rules := r ::ₘ t.rules
    rates := ⟨r, t.taxableAmount, 0, t.taxableAmount, tax⟩ ::ₘ t.rates }

theorem reduceRow_seen {r : TaxRule} (hr : r.ruleType ≠ .flatRate) (row : CategoryTaxBreakdown) :
    (reduceRow r row).seen = row.seen.reduced r.unprioritized := by
  have hreductions : (row.take r.attr (min row.taxableAmount r.reductionLimit)).allowances +
      (row.take r.attr (min row.taxableAmount r.reductionLimit)).deductions =
        row.allowances + row.deductions + min row.taxableAmount r.reductionLimit := by
    cases r.attr with
    | allowances => exact add_right_comm _ _ _
    | deductions => exact (add_assoc _ _ _).symm
  simp only [CategoryTaxBreakdown.seen, Seen.reduced, Seen.mk.injEq]
  refine ⟨source_reduceRow r row, take_taxableAmount _ _ _, take_estimatedTax _ _ _, hreductions, ?_, ?_⟩
  · simp [reduceRow]
  · simp [reduceRow, hr]

theorem taxRow_seen {r : TaxRule} (hr : r.ruleType = .flatRate) (row : CategoryTaxBreakdown) :
    (taxRow r (r.rate.getD 0) row).seen = row.seen.taxed r.unprioritized := by
  simp only [CategoryTaxBreakdown.seen, Seen.taxed, Seen.mk.injEq]
  refine ⟨rfl, rfl, rfl, rfl, ?_, ?_⟩
  · simp [taxRow]
  · simp [taxRow, hr, RuleTrace.unprioritized, TaxRule.unprioritized]

/-! ## Two rules -/

/-- **Two reductions** leave and take the same in both orders, counted over both attributes. -/
theorem reduced_comm (t : Seen) (r r' : TaxRule) : (t.reduced r).reduced r' = (t.reduced r').reduced r := by
  have hleft := sub_min_sub_min t.taxableAmount (y := r.reductionLimit) r'.reductionLimit_nonneg
  have hright := sub_min_sub_min t.taxableAmount (y := r'.reductionLimit) r.reductionLimit_nonneg
  rw [add_comm] at hright
  have hsame := hleft.trans hright.symm
  simp only [Seen.reduced, Seen.mk.injEq, true_and, and_true]
  refine ⟨hsame, ?_, Multiset.cons_swap _ _ _⟩
  linarith

/-- **Two rates** tax the same amount, so they add the same tax in both orders. -/
theorem taxed_comm (t : Seen) (r r' : TaxRule) : (t.taxed r).taxed r' = (t.taxed r').taxed r := by
  simp only [Seen.taxed, Seen.mk.injEq, true_and]
  exact ⟨add_right_comm _ _ _, Multiset.cons_swap _ _ _, Multiset.cons_swap _ _ _⟩

/-! ## The loops -/

/-- what the rows of all categories show -/
def Breakdowns.seen (b : Breakdowns) : TaxableCategory → Seen := fun c => (b c).seen

/-- a rule shows in the categories it targets -/
def atTargets (f : TaxRule → Seen → Seen) (t : TaxableCategory → Seen) (r : TaxRule) : TaxableCategory → Seen :=
  fun c => if c ∈ r.targets then f r (t c) else t c

theorem atTargets_comm {f : TaxRule → Seen → Seen} (hf : ∀ t r r', f r' (f r t) = f r (f r' t))
    (t : TaxableCategory → Seen) (r r' : TaxRule) :
    atTargets f (atTargets f t r) r' = atTargets f (atTargets f t r') r := by
  funext c
  unfold atTargets
  split_ifs
  · exact hf _ _ _
  · rfl
  · rfl
  · rfl

theorem reductionRule_seen (b : Breakdowns) (r : TaxRule) (hr : r.ruleType ≠ .flatRate) :
    (reductionRule b r).seen = atTargets (fun r t => t.reduced r) b.seen r.unprioritized := by
  funext c
  simp only [Breakdowns.seen, atTargets, reductionRule_apply]
  change (if c ∈ r.targets then reduceRow r (b c) else b c).seen =
    if c ∈ r.targets then (b c).seen.reduced r.unprioritized else (b c).seen
  split_ifs
  · exact reduceRow_seen hr (b c)
  · rfl

/-- the pass of a flat rate, where the rule has one -/
def rateRule (b : Breakdowns) (r : TaxRule) : Breakdowns :=
  fun c => if c ∈ r.targets then taxRow r (r.rate.getD 0) (b c) else b c

theorem rateRule_seen (b : Breakdowns) (r : TaxRule) (hr : r.ruleType = .flatRate) :
    (rateRule b r).seen = atTargets (fun r t => t.taxed r) b.seen r.unprioritized := by
  funext c
  simp only [Breakdowns.seen, atTargets, rateRule]
  change (if c ∈ r.targets then taxRow r (r.rate.getD 0) (b c) else b c).seen =
    if c ∈ r.targets then (b c).seen.taxed r.unprioritized else (b c).seen
  split_ifs
  · exact taxRow_seen hr (b c)
  · rfl

/-- a rule without a rate raises -/
theorem flatRateRule_eq (b : Breakdowns) (r : TaxRule) :
    flatRateRule b r = if r.rate.isSome then .ok (rateRule b r) else .error .typeError := by
  unfold flatRateRule
  cases hrate : r.rate with
  | none => rfl
  | some rate =>
    refine congrArg Except.ok ?_
    funext c
    rw [@foldl_update_apply _ _ _ (fun _ => taxRow r rate) _ r.targets_nodup, rateRule, hrate]
    rfl

/-- the rule loops: an active flat rate without a rate raises -/
theorem applyRules_eq (tables : TaxTables) (taxYear : TaxYear) (b : Breakdowns) :
    applyRules tables taxYear b =
      if ∀ r ∈ flatRateRules tables taxYear, r.rate.isSome then
        .ok ((flatRateRules tables taxYear).foldl rateRule ((reductionRules tables taxYear).foldl reductionRule b))
      else .error .typeError := by
  unfold applyRules
  generalize (reductionRules tables taxYear).foldl reductionRule b = b
  induction flatRateRules tables taxYear generalizing b with
  | nil => simp [pure, Except.pure]
  | cons r rules ih =>
    rw [List.foldlM_cons, flatRateRule_eq]
    by_cases hr : r.rate.isSome
    · rw [if_pos hr]
      simp only [List.forall_mem_cons, hr, true_and, List.foldl_cons]
      exact ih _
    · rw [if_neg hr, if_neg fun h => hr (h r List.mem_cons_self)]
      rfl

/-! ## Other priorities -/

variable (tables : TaxTables) (taxYear : TaxYear) (priority priority' : TaxRule → ℕ)

/-- the active rules are the same but for their priorities and their order -/
theorem activeRules_prioritize (p : TaxRule → Bool) (hp : ∀ r n, p { r with priority := n } = p r) :
    (((activeRules (tables.prioritize priority) taxYear).filter p).map TaxRule.unprioritized).Perm
      (((activeRules (tables.prioritize priority') taxYear).filter p).map TaxRule.unprioritized) := by
  have hone : ∀ priority : TaxRule → ℕ,
      (((activeRules (tables.prioritize priority) taxYear).filter p).map TaxRule.unprioritized).Perm
        (((tables.rules.filter fun r => r.owner = some taxYear.owner ∧ r.taxYear = some taxYear.pk ∧ r.active).filter
          p).map TaxRule.unprioritized) := by
    intro priority
    have hperm := ((orderBy_perm (fun r => (toLex (r.priority, r.pk) : ℕ ×ₗ ℕ))
      ((tables.prioritize priority).rules.filter fun r =>
        r.owner = some taxYear.owner ∧ r.taxYear = some taxYear.pk ∧ r.active)).filter p).map TaxRule.unprioritized
    refine hperm.trans (List.Perm.of_eq ?_)
    simp only [TaxTables.prioritize, List.filter_map, List.map_map, Function.comp_def, hp]
    rfl
  exact (hone priority).trans (hone priority').symm

/-- **The priorities never change the tax.** From any rows on, both orders return rows that show the same tax, or both
raise. -/
theorem tax_of_priorities (b : Breakdowns) :
    Related (fun b₁ b₂ => ∀ c, SameTax (b₁ c) (b₂ c)) (applyRules (tables.prioritize priority) taxYear b)
      (applyRules (tables.prioritize priority') taxYear b) := by
  have hreductions := activeRules_prioritize tables taxYear priority priority' (fun r => r.ruleType ≠ .flatRate) fun _ _ => rfl
  have hrates := activeRules_prioritize tables taxYear priority priority' (fun r => r.ruleType = .flatRate) fun _ _ => rfl
  have hsome : (∀ r ∈ flatRateRules (tables.prioritize priority) taxYear, r.rate.isSome) ↔
      ∀ r ∈ flatRateRules (tables.prioritize priority') taxYear, r.rate.isSome := by
    have hone : ∀ l : List TaxRule, (∀ r ∈ l, r.rate.isSome) ↔ ∀ r ∈ l.map TaxRule.unprioritized, r.rate.isSome := by
      intro l
      rw [List.forall_mem_map]
      rfl
    refine (hone _).trans (Iff.trans ?_ (hone _).symm)
    exact ⟨fun h r hr => h r (hrates.mem_iff.2 hr), fun h r hr => h r (hrates.mem_iff.1 hr)⟩
  have hreduced : ((reductionRules (tables.prioritize priority) taxYear).foldl reductionRule b).seen =
      ((reductionRules (tables.prioritize priority') taxYear).foldl reductionRule b).seen :=
    foldl_observe_perm (fun b r hr => reductionRule_seen b r hr) (atTargets_comm reduced_comm)
      (fun r hr => of_decide_eq_true (List.mem_filter.1 hr).2) (fun r hr => of_decide_eq_true (List.mem_filter.1 hr).2)
      hreductions b
  rw [applyRules_eq, applyRules_eq]
  by_cases h : ∀ r ∈ flatRateRules (tables.prioritize priority) taxYear, r.rate.isSome
  · rw [if_pos h, if_pos (hsome.1 h)]
    intro c
    refine sameTax_of_seen (congrFun (?_ : Breakdowns.seen _ = Breakdowns.seen _) c)
    have hp : ∀ priority, ∀ r ∈ flatRateRules (tables.prioritize priority) taxYear, r.ruleType = .flatRate :=
      fun _ r hr => of_decide_eq_true (List.mem_filter.1 hr).2
    rw [foldl_observe (fun b r hr => rateRule_seen b r hr) (hp priority),
      foldl_observe (fun b r hr => rateRule_seen b r hr) (hp priority'), hreduced]
    apply hrates.foldl_eq'
    intro r _ r' _ t
    exact atTargets_comm taxed_comm t r r'
  · rw [if_neg h, if_neg (mt hsome.2 h)]
    rfl

/-- an allowance of 50 and a deduction of 80 on interest -/
def smallReductions : List TaxRule :=
  [⟨1, some 1, some 1, "DE", .allowance, .interest, "Saver", none, none, some 50, 0, true, saverRule.rate_valid,
      saverRule.threshold_nonneg, by decide⟩,
    ⟨2, some 1, some 1, "DE", .deduction, .interest, "Costs", none, none, some 80, 0, true, saverRule.rate_valid,
      saverRule.threshold_nonneg, by decide⟩]

/-- interest of 100, taxable -/
def hundredTaxable : Breakdowns := Pi.single .interest { grossAmount := 100, taxableAmount := 100 }

/-- **The traces record other amounts.** The rule that comes first takes all it may, the other one what is left: 50 and
50, or 20 and 80. -/
theorem smallReductions_traced :
    ¬∀ (tables : TaxTables) (taxYear : TaxYear) (priority priority' : TaxRule → ℕ) (b b₁ b₂ : Breakdowns),
      applyRules (tables.prioritize priority) taxYear b = .ok b₁ →
      applyRules (tables.prioritize priority') taxYear b = .ok b₂ →
      ∀ c, ((b₁ c).appliedRules.map RuleTrace.unprioritized).Perm ((b₂ c).appliedRules.map RuleTrace.unprioritized) := by
  intro h
  have hsame := h ⟨[], [], [], smallReductions⟩ plainYear (fun r => r.pk) (fun r => 10 - r.pk) hundredTaxable _ _ rfl rfl
    .interest
  revert hsame
  decide +kernel

end Vault67.Tax
