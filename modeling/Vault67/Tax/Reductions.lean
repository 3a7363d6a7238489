/-
The reductions of a tax year: what the stages after the collection do to the row of a category.

`Explained`: the tax base of a row (its gross amount net of losses, at least zero) is its taxable amount plus its
allowances plus its deductions, and none of the three is negative.

- `reduceInOrder_apply`: an overall reduction takes from each row what `Waterfall.drain` takes.
- `reductionRule_apply`: a rule takes up to its limit from EACH of its targets.
- `take_explained`, …, `applyRules_explained`: every stage keeps the rows explained.
- `exists_buildTaxYearSummary_ok_iff`: when a summary is returned at all.
- `tax_base_conserved`: so the summary accounts for the whole tax base.
-/
import Mathlib.Tactic
import Vault67.Lib.Waterfall
import Vault67.Tax.Collection
import Vault67.Tax.InContext

namespace Vault67.Tax

open Accumulate Fallible Waterfall

theorem categoryOrder_nodup : categoryOrder.Nodup := by decide

/-! ## One row -/

section Row

variable (row : CategoryTaxBreakdown) (attr : Attribute) (used : ℚ)

@[simp] theorem take_taxableAmount : (row.take attr used).taxableAmount = row.taxableAmount - used := by
  cases attr <;> rfl

@[simp] theorem take_grossAmount : (row.take attr used).grossAmount = row.grossAmount := by cases attr <;> rfl

@[simp] theorem take_losses : (row.take attr used).losses = row.losses := by cases attr <;> rfl

@[simp] theorem take_withholding : (row.take attr used).withholding = row.withholding := by cases attr <;> rfl

@[simp] theorem take_estimatedTax : (row.take attr used).estimatedTax = row.estimatedTax := by cases attr <;> rfl

@[simp] theorem take_appliedRules : (row.take attr used).appliedRules = row.appliedRules := by cases attr <;> rfl

@[simp] theorem take_zero : row.take attr 0 = row := by
  cases attr <;> simp [CategoryTaxBreakdown.take]

end Row

/-! ## The stages, row by row -/

theorem TaxRule.targets_nodup (r : TaxRule) : r.targets.Nodup := by
  unfold TaxRule.targets
  split_ifs
  · exact categoryOrder_nodup
  · exact List.nodup_singleton _

theorem TaxRule.reductionLimit_nonneg (r : TaxRule) : 0 ≤ r.reductionLimit := by
  have hsome : ∀ x : Option ℚ, (∀ y ∈ x, 0 ≤ y) → 0 ≤ x.getD 0 := by
    intro x hx
    cases x with
    | none => exact le_rfl
    | some y => exact hx y rfl
  unfold TaxRule.reductionLimit
  split_ifs
  · exact hsome _ r.threshold_nonneg
  · exact hsome _ r.fixed_nonneg

/-- **An overall reduction is shared.** Each row gives what the waterfall takes from it when the rows are emptied in
order. -/
theorem reduceInOrder_apply {cs : List TaxableCategory} (hcs : cs.Nodup) (attr : Attribute) (b : Breakdowns)
    (remaining : ℚ) (c : TaxableCategory) :
    reduceInOrder attr cs b remaining c =
      (b c).take attr (drain (fun c => max 0 (b c).taxableAmount) cs remaining c) := by
  induction cs generalizing b remaining with
  | nil => simp [reduceInOrder, drain]
  | cons d cs ih =>
    obtain ⟨hd, hcs⟩ := List.nodup_cons.1 hcs
    rw [reduceInOrder]
    split_ifs with hr
    · rw [drain_of_nonpos hr, take_zero]
    · have hpos : 0 ≤ min (max 0 (b d).taxableAmount) remaining := le_min (le_max_left _ _) (not_le.1 hr).le
      simp only [ih hcs]
      by_cases hc : c = d
      · subst hc
        rw [drain_of_notMem hd, take_zero, drain, Function.update_self, max_eq_right hpos]
        simp [Breakdowns.modify]
      · rw [drain, Function.update_of_ne hc, max_eq_right hpos]
        have hrest : drain (fun k => max 0 ((b.modify d fun row =>
              row.take attr (min (max 0 (b d).taxableAmount) remaining)) k).taxableAmount) cs
              (remaining - min (max 0 (b d).taxableAmount) remaining) =
            drain (fun k => max 0 (b k).taxableAmount) cs (remaining - min (max 0 (b d).taxableAmount) remaining) :=
          drain_congr fun k hk => by
            have hkd : k ≠ d := ne_of_mem_of_not_mem hk hd
            simp [Breakdowns.modify, hkd]
        rw [hrest]
        simp [Breakdowns.modify, hc]

theorem manualCategories_apply {c : TaxableCategory} (hc : c ∈ categoryOrder) (s : Collected) :
    manualCategories s c = manualRow (s.manualAllowances c) (s.manualDeductions c) (s.breakdowns c) := by
  rw [manualCategories,
    @foldl_update_apply _ _ _ (fun c => manualRow (s.manualAllowances c) (s.manualDeductions c)) _
      categoryOrder_nodup, if_pos hc]

theorem reductionRule_apply (b : Breakdowns) (r : TaxRule) (c : TaxableCategory) :
    reductionRule b r c = if c ∈ r.targets then reduceRow r (b c) else b c := by
  rw [reductionRule, @foldl_update_apply _ _ _ (fun _ => reduceRow r) _ r.targets_nodup]

theorem flatRateRule_ok {b b' : Breakdowns} {r : TaxRule} (h : flatRateRule b r = .ok b') :
    ∃ rate, r.rate = some rate ∧ ∀ c, b' c = if c ∈ r.targets then taxRow r rate (b c) else b c := by
  obtain ⟨rate, hrate, hb⟩ := bind_eq_ok.1 h
  refine ⟨rate, notNone_eq_ok.1 hrate, fun c => ?_⟩
  rw [← Except.ok.inj hb, @foldl_update_apply _ _ _ (fun _ => taxRow r rate) _ r.targets_nodup]

/-! ## The collected amounts stay -/

/-- the amounts of a row that no later stage changes -/
def CategoryTaxBreakdown.source (row : CategoryTaxBreakdown) : ℚ × ℚ × ℚ := (row.grossAmount, row.losses, row.withholding)

@[simp] theorem source_take (row : CategoryTaxBreakdown) (attr : Attribute) (used : ℚ) :
    (row.take attr used).source = row.source := by
  cases attr <;> rfl

theorem source_manualRow (allowances deductions : ℚ) (row : CategoryTaxBreakdown) :
    (manualRow allowances deductions row).source = row.source := by
  unfold manualRow
  simp only [source_take]
  rfl

theorem source_reduceRow (r : TaxRule) (row : CategoryTaxBreakdown) : (reduceRow r row).source = row.source :=
  source_take row r.attr _

theorem applyManual_source (s : Collected) (c : TaxableCategory) : (applyManual s c).source = (s.breakdowns c).source := by
  have hcategories : (manualCategories s c).source = (s.breakdowns c).source := by
    rw [manualCategories, @foldl_update_apply _ _ _ (fun c => manualRow (s.manualAllowances c) (s.manualDeductions c)) _
      categoryOrder_nodup]
    split_ifs
    · exact source_manualRow _ _ _
    · rfl
  simp only [applyManual, applyOverallReduction, reduceInOrder_apply categoryOrder_nodup, source_take, hcategories]

theorem reductionRules_source (rules : List TaxRule) (b : Breakdowns) (c : TaxableCategory) :
    (rules.foldl reductionRule b c).source = (b c).source := by
  induction rules generalizing b with
  | nil => rfl
  | cons r rules ih =>
    rw [List.foldl_cons, ih, reductionRule_apply]
    split_ifs
    · exact source_reduceRow r (b c)
    · rfl

theorem applyRules_source {tables : TaxTables} {taxYear : TaxYear} {b b' : Breakdowns}
    (h : applyRules tables taxYear b = .ok b') (c : TaxableCategory) : (b' c).source = (b c).source := by
  refine foldlM_inv (I := fun b' : Breakdowns => (b' c).source = (b c).source) ?_ (reductionRules_source _ _ c) h
  intro b₁ b₂ r _ hb hr
  obtain ⟨rate, -, hb₂⟩ := flatRateRule_ok hr
  rw [← hb, hb₂ c]
  split_ifs <;> rfl

/-! ## Explained rows -/

structure Explained (row : CategoryTaxBreakdown) : Prop where
  taxable_nonneg : 0 ≤ row.taxableAmount
  allowances_nonneg : 0 ≤ row.allowances
  deductions_nonneg : 0 ≤ row.deductions
  base_eq : max 0 (row.grossAmount + row.losses) = row.taxableAmount + row.allowances + row.deductions

variable {row : CategoryTaxBreakdown} {used : ℚ}

/-- what is taken off the taxable amount is recorded -/
theorem Explained.take (h : Explained row) (attr : Attribute) (h0 : 0 ≤ used) (hle : used ≤ row.taxableAmount) :
    Explained (row.take attr used) := by
  have hbase := h.base_eq
  have hallowances := h.allowances_nonneg
  have hdeductions := h.deductions_nonneg
  cases attr with
  | allowances =>
    refine ⟨sub_nonneg.2 hle, add_nonneg hallowances h0, hdeductions, ?_⟩
    simp only [CategoryTaxBreakdown.take]
    linarith
  | deductions =>
    refine ⟨sub_nonneg.2 hle, hallowances, add_nonneg hdeductions h0, ?_⟩
    simp only [CategoryTaxBreakdown.take]
    linarith

theorem manualRow_explained {allowances deductions : ℚ} (hrow : row.allowances = 0 ∧ row.deductions = 0)
    (ha : 0 ≤ allowances) (hd : 0 ≤ deductions) : Explained (manualRow allowances deductions row) := by
  have hnet : Explained { row with taxableAmount := max 0 (row.grossAmount + row.losses) } :=
    ⟨le_max_left _ _, hrow.1.ge, hrow.2.ge, by simp [hrow]⟩
  have hallowance := hnet.take .allowances (le_min hnet.taxable_nonneg ha) (min_le_left _ _)
  exact hallowance.take .deductions (le_min hallowance.taxable_nonneg hd) (min_le_left _ _)

theorem Explained.reduceRow (h : Explained row) (r : TaxRule) : Explained (reduceRow r row) := by
  have htake := h.take r.attr (le_min h.taxable_nonneg r.reductionLimit_nonneg) (min_le_left _ _)
  exact ⟨htake.taxable_nonneg, htake.allowances_nonneg, htake.deductions_nonneg, htake.base_eq⟩

theorem Explained.taxRow (h : Explained row) (r : TaxRule) (rate : ℚ) : Explained (taxRow r rate row) :=
  ⟨h.taxable_nonneg, h.allowances_nonneg, h.deductions_nonneg, h.base_eq⟩

variable {b b' : Breakdowns}

theorem applyOverallReduction_explained (h : ∀ c ∈ categoryOrder, Explained (b c)) (amount : ℚ) (attr : Attribute) :
    ∀ c ∈ categoryOrder, Explained (applyOverallReduction b amount attr c) := by
  intro c hc
  rw [applyOverallReduction, reduceInOrder_apply categoryOrder_nodup]
  refine (h c hc).take attr (drain_nonneg c) ?_
  have h0 : ∀ k, 0 ≤ (fun c => max 0 (b c).taxableAmount) k := fun k => le_max_left _ _
  calc drain (fun c => max 0 (b c).taxableAmount) categoryOrder amount c ≤ max 0 (b c).taxableAmount := drain_le h0 c
    _ = (b c).taxableAmount := max_eq_right (h c hc).taxable_nonneg

theorem reductionRule_explained (h : ∀ c ∈ categoryOrder, Explained (b c)) (r : TaxRule) :
    ∀ c ∈ categoryOrder, Explained (reductionRule b r c) := by
  intro c hc
  rw [reductionRule_apply]
  split_ifs
  · exact (h c hc).reduceRow r
  · exact h c hc

theorem reductionRules_explained (h : ∀ c ∈ categoryOrder, Explained (b c)) (rules : List TaxRule) :
    ∀ c ∈ categoryOrder, Explained (rules.foldl reductionRule b c) := by
  induction rules generalizing b with
  | nil => exact h
  | cons r rules ih => exact ih (reductionRule_explained h r)

theorem flatRateRule_explained {r : TaxRule} (h : ∀ c ∈ categoryOrder, Explained (b c))
    (hr : flatRateRule b r = .ok b') : ∀ c ∈ categoryOrder, Explained (b' c) := by
  intro c hc
  obtain ⟨rate, -, hb⟩ := flatRateRule_ok hr
  rw [hb c]
  split_ifs
  · exact (h c hc).taxRow r rate
  · exact h c hc

theorem applyRules_explained {tables : TaxTables} {taxYear : TaxYear} (h : ∀ c ∈ categoryOrder, Explained (b c))
    (hb : applyRules tables taxYear b = .ok b') : ∀ c ∈ categoryOrder, Explained (b' c) :=
  foldlM_inv (I := fun b : Breakdowns => ∀ c ∈ categoryOrder, Explained (b c))
    (fun _ _ _ _ h hr => flatRateRule_explained h hr) (reductionRules_explained h _) hb

/-! ## What is collected -/

/-- manual amounts are not negative, and no reduction was recorded yet -/
structure Collected.Valid (s : Collected) : Prop where
  allowances_nonneg : ∀ c, 0 ≤ s.manualAllowances c
  deductions_nonneg : ∀ c, 0 ≤ s.manualDeductions c
  unreduced : ∀ c, (s.breakdowns c).allowances = 0 ∧ (s.breakdowns c).deductions = 0

/-- a row as it is collected: nothing was taken off it, and no rule has met it -/
structure CategoryTaxBreakdown.Bare (row : CategoryTaxBreakdown) : Prop where
  allowances : row.allowances = 0
  deductions : row.deductions = 0
  estimatedTax : row.estimatedTax = 0
  appliedRules : row.appliedRules = []

theorem zero_bare : (0 : CategoryTaxBreakdown).Bare := ⟨rfl, rfl, rfl, rfl⟩

theorem CategoryTaxBreakdown.Bare.add {row part : CategoryTaxBreakdown} (h : row.Bare) (hpart : part.Bare) :
    (row + part).Bare := by
  refine ⟨?_, ?_, ?_, ?_⟩
  · exact (congrArg₂ (· + ·) h.allowances hpart.allowances).trans (add_zero 0)
  · exact (congrArg₂ (· + ·) h.deductions hpart.deductions).trans (add_zero 0)
  · exact (congrArg₂ (· + ·) h.estimatedTax hpart.estimatedTax).trans (add_zero 0)
  · exact congrArg₂ (· ++ ·) h.appliedRules hpart.appliedRules

theorem single_bare {part : CategoryTaxBreakdown} (h : part.Bare) (c d : TaxableCategory) :
    ((Pi.single c part : Breakdowns) d).Bare := by
  by_cases hd : d = c
  · subst hd
    rwa [Pi.single_eq_same]
  · rw [Pi.single_eq_of_ne hd]
    exact zero_bare

theorem addGain_bare (gain : Option ℚ) : ((0 : CategoryTaxBreakdown).addGain gain).Bare := by
  cases gain with
  | none => exact zero_bare
  | some x =>
    unfold CategoryTaxBreakdown.addGain
    dsimp only
    split_ifs <;> exact ⟨rfl, rfl, rfl, rfl⟩

theorem modify_bare (c d : TaxableCategory) (f : CategoryTaxBreakdown → CategoryTaxBreakdown) (hf : (f 0).Bare) :
    ((0 : Breakdowns).modify c f d).Bare := by
  by_cases hd : d = c
  · subst hd
    rwa [Breakdowns.modify, Function.update_self]
  · rw [Breakdowns.modify, Function.update_of_ne hd]
    exact zero_bare

theorem adjust_bare (item : TaxAdjustment) (x : ℚ) (c : TaxableCategory) : ((adjust 0 item x).breakdowns c).Bare := by
  unfold adjust
  cases item.category.taxable with
  | some k =>
    dsimp only
    exact modify_bare k c _ ⟨rfl, rfl, rfl, rfl⟩
  | none =>
    cases item.category with
    | capitalLoss =>
      dsimp only
      exact modify_bare .capitalGain c _ ⟨rfl, rfl, rfl, rfl⟩
    | withholdingTax =>
      dsimp only
      split
      · dsimp only
        exact modify_bare _ c _ ⟨rfl, rfl, rfl, rfl⟩
      · exact zero_bare
    | _ => exact zero_bare

theorem single_nonneg {x : ℚ} (hx : 0 ≤ x) (c d : TaxableCategory) : 0 ≤ (Pi.single c x : TaxableCategory → ℚ) d :=
  (Pi.single_nonneg.2 hx : (0 : TaxableCategory → ℚ) ≤ Pi.single c x) d

/-- the manual amounts are not negative -/
structure Collected.Relieving (s : Collected) : Prop where
  allowances_nonneg : ∀ c, 0 ≤ s.manualAllowances c
  deductions_nonneg : ∀ c, 0 ≤ s.manualDeductions c

theorem Collected.Relieving.add {s t : Collected} (hs : s.Relieving) (ht : t.Relieving) : (s + t).Relieving :=
  ⟨fun c => add_nonneg (hs.allowances_nonneg c) (ht.allowances_nonneg c),
    fun c => add_nonneg (hs.deductions_nonneg c) (ht.deductions_nonneg c)⟩

/-- an adjustment enters the manual amounts by its absolute value -/
theorem adjust_relieving (item : TaxAdjustment) (x : ℚ) : (adjust 0 item x).Relieving := by
  have habs : ∀ c d, 0 ≤ addTo (0 : Collected).manualAllowances c (some |x|) d := by
    intro c d
    rw [addTo_eq]
    exact add_nonneg le_rfl (single_nonneg (abs_nonneg x) c d)
  unfold adjust
  split
  · exact ⟨fun _ => le_rfl, fun _ => le_rfl⟩
  · split
    · exact ⟨fun _ => le_rfl, fun _ => le_rfl⟩
    · exact ⟨fun d => habs _ d, fun _ => le_rfl⟩
    · exact ⟨fun _ => le_rfl, fun d => habs _ d⟩
    · split <;> exact ⟨fun _ => le_rfl, fun _ => le_rfl⟩
    · exact ⟨fun _ => le_rfl, fun _ => le_rfl⟩
    · exact ⟨fun _ => le_rfl, fun _ => le_rfl⟩

theorem reporting_nonneg (fx : Fx) (taxYear : TaxYear) {amount : ℚ} (h : 0 ≤ amount) (currency : ℕ) (date : Date) :
    0 ≤ (reporting fx taxYear amount currency date).getD 0 := by
  unfold reporting
  cases hr : getFxRate fx currency taxYear.reportingCurrency (some date) with
  | ok rate => exact mul_nonneg h (getFxRate_pos hr).le
  | error exc => exact le_rfl

variable {db : Db} {fx : Fx} {tables : TaxTables} {taxYear : TaxYear} {s : Collected}

/-- **The collected rows are bare.** Nothing has been taken off them, no tax is in them and no rule has been applied. -/
theorem collect_bare (h : collect db fx tables taxYear = .ok s) (c : TaxableCategory) : (s.breakdowns c).Bare := by
  obtain ⟨-, rfl⟩ := collect_ok_iff.1 h
  have hadd : ∀ s t : Collected, (∀ c, (s.breakdowns c).Bare) → (∀ c, (t.breakdowns c).Bare) →
      ∀ c, ((s + t).breakdowns c).Bare := fun _ _ hs ht c => (hs c).add (ht c)
  have hreasons : ∀ reasons, ∀ c, (({ reasons := reasons } : Collected).breakdowns c).Bare := fun _ _ => zero_bare
  have hevents : ∀ c, ((eventParts db fx taxYear).breakdowns c).Bare := by
    refine eventParts_induction hadd hreasons ?_ ?_ ?_ ?_
    · exact fun e c => single_bare ⟨rfl, rfl, rfl, rfl⟩ _ c
    · exact fun i c => single_bare ⟨rfl, rfl, rfl, rfl⟩ _ c
    · exact fun _ event c => single_bare (addGain_bare _) _ c
    · exact fun e _ => zero_bare
  have hmanual : ∀ c, ((manualParts fx tables taxYear).breakdowns c).Bare := by
    refine manualParts_induction hadd hreasons ?_ ?_ adjust_bare
    · exact fun item _ => zero_bare
    · exact fun item _ => zero_bare
  exact (hevents c).add (hmanual c)

theorem collect_relieving (h : collect db fx tables taxYear = .ok s) : s.Relieving := by
  obtain ⟨-, rfl⟩ := collect_ok_iff.1 h
  have hreasons : ∀ reasons, Collected.Relieving { reasons := reasons } := fun _ => ⟨fun _ => le_rfl, fun _ => le_rfl⟩
  have hevents : (eventParts db fx taxYear).Relieving := by
    refine eventParts_induction (fun _ _ => .add) hreasons ?_ ?_ ?_ ?_
    · exact fun e => ⟨fun _ => le_rfl, fun _ => le_rfl⟩
    · exact fun i => ⟨fun _ => le_rfl, fun _ => le_rfl⟩
    · exact fun _ event => ⟨fun _ => le_rfl, fun _ => le_rfl⟩
    · exact fun e => ⟨fun _ => le_rfl, fun _ => le_rfl⟩
  have hmanual : (manualParts fx tables taxYear).Relieving := by
    refine manualParts_induction (fun _ _ => .add) hreasons ?_ ?_ adjust_relieving
    · intro item
      have hamount := reporting_nonneg fx taxYear item.amount_nonneg item.currency taxYear.startDate
      exact ⟨fun c => single_nonneg hamount _ c, fun _ => le_rfl⟩
    · intro item
      have hamount := reporting_nonneg fx taxYear item.amount_nonneg item.currency item.date
      exact ⟨fun _ => le_rfl, fun c => single_nonneg hamount _ c⟩
  exact hevents.add hmanual

theorem collect_valid (h : collect db fx tables taxYear = .ok s) : s.Valid := by
  have hrelieving := collect_relieving h
  refine ⟨hrelieving.allowances_nonneg, hrelieving.deductions_nonneg, ?_⟩
  intro c
  have hbare := collect_bare h c
  exact ⟨hbare.allowances, hbare.deductions⟩

theorem applyManual_explained (h : s.Valid) : ∀ c ∈ categoryOrder, Explained (applyManual s c) := by
  have hcategories : ∀ c ∈ categoryOrder, Explained (manualCategories s c) := by
    intro c hc
    rw [manualCategories_apply hc]
    exact manualRow_explained (h.unreduced c) (h.allowances_nonneg c) (h.deductions_nonneg c)
  exact applyOverallReduction_explained (applyOverallReduction_explained hcategories _ _) _ _

/-! ## The summary -/

theorem buildTaxYearSummary_ok {summary : TaxYearSummary} :
    buildTaxYearSummary db fx tables taxYear = .ok summary ↔
      ∃ s, collect db fx tables taxYear = .ok s ∧
        ∃ b, applyRules tables taxYear (applyManual s) = .ok b ∧ summarize db taxYear s b = summary := by
  simp only [buildTaxYearSummary, bind_eq_ok, Except.ok.injEq]

theorem exists_flatRateRule_ok_iff (b : Breakdowns) (r : TaxRule) :
    (∃ b', flatRateRule b r = .ok b') ↔ r.rate.isSome := by
  simp only [flatRateRule, bind_eq_ok, notNone_eq_ok, Except.ok.injEq, Option.isSome_iff_exists]
  refine ⟨?_, ?_⟩
  · intro h
    obtain ⟨b', rate, hrate, -⟩ := h
    exact ⟨rate, hrate⟩
  · intro h
    obtain ⟨rate, hrate⟩ := h
    exact ⟨_, rate, hrate, rfl⟩

/-- **A summary is returned** unless a replay raises something else than a validation error or a flat-rate rule has no
rate. -/
theorem exists_buildTaxYearSummary_ok_iff :
    (∃ summary, buildTaxYearSummary db fx tables taxYear = .ok summary) ↔
      (∀ a ∈ brokerageAccounts db taxYear, Replays db taxYear a) ∧ ∀ r ∈ flatRateRules tables taxYear, r.rate.isSome := by
  have hrules : ∀ b, (∃ b', applyRules tables taxYear b = .ok b') ↔ ∀ r ∈ flatRateRules tables taxYear, r.rate.isSome :=
    fun b => exists_foldlM_ok_iff exists_flatRateRule_ok_iff
  simp only [buildTaxYearSummary_ok]
  refine ⟨?_, ?_⟩
  · intro h
    obtain ⟨summary, s, hs, b, hb, -⟩ := h
    exact ⟨(collect_ok_iff.1 hs).1, (hrules _).1 ⟨b, hb⟩⟩
  · intro h
    obtain ⟨hreplays, hrates⟩ := h
    obtain ⟨b, hb⟩ := (hrules _).2 hrates
    exact ⟨_, _, collect_ok_iff.2 ⟨hreplays, rfl⟩, b, hb, rfl⟩

/-- the tax base: gross amounts net of losses, by category, none below zero -/
def taxBase (rows : List CategoryTaxBreakdown) : ℚ := (rows.map fun row => max 0 (row.grossAmount + row.losses)).sum

theorem Explained.sum {rows : List CategoryTaxBreakdown} (h : ∀ row ∈ rows, Explained row) :
    taxBase rows = (rows.map CategoryTaxBreakdown.taxableAmount).sum + (rows.map CategoryTaxBreakdown.allowances).sum +
      (rows.map CategoryTaxBreakdown.deductions).sum := by
  unfold taxBase
  rw [← List.sum_map_add, ← List.sum_map_add]
  exact congrArg List.sum (List.map_congr_left fun row hrow => (h row hrow).base_eq)

/-- **The tax base is conserved.** Every category's base is its taxable amount plus what was taken off it, and the
totals of the summary are what was taken off all categories. -/
theorem tax_base_conserved {summary : TaxYearSummary} (h : buildTaxYearSummary db fx tables taxYear = .ok summary) :
    (∀ p ∈ summary.categories, 0 ≤ p.2.taxableAmount ∧ 0 ≤ p.2.allowances ∧ 0 ≤ p.2.deductions ∧
      max 0 (p.2.grossAmount + p.2.losses) = p.2.taxableAmount + p.2.allowances + p.2.deductions) ∧
    summary.allowances = (summary.categories.map fun p => p.2.allowances).sum ∧
    summary.deductions = (summary.categories.map fun p => p.2.deductions).sum ∧
    summary.allowances + summary.deductions =
      taxBase (summary.categories.map Prod.snd) - (summary.categories.map fun p => p.2.taxableAmount).sum ∧
    summary.allowances + summary.deductions ≤ taxBase (summary.categories.map Prod.snd) := by
  obtain ⟨s, hs, b, hb, rfl⟩ := buildTaxYearSummary_ok.1 h
  have hexplained : ∀ c ∈ categoryOrder, Explained (b c) :=
    applyRules_explained (applyManual_explained (collect_valid hs)) hb
  have hrows : ∀ row ∈ categoryOrder.map b, Explained row := by
    intro row hrow
    obtain ⟨c, hc, rfl⟩ := List.mem_map.1 hrow
    exact hexplained c hc
  have hbase := Explained.sum hrows
  have htaxable : 0 ≤ ((categoryOrder.map b).map CategoryTaxBreakdown.taxableAmount).sum :=
    List.sum_nonneg (by simpa using fun c hc => (hexplained c hc).taxable_nonneg)
  have hsnd : (categoryOrder.map fun c => (c, b c)).map Prod.snd = categoryOrder.map b := by simp
  have hmap : ∀ f : CategoryTaxBreakdown → ℚ,
      ((categoryOrder.map fun c => (c, b c)).map fun p => f p.2).sum = ((categoryOrder.map b).map f).sum := by
    intro f
    rw [List.map_map, List.map_map]
    rfl
  have htotal : ∀ f : CategoryTaxBreakdown → ℚ, b.total f = ((categoryOrder.map b).map f).sum := by
    intro f
    rw [List.map_map]
    rfl
  refine ⟨?_, ?_, ?_, ?_, ?_⟩
  · intro p hp
    obtain ⟨c, hc, rfl⟩ := List.mem_map.1 hp
    have hrow := hexplained c hc
    exact ⟨hrow.taxable_nonneg, hrow.allowances_nonneg, hrow.deductions_nonneg, hrow.base_eq⟩
  · exact (htotal _).trans (hmap _).symm
  · exact (htotal _).trans (hmap _).symm
  · simp only [summarize, hsnd, hmap, htotal]
    linarith
  · simp only [summarize, hsnd, htotal]
    linarith

/-- days 0 to 364 in currency 1, for user 1 -/
def plainYear : TaxYear := ⟨1, 1, "2026", "DE", 0, 364, 1, .open, "", by decide⟩

def plainAdjustment (category : TaxCategory) (appliesTo : Option TaxableCategory) (amount : ℚ) (h : amount ≠ 0) :
    TaxAdjustment := ⟨⟨1, 1, 1, true⟩, category, appliesTo, "Statement", amount, 1, 100, "", h⟩

def saverRule : TaxRule :=
  ⟨1, some 1, some 1, "DE", .allowance, .overall, "Saver", none, none, some 100, 100, true, by simp, by simp, by norm_num⟩

/-- interest and other income of 100 each, and an overall allowance rule of 100 -/
def twoIncomes : TaxTables where
  deductions := []
  allowances := []
  adjustments := [plainAdjustment .interest none 100 (by norm_num), plainAdjustment .otherIncome none 100 (by norm_num)]
  rules := [saverRule]

/-- currencies and securities, and no rate -/
def plainDb : Db := Db.init (fun _ => "EUR") fun _ => ⟨"ETF", 1, true⟩

/-- both sides of the conservation equation are 200: half is taxable, half was taken off -/
theorem tax_base_conserved_twoIncomes :
    ∃ summary, buildTaxYearSummary plainDb ⟨[], 365⟩ twoIncomes plainYear = .ok summary ∧
      (∀ p ∈ summary.categories,
        max 0 (p.2.grossAmount + p.2.losses) = p.2.taxableAmount + p.2.allowances + p.2.deductions) ∧
      summary.allowances + summary.deductions =
        taxBase (summary.categories.map Prod.snd) - (summary.categories.map fun p => p.2.taxableAmount).sum ∧
      summary.allowances = 200 := by
  obtain ⟨summary, h, htaken⟩ := exists_ok_of_check (x := buildTaxYearSummary plainDb ⟨[], 365⟩ twoIncomes plainYear)
    (p := fun summary => summary.allowances = 200) (by decide +kernel)
  obtain ⟨hrows, -, -, htotal, -⟩ := tax_base_conserved h
  exact ⟨summary, h, fun p hp => (hrows p hp).2.2.2, htotal, htaken⟩

/-- n + 1 units of currency k + 2 for one of currency 1 -/
def unitsPerOne (k n : ℕ) : ExchangeRate := ⟨0, 1, k + 2, n + 1, "MANUAL", 0, by omega, by positivity⟩

/-- three, six and seven units of the currencies 2, 3 and 4 for one of currency 1 -/
def thirdsAndSixths : Fx := ⟨[unitsPerOne 0 2, unitsPerOne 1 5, unitsPerOne 2 6], 365⟩

def quarterRule : TaxRule :=
  ⟨2, some 1, some 1, "DE", .flatRate, .interest, "Quarter", some 25, none, none, 100, true, by norm_num, by simp, by simp⟩

/-- interest of 5 thirds, allowances of 1 sixth for interest and of 5 sixths overall, a deduction of 1 seventh -/
def foreignReliefs : TaxTables where
  deductions := [⟨⟨1, 1, 1, true⟩, "Fees", .interest, 1, 4, 100, "", by norm_num⟩]
  allowances := [
    ⟨⟨1, 1, 1, true⟩, "Saver", .interest, 1, 3, "", by norm_num⟩,
    ⟨⟨2, 1, 1, true⟩, "Basic", .overall, 5, 3, "", by norm_num⟩]
  adjustments := [⟨⟨1, 1, 1, true⟩, .interest, none, "Statement", 5, 2, 100, "", by norm_num⟩]
  rules := [quarterRule]

/-- **Twenty-eight digits.** In the default context the amounts of a row may miss its base in the last digit, whether they
are added up there or exactly. -/
theorem foreignReliefs_lastDigit :
    ∃ summary, InContext.buildTaxYearSummary kept plainDb thirdsAndSixths foreignReliefs plainYear = .ok summary ∧
      ∃ p ∈ summary.categories,
        max 0 (kept (p.2.grossAmount + p.2.losses)) ≠
            kept (kept (p.2.taxableAmount + p.2.allowances) + p.2.deductions) ∧
          max 0 (p.2.grossAmount + p.2.losses) ≠ p.2.taxableAmount + p.2.allowances + p.2.deductions :=
  exists_ok_of_check (by decide +kernel)

end Vault67.Tax
