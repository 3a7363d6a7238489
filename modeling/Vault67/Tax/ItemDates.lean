/-
Deductions and adjustments are dated inside their tax year.

The date and the owner of an item are checked when the item is saved, against the year as the item has loaded it, and not
when the year is saved; `archive_tax_item` saves the whole item, and so checks them again.

- `archiveTaxItem`: the view.
- `rowsValid_step`: what is stored passes the field checks it was saved with, and belongs to a stored year.
- `itemsInPeriod_iff`: then the period holds of the counted items, and archiving is accepted, exactly when every stored
  item fits its year: dated inside, and of its owner unless it is filed.
- `items_stay_in_period_iff`: along a run, if and only if every accepted save of a year leaves its items fitting, and every
  accepted save of an item fits the year as it is stored.
Witness:
- `shortened_year`: a year is shortened, or given to another user, and its deduction can no longer be archived.
-/
import Mathlib.Tactic
import Vault67.Lib.Machine
import Vault67.Tax.Summary
import Vault67.Tax.FiledLock
import Vault67.Tax.Periods

namespace Vault67.Tax

open Fallible Machine OrderBy

variable {upper : String → String} {db db' : TaxDb} {cached : Option ℕ}

/-! ## `archive_tax_item` -/

inductive ItemKind where
  | deduction | allowance | adjustment | rule
deriving DecidableEq, Repr

/-- the dictionary of models -/
def itemModel (kind : String) : Option ItemKind :=
  if kind = "deduction" then some .deduction
  else if kind = "allowance" then some .allowance
  else if kind = "adjustment" then some .adjustment
  else if kind = "rule" then some .rule
  else none

inductive ArchiveResponse where
  | redirect
  | forbidden (message : Message)
  | status404
deriving DecidableEq, Repr

/-- `get_object_or_404` -/
def getObject {α : Type} (rows : List α) (p : α → Bool) : Except Error α :=
  match rows.find? p with
  | some row => .ok row
  | none => .error .notFound

/-- the item that the view loads, archives and saves: its year is loaded by the save, and its key is there, so no new one
is taken -/
def archiveItem (db : TaxDb) (user taxYear : ℕ) (kind : ItemKind) (pk : ℕ) : Except Error TaxDb :=
  match kind with
  | .deduction => do
    let item ← getObject db.tables.deductions fun i => i.pk = pk ∧ i.owner = user ∧ i.taxYear = taxYear
    TaxDeductionDraft.save db none (TaxDeduction.draft { item with active := false }) pk
  | .allowance => do
    let item ← getObject db.tables.allowances fun i => i.pk = pk ∧ i.owner = user ∧ i.taxYear = taxYear
    TaxAllowanceDraft.save db none (TaxAllowance.draft { item with active := false }) pk
  | .adjustment => do
    let item ← getObject db.tables.adjustments fun i => i.pk = pk ∧ i.owner = user ∧ i.taxYear = taxYear
    TaxAdjustmentDraft.save db none (TaxAdjustment.draft { item with active := false }) pk
  | .rule => do
    let rule ← getObject db.tables.rules fun r => r.pk = pk ∧ r.owner = some user ∧ r.taxYear = some taxYear
    TaxRuleDraft.save db none (TaxRule.draft { rule with active := false }) pk

def archiveTaxItem (db : TaxDb) (user taxYearPk : ℕ) (kind : String) (pk : ℕ) :
    Except Error (ArchiveResponse × TaxDb) := do
  let taxYear ← getObject db.years fun y => y.pk = taxYearPk ∧ y.owner = user
  if taxYear.status = .filed then .ok (.forbidden filedMessage, db)
  else
    match itemModel kind with
    | none => .ok (.status404, db)
    | some model => do
      let db' ← archiveItem db user taxYear.pk model pk
      .ok (.redirect, db')

/-! ## Accepted saves of stored items -/

theorem clean_ok {i : TaxYearItem} {y : TaxYear} (hy : db.taxYear i.taxYear = .ok y) (howner : i.owner = y.owner)
    (hs : y.status ≠ .filed) : i.draft.clean db none = .ok [] := by
  have hnone : errorsOf [
      (decide (∃ o ∈ i.draft.owner, o ≠ y.owner), "tax_year", .text "Tax year must belong to the same user."),
      (decide (y.status = .filed), "tax_year", filedMessage)] = [] := by
    rw [errorsOf_eq_nil]
    simp only [List.forall_mem_cons, decide_eq_false_iff_not]
    refine ⟨fun h => ?_, hs, by simp⟩
    obtain ⟨o, ho, hne⟩ := h
    exact hne ((Option.some.inj ho).symm.trans howner)
  have hnamed : i.draft.taxYear = some i.taxYear := rfl
  have hrelated : db.relatedYear i.taxYear none = .ok y := hy
  simp only [ItemDraft.clean, hnamed, hrelated, bind, Except.bind, hnone]

theorem cleanDate_ok {i : TaxYearItem} {y : TaxYear} {date : Date} (hy : db.taxYear i.taxYear = .ok y)
    (howner : i.owner = y.owner) (hs : y.status ≠ .filed) (hdate : y.Contains date) :
    i.draft.cleanDate db none (some date) = .ok [] := by
  have hnamed : i.draft.taxYear = some i.taxYear := rfl
  have hrelated : db.relatedYear i.taxYear none = .ok y := hy
  have hinside : y.startDate ≤ date ∧ date ≤ y.endDate := hdate
  simp [ItemDraft.cleanDate, clean_ok hy howner hs, hnamed, hrelated, bind, Except.bind, raised, hinside]

/-- a stored item that is accepted goes back to its row -/
theorem itemSave_of {α ρ : Type} {d : α} {toItem : α → ItemDraft} {fields : Errors} {errors : Except Error Errors}
    {constraints : α → Errors → Errors} {key : ρ → ℕ} {rows : List ρ} {nextval : ℕ}
    {write : α → TaxYearItem → Except Error TaxDb} {item : TaxYearItem} (hitem : toItem d = item.draft)
    (hfields : fields = []) (hclean : errors = .ok []) (hconstraints : constraints d [] = []) :
    (do
      let d ← fullClean fields (errors >>= fun own => .ok (d, own)) constraints
      let pk ← keyFor key rows (toItem d).pk nextval
      let item ← (toItem d).row pk
      write d item) = write d item := by
  have hfull : fullClean fields (errors >>= fun own => .ok (d, own)) constraints = .ok d :=
    fullClean_ok.2 ⟨hfields, bind_eq_ok.2 ⟨[], hclean, rfl⟩, hconstraints⟩
  rw [hfull]
  change (keyFor key rows (toItem d).pk nextval >>= fun pk => (toItem d).row pk >>= write d) = _
  rw [hitem]
  rfl

theorem deductionSave_of {i : TaxDeduction} {y : TaxYear} (nextval : ℕ) (hfields : i.draft.cleanFields = [])
    (hy : db.taxYear i.taxYear = .ok y) (howner : i.owner = y.owner) (hs : y.status ≠ .filed)
    (hdate : y.Contains i.date) : i.draft.save db none nextval = .ok (db.writeDeduction i) := by
  refine Eq.trans (itemSave_of ?_ hfields ?_ ?_) (dif_pos i.amount_nonneg)
  · rfl
  · exact cleanDate_ok hy howner hs hdate
  · rfl

theorem allowanceSave_of {i : TaxAllowance} {y : TaxYear} (nextval : ℕ) (hfields : i.draft.cleanFields = [])
    (hy : db.taxYear i.taxYear = .ok y) (howner : i.owner = y.owner) (hs : y.status ≠ .filed) :
    i.draft.save db none nextval = .ok (db.writeAllowance i) := by
  refine Eq.trans (itemSave_of ?_ hfields ?_ ?_) (dif_pos i.amount_nonneg)
  · rfl
  · exact clean_ok hy howner hs
  · rfl

theorem adjustmentSave_of {i : TaxAdjustment} {y : TaxYear} (nextval : ℕ) (hfields : i.draft.cleanFields = [])
    (hy : db.taxYear i.taxYear = .ok y) (howner : i.owner = y.owner) (hs : y.status ≠ .filed)
    (hdate : y.Contains i.date) : i.draft.save db none nextval = .ok (db.writeAdjustment i) := by
  have hne : i.draft.amount ≠ 0 := i.amount_ne
  have hconstraints : i.draft.constraintErrors = [] := by
    simp [TaxAdjustmentDraft.constraintErrors, raised, hne]
  refine Eq.trans (itemSave_of ?_ hfields ?_ ?_) (dif_pos hne)
  · rfl
  · exact cleanDate_ok hy howner hs hdate
  · exact hconstraints

/-! ## Rules -/

/-- the field that the type of the rule uses is there -/
def TaxRuleDraft.Required (d : TaxRuleDraft) : Prop :=
  (d.ruleType = .flatRate → d.rate ≠ none) ∧ (d.ruleType = .threshold → d.threshold ≠ none) ∧
    (d.ruleType = .allowance ∨ d.ruleType = .deduction → d.fixedAmount ≠ none)

theorem cleared_required {d : TaxRuleDraft} (h : d.Required) : d.cleared.Required := by
  unfold TaxRuleDraft.Required TaxRuleDraft.cleared at *
  cases hd : d.ruleType <;> simp_all

theorem cleared_constraints {d : TaxRuleDraft} (h : d.Constraints) : d.cleared.Constraints := by
  unfold TaxRuleDraft.Constraints TaxRuleDraft.cleared at *
  cases hd : d.ruleType <;> simp_all

theorem cleared_cleanFields {d : TaxRuleDraft} (h : d.cleanFields = []) {jurisdiction : String}
    (hne : jurisdiction ≠ "") (hlen : jurisdiction.length ≤ 8) :
    { d with jurisdiction := jurisdiction }.cleared.cleanFields = [] := by
  rw [TaxRuleDraft.cleanFields, raised_eq_nil] at h ⊢
  simp only [List.forall_mem_cons, decide_eq_false_iff_not] at h ⊢
  obtain ⟨-, -, hname, hnamelen, hrate, hratefit, hthr, hfix, hpriority, -⟩ := h
  unfold TaxRuleDraft.cleared
  cases hd : d.ruleType <;> simp_all

theorem constraintErrors_eq_nil {d : TaxRuleDraft} (h : d.Constraints) (errors : Errors) :
    d.constraintErrors errors = [] := by
  obtain ⟨hrate, hthr, hfix⟩ := h
  rw [TaxRuleDraft.constraintErrors, raised_eq_nil]
  simp only [List.forall_mem_cons, decide_eq_false_iff_not]
  refine ⟨fun h => ?_, fun h => ?_, fun h => ?_, by simp⟩
  · obtain ⟨⟨x, hx, hbad⟩, -⟩ := h
    obtain ⟨h0, h100⟩ := hrate x hx
    rcases hbad with hneg | hover
    · exact absurd h0 (not_le.2 hneg)
    · exact absurd h100 (not_le.2 hover)
  · obtain ⟨⟨x, hx, hneg⟩, -⟩ := h
    exact absurd (hthr x hx) (not_le.2 hneg)
  · obtain ⟨⟨x, hx, hneg⟩, -⟩ := h
    exact absurd (hfix x hx) (not_le.2 hneg)

theorem ruleClean_of {d : TaxRuleDraft} {y : TaxYear} (hy : db.taxYear y.pk = .ok y) (hnamed : d.taxYear = some y.pk)
    (howner : d.owner = some y.owner) (hs : y.status ≠ .filed) (hreq : d.Required) :
    d.clean db none = .ok ({ d with jurisdiction := y.jurisdiction }.cleared, []) := by
  have hrelated : db.relatedYear y.pk none = .ok y := hy
  have hyear : d.year db none = .ok (some y) := by
    rw [TaxRuleDraft.year, hnamed]
    simp only [hrelated]
    rfl
  simp only [TaxRuleDraft.clean, hyear, bind, Except.bind]
  refine congrArg Except.ok (Prod.ext rfl (errorsOf_eq_nil.2 ?_))
  obtain ⟨hflat, hthr, hfix⟩ := hreq
  simp only [List.forall_mem_cons, decide_eq_false_iff_not]
  refine ⟨by simp [howner], by simp, by simp [howner], by simp [howner, hs], ?_, ?_, ?_, by simp⟩
  · exact fun h => hflat h.1 h.2
  · exact fun h => hthr h.1 h.2
  · exact fun h => hfix h.1 h.2

theorem ruleSave_of {r : TaxRule} {y : TaxYear} (nextval : ℕ) (hfields : r.draft.cleanFields = [])
    (hreq : r.draft.Required) (hy : db.taxYear y.pk = .ok y) (hnamed : r.taxYear = some y.pk)
    (howner : r.owner = some y.owner) (hs : y.status ≠ .filed) : ∃ db', r.draft.save db none nextval = .ok db' := by
  have hcons : { r.draft with jurisdiction := y.jurisdiction }.cleared.Constraints :=
    cleared_constraints ⟨r.rate_valid, r.threshold_nonneg, r.fixed_nonneg⟩
  have hfull : r.draft.fullClean db none = .ok { r.draft with jurisdiction := y.jurisdiction }.cleared :=
    fullClean_ok.2 ⟨hfields, ruleClean_of hy hnamed howner hs hreq, constraintErrors_eq_nil hcons _⟩
  have hpk : { r.draft with jurisdiction := y.jurisdiction }.cleared.pk = some r.pk := by rw [cleared_pk]; rfl
  have hlen : y.jurisdiction.length ≤ 8 := (db.jurisdiction_length y (taxYear_ok.1 hy).1).trans (by decide)
  simp only [TaxRuleDraft.save, hfull, hpk, keyFor, cleared_jurisdiction, storeText_of_length hlen, bind, Except.bind,
    dif_pos hcons]
  exact ⟨_, rfl⟩

/-! ## Stored rows -/

/-- a stored item passes its field checks, and its year is stored -/
def ItemValid (db : TaxDb) (fields : Errors) (taxYear : ℕ) : Prop := fields = [] ∧ ∃ y, db.taxYear taxYear = .ok y

structure RowsValid (db : TaxDb) : Prop where
  years : ∀ y ∈ db.years, y.jurisdiction ≠ ""
  loaded : ∀ y ∈ db.loaded, y.jurisdiction ≠ ""
  deductions : ∀ i ∈ db.tables.deductions, ItemValid db i.draft.cleanFields i.taxYear
  allowances : ∀ i ∈ db.tables.allowances, ItemValid db i.draft.cleanFields i.taxYear
  adjustments : ∀ i ∈ db.tables.adjustments, ItemValid db i.draft.cleanFields i.taxYear
  rules : ∀ r ∈ db.tables.rules, r.draft.cleanFields = [] ∧ r.draft.Required ∧
    ∀ k ∈ r.taxYear, ∃ y, db.taxYear k = .ok y

theorem rowsValid_init : RowsValid TaxDb.init := by
  constructor <;> simp [TaxDb.init]

theorem storeText_ne_empty {n : ℕ} {s t : String} (hn : 0 < n) (hs : s ≠ "") (h : storeText n s = .ok t) : t ≠ "" := by
  unfold storeText at h
  split_ifs at h with hlen hblank
  · cases h
    exact hs
  · cases h
    intro hempty
    have hlength : (s.toList.take n).length = 0 := by
      rw [← String.length_ofList, hempty]
      rfl
    rw [List.length_take, String.length_toList] at hlength
    omega

/-- a year that is stored stays stored -/
theorem taxYear_writeYear {row : TaxYear} (hlen : row.jurisdiction.length ≤ 2) {k : ℕ} (h : ∃ y, db.taxYear k = .ok y) :
    ∃ y, (db.writeYear row hlen).taxYear k = .ok y := by
  obtain ⟨y, hy⟩ := h
  obtain ⟨hmem, rfl⟩ := taxYear_ok.1 hy
  by_cases hk : y.pk = row.pk
  · exact ⟨row, taxYear_ok.2 ⟨Table.mem_write.2 (.inl rfl), hk.symm⟩⟩
  · exact ⟨y, taxYear_ok.2 ⟨Table.mem_write.2 (.inr ⟨hmem, hk⟩), rfl⟩⟩

theorem forall_mem_write {α : Type} {key : α → ℕ} {row : α} {rows : List α} {p : α → Prop} (hrow : p row)
    (h : ∀ r ∈ rows, p r) : ∀ r ∈ Table.write key row rows, p r := by
  intro r hr
  rcases Table.mem_write.1 hr with rfl | ⟨hr, -⟩
  · exact hrow
  · exact h r hr

theorem forall_mem_remove {α : Type} {key : α → ℕ} {k : ℕ} {rows : List α} {p : α → Prop} (h : ∀ r ∈ rows, p r) :
    ∀ r ∈ Table.remove key k rows, p r := fun r hr => h r (Table.mem_remove.1 hr).1

theorem RowsValid.related {k : ℕ} {y : TaxYear} (h : RowsValid db) (hy : db.relatedYear k cached = .ok y) :
    y.jurisdiction ≠ "" := by
  rcases (relatedYear_ok hy).2 with hy | hy
  · exact h.years y hy
  · exact h.loaded y hy

theorem rowsValid_step (hupper : UpperCase upper) {op : TaxOp} (h : RowsValid db) (hstep : db.step upper op = .ok db') :
    RowsValid db' := by
  cases step_write hstep with
  | @year d _ row hlen hrow =>
    have hstay : ∀ fields k, ItemValid db fields k → ItemValid (db.writeYear row hlen) fields k := fun _ _ hi =>
      ⟨hi.1, taxYear_writeYear hlen hi.2⟩
    have hjurisdiction : row.jurisdiction ≠ "" :=
      storeText_ne_empty (by decide) (hupper.nonempty _ hrow.nonempty) hrow.stored
    constructor
    case years => exact forall_mem_write hjurisdiction h.years
    case loaded =>
      intro y hy
      rcases List.mem_append.1 hy with hy | hy
      · exact h.loaded y hy
      · rw [List.mem_singleton.1 hy]
        exact hjurisdiction
    case deductions => exact fun i hi => hstay _ _ (h.deductions i hi)
    case allowances => exact fun i hi => hstay _ _ (h.allowances i hi)
    case adjustments => exact fun i hi => hstay _ _ (h.adjustments i hi)
    case rules =>
      intro r hr
      obtain ⟨hfields, hreq, hyear⟩ := h.rules r hr
      exact ⟨hfields, hreq, fun k hk => taxYear_writeYear hlen (hyear k hk)⟩
  | deduction hrow hfields hy _ _ =>
    refine { h with deductions := forall_mem_write ?_ h.deductions }
    exact ⟨by rw [hrow]; exact hfields, relatedYear_stored hy.year⟩
  | allowance hrow hfields hy _ =>
    refine { h with allowances := forall_mem_write ?_ h.allowances }
    exact ⟨by rw [hrow]; exact hfields, relatedYear_stored hy.year⟩
  | adjustment hrow hfields hy _ _ =>
    refine { h with adjustments := forall_mem_write ?_ h.adjustments }
    exact ⟨by rw [hrow]; exact hfields, relatedYear_stored hy.year⟩
  | @rule _ d _ r y hr _ =>
    refine { h with rules := forall_mem_write ⟨?_, ?_, ?_⟩ h.rules }
    · rw [hr.row]
      exact cleared_cleanFields hr.fields (h.related hr.year) ((relatedYear_length hr.year).trans (by decide))
    · rw [hr.row]
      exact cleared_required (d := { d with jurisdiction := y.jurisdiction }) hr.required
    · intro k hk
      have hyear := congrArg TaxRuleDraft.taxYear hr.row
      rw [cleared_taxYear] at hyear
      cases (hyear.trans hr.named).symm.trans hk
      exact relatedYear_stored hr.year
  | deleteDeduction _ _ => exact { h with deductions := forall_mem_remove h.deductions }
  | deleteAllowance _ _ => exact { h with allowances := forall_mem_remove h.allowances }
  | deleteAdjustment _ _ => exact { h with adjustments := forall_mem_remove h.adjustments }
  | deleteRule _ => exact { h with rules := forall_mem_remove h.rules }

/-! ## Dates -/

/-- every stored deduction and adjustment is dated inside its year -/
structure ItemsInside (db : TaxDb) : Prop where
  deductions : ∀ i ∈ db.tables.deductions, ∀ y, db.taxYear i.taxYear = .ok y → y.Contains i.date
  adjustments : ∀ i ∈ db.tables.adjustments, ∀ y, db.taxYear i.taxYear = .ok y → y.Contains i.date

/-- the deductions and adjustments that the summary of a stored year counts are dated inside it -/
structure CountedInside (db : TaxDb) : Prop where
  deductions : ∀ y ∈ db.years, ∀ i ∈ activeDeductions db.tables y, y.Contains i.date
  adjustments : ∀ y ∈ db.years, ∀ i ∈ activeAdjustments db.tables y, y.Contains i.date

/-- an archived item of the year is saved, and `archive_tax_item` does it for the owner of the year -/
structure Archives (db : TaxDb) (y : TaxYear) (kind : String) (pk : ℕ) (save : Except Error TaxDb) : Prop where
  save : ∃ db', save = .ok db'
  view : ∃ db', archiveTaxItem db y.owner y.pk kind pk = .ok (.redirect, db')

/-- every item of a year that is not filed can be archived -/
structure ArchiveAccepted (db : TaxDb) : Prop where
  deduction : ∀ y ∈ db.years, y.status ≠ .filed → ∀ i ∈ db.tables.deductions, i.taxYear = y.pk →
    Archives db y "deduction" i.pk (TaxDeductionDraft.save db none (TaxDeduction.draft { i with active := false }) i.pk)
  allowance : ∀ y ∈ db.years, y.status ≠ .filed → ∀ i ∈ db.tables.allowances, i.taxYear = y.pk →
    Archives db y "allowance" i.pk (TaxAllowanceDraft.save db none (TaxAllowance.draft { i with active := false }) i.pk)
  adjustment : ∀ y ∈ db.years, y.status ≠ .filed → ∀ i ∈ db.tables.adjustments, i.taxYear = y.pk →
    Archives db y "adjustment" i.pk (TaxAdjustmentDraft.save db none (TaxAdjustment.draft { i with active := false }) i.pk)
  rule : ∀ y ∈ db.years, y.status ≠ .filed → ∀ r ∈ db.tables.rules, r.taxYear = some y.pk →
    Archives db y "rule" r.pk (TaxRuleDraft.save db none (TaxRule.draft { r with active := false }) r.pk)

structure ItemsInPeriod (db : TaxDb) : Prop where
  inside : ItemsInside db
  counted : CountedInside db
  archive : ArchiveAccepted db

/-! ## Items that fit their year -/

/-- the dates of an item are in the year, and its owner is the year's unless the year is filed -/
def TaxYear.Fits (y : TaxYear) (owner : Option ℕ) (date : Option Date) : Prop :=
  (∀ x ∈ date, y.Contains x) ∧ (y.status ≠ .filed → owner = some y.owner)

instance (y : TaxYear) (owner : Option ℕ) (date : Option Date) : Decidable (y.Fits owner date) :=
  inferInstanceAs (Decidable (_ ∧ _))

/-- an item fits the year it names, as that is stored -/
def Placed (db : TaxDb) (taxYear owner : Option ℕ) (date : Option Date) : Prop :=
  ∀ k ∈ taxYear, ∀ y ∈ db.years, y.pk = k → y.Fits owner date

instance (db : TaxDb) (taxYear owner : Option ℕ) (date : Option Date) : Decidable (Placed db taxYear owner date) :=
  inferInstanceAs (Decidable (∀ k ∈ taxYear, ∀ y ∈ db.years, _))

structure ItemsFit (db : TaxDb) : Prop where
  deductions : ∀ i ∈ db.tables.deductions, Placed db (some i.taxYear) (some i.owner) (some i.date)
  allowances : ∀ i ∈ db.tables.allowances, Placed db (some i.taxYear) (some i.owner) none
  adjustments : ∀ i ∈ db.tables.adjustments, Placed db (some i.taxYear) (some i.owner) (some i.date)
  rules : ∀ r ∈ db.tables.rules, Placed db r.taxYear r.owner none

theorem Placed.fits {k : ℕ} {owner : Option ℕ} {date : Option Date} {y : TaxYear} (h : Placed db (some k) owner date)
    (hy : db.taxYear k = .ok y) : y.Fits owner date :=
  h k rfl y (taxYear_ok.1 hy).1 (taxYear_ok.1 hy).2

theorem ItemsFit.inside (h : ItemsFit db) : ItemsInside db := by
  refine ⟨fun i hi y hy => ?_, fun i hi y hy => ?_⟩
  · exact ((h.deductions i hi).fits hy).1 i.date rfl
  · exact ((h.adjustments i hi).fits hy).1 i.date rfl

theorem ItemsInside.counted (h : ItemsInside db) : CountedInside db := by
  refine ⟨?_, ?_⟩
  · intro y hy i hi
    rw [activeDeductions, mem_orderBy, List.mem_filter] at hi
    obtain ⟨hi, hcounts⟩ := hi
    obtain ⟨-, hk, -⟩ := of_decide_eq_true hcounts
    exact h.deductions i hi y (taxYear_ok.2 ⟨hy, hk.symm⟩)
  · intro y hy i hi
    rw [activeAdjustments, mem_orderBy, List.mem_filter] at hi
    obtain ⟨hi, hcounts⟩ := hi
    obtain ⟨-, hk, -⟩ := of_decide_eq_true hcounts
    exact h.adjustments i hi y (taxYear_ok.2 ⟨hy, hk.symm⟩)

/-- what `get_object_or_404` finds -/
theorem getObject_of_mem {α : Type} {rows : List α} {p : α → Bool} {a : α} (ha : a ∈ rows) (hp : p a = true) :
    ∃ b ∈ rows, getObject rows p = .ok b ∧ p b = true := by
  unfold getObject
  cases hf : rows.find? p with
  | none => exact absurd hp (List.find?_eq_none.1 hf a ha)
  | some b => exact ⟨b, List.mem_of_find?_eq_some hf, rfl, List.find?_some hf⟩

/-- the view, once the year is found and not filed -/
theorem archiveTaxItem_of {y : TaxYear} (hy : y ∈ db.years) (hs : y.status ≠ .filed) {kind : String} {model : ItemKind}
    (hmodel : itemModel kind = some model) {pk : ℕ} (h : archiveItem db y.owner y.pk model pk = .ok db') :
    archiveTaxItem db y.owner y.pk kind pk = .ok (.redirect, db') := by
  obtain ⟨z, hz, hfound, hp⟩ := getObject_of_mem (p := fun z : TaxYear => decide (z.pk = y.pk ∧ z.owner = y.owner)) hy
    (by simp)
  have hzy : z = y := List.inj_on_of_nodup_map db.years_nodup hz hy (of_decide_eq_true hp).1
  subst hzy
  simp only [archiveTaxItem, hfound, bind, Except.bind, if_neg hs, hmodel, h]

section Archive

variable {y : TaxYear} (nextval : ℕ) (hy : y ∈ db.years) (hs : y.status ≠ .filed)
include hy hs

theorem ItemsFit.save_deduction (h : ItemsFit db) (hrows : RowsValid db) {i : TaxDeduction}
    (hi : i ∈ db.tables.deductions) (hk : i.taxYear = y.pk) : i.owner = y.owner ∧
      ∃ db', TaxDeductionDraft.save db none (TaxDeduction.draft { i with active := false }) nextval = .ok db' := by
  have hstored : db.taxYear i.taxYear = .ok y := taxYear_ok.2 ⟨hy, hk.symm⟩
  obtain ⟨hdate, howner⟩ := (h.deductions i hi).fits hstored
  have howner := Option.some.inj (howner hs)
  exact ⟨howner, _, deductionSave_of (i := { i with active := false }) nextval (hrows.deductions i hi).1 hstored howner hs
    (hdate i.date rfl)⟩

theorem ItemsFit.save_allowance (h : ItemsFit db) (hrows : RowsValid db) {i : TaxAllowance}
    (hi : i ∈ db.tables.allowances) (hk : i.taxYear = y.pk) : i.owner = y.owner ∧
      ∃ db', TaxAllowanceDraft.save db none (TaxAllowance.draft { i with active := false }) nextval = .ok db' := by
  have hstored : db.taxYear i.taxYear = .ok y := taxYear_ok.2 ⟨hy, hk.symm⟩
  have howner := Option.some.inj (((h.allowances i hi).fits hstored).2 hs)
  exact ⟨howner, _, allowanceSave_of (i := { i with active := false }) nextval (hrows.allowances i hi).1 hstored howner hs⟩

theorem ItemsFit.save_adjustment (h : ItemsFit db) (hrows : RowsValid db) {i : TaxAdjustment}
    (hi : i ∈ db.tables.adjustments) (hk : i.taxYear = y.pk) : i.owner = y.owner ∧
      ∃ db', TaxAdjustmentDraft.save db none (TaxAdjustment.draft { i with active := false }) nextval = .ok db' := by
  have hstored : db.taxYear i.taxYear = .ok y := taxYear_ok.2 ⟨hy, hk.symm⟩
  obtain ⟨hdate, howner⟩ := (h.adjustments i hi).fits hstored
  have howner := Option.some.inj (howner hs)
  exact ⟨howner, _, adjustmentSave_of (i := { i with active := false }) nextval (hrows.adjustments i hi).1 hstored howner hs
    (hdate i.date rfl)⟩

theorem ItemsFit.save_rule (h : ItemsFit db) (hrows : RowsValid db) {r : TaxRule} (hr : r ∈ db.tables.rules)
    (hk : r.taxYear = some y.pk) : r.owner = some y.owner ∧
      ∃ db', TaxRuleDraft.save db none (TaxRule.draft { r with active := false }) nextval = .ok db' := by
  have hplaced := h.rules r hr
  rw [hk] at hplaced
  have hstored : db.taxYear y.pk = .ok y := taxYear_ok.2 ⟨hy, rfl⟩
  have howner := (hplaced.fits hstored).2 hs
  obtain ⟨hfields, hreq, -⟩ := hrows.rules r hr
  exact ⟨howner, ruleSave_of (r := { r with active := false }) nextval hfields hreq hstored hk howner hs⟩

end Archive

theorem ItemsFit.archive (h : ItemsFit db) (hrows : RowsValid db) : ArchiveAccepted db := by
  constructor
  case deduction =>
    intro y hy hs i hi hk
    obtain ⟨howner, hsave⟩ := h.save_deduction i.pk hy hs hrows hi hk
    obtain ⟨j, hj, hfound, hp⟩ := getObject_of_mem
      (p := fun j : TaxDeduction => decide (j.pk = i.pk ∧ j.owner = y.owner ∧ j.taxYear = y.pk)) hi (by simp [howner, hk])
    obtain ⟨-, -, hjy⟩ := of_decide_eq_true hp
    obtain ⟨-, db', hview⟩ := h.save_deduction i.pk hy hs hrows hj hjy
    exact ⟨hsave, db', archiveTaxItem_of hy hs rfl (bind_eq_ok.2 ⟨j, hfound, hview⟩)⟩
  case allowance =>
    intro y hy hs i hi hk
    obtain ⟨howner, hsave⟩ := h.save_allowance i.pk hy hs hrows hi hk
    obtain ⟨j, hj, hfound, hp⟩ := getObject_of_mem
      (p := fun j : TaxAllowance => decide (j.pk = i.pk ∧ j.owner = y.owner ∧ j.taxYear = y.pk)) hi (by simp [howner, hk])
    obtain ⟨-, -, hjy⟩ := of_decide_eq_true hp
    obtain ⟨-, db', hview⟩ := h.save_allowance i.pk hy hs hrows hj hjy
    exact ⟨hsave, db', archiveTaxItem_of hy hs rfl (bind_eq_ok.2 ⟨j, hfound, hview⟩)⟩
  case adjustment =>
    intro y hy hs i hi hk
    obtain ⟨howner, hsave⟩ := h.save_adjustment i.pk hy hs hrows hi hk
    obtain ⟨j, hj, hfound, hp⟩ := getObject_of_mem
      (p := fun j : TaxAdjustment => decide (j.pk = i.pk ∧ j.owner = y.owner ∧ j.taxYear = y.pk)) hi (by simp [howner, hk])
    obtain ⟨-, -, hjy⟩ := of_decide_eq_true hp
    obtain ⟨-, db', hview⟩ := h.save_adjustment i.pk hy hs hrows hj hjy
    exact ⟨hsave, db', archiveTaxItem_of hy hs rfl (bind_eq_ok.2 ⟨j, hfound, hview⟩)⟩
  case rule =>
    intro y hy hs r hr hk
    obtain ⟨howner, hsave⟩ := h.save_rule r.pk hy hs hrows hr hk
    obtain ⟨s, hs', hfound, hp⟩ := getObject_of_mem
      (p := fun s : TaxRule => decide (s.pk = r.pk ∧ s.owner = some y.owner ∧ s.taxYear = some y.pk)) hr
      (by simp [howner, hk])
    obtain ⟨-, -, hsy⟩ := of_decide_eq_true hp
    obtain ⟨-, db', hview⟩ := h.save_rule r.pk hy hs hrows hs' hsy
    exact ⟨hsave, db', archiveTaxItem_of hy hs rfl (bind_eq_ok.2 ⟨s, hfound, hview⟩)⟩

/-- a stored item that can be saved again is its year's owner's -/
theorem Admitted.owner_eq {i item : TaxYearItem} {y z : TaxYear} {active : Bool}
    (hrow : item.draft = { TaxYearItem.draft { i with active := active } with pk := some item.pk })
    (hz : Admitted db none item z) (hy : db.taxYear i.taxYear = .ok y) : i.owner = y.owner := by
  obtain ⟨howner, hyear, -⟩ := draft_eq hrow
  have hz' : db.taxYear i.taxYear = .ok z := Option.some.inj hyear ▸ hz.year
  cases hz'.symm.trans hy
  exact (Option.some.inj howner).trans hz.owner

/-- with valid rows, it all comes down to items that fit their year -/
theorem itemsInPeriod_iff (hrows : RowsValid db) : ItemsInPeriod db ↔ ItemsFit db := by
  refine ⟨fun h => ?_, fun h => ⟨h.inside, h.inside.counted, h.archive hrows⟩⟩
  obtain ⟨hinside, -, harchive⟩ := h
  constructor
  case deductions =>
    intro i hi k hk y hy hpk
    cases hk
    have hstored : db.taxYear i.taxYear = .ok y := taxYear_ok.2 ⟨hy, hpk⟩
    refine ⟨fun x hx => ?_, fun hs => ?_⟩
    · cases hx
      exact hinside.deductions i hi y hstored
    · obtain ⟨db', hsave⟩ := (harchive.deduction y hy hs i hi hpk.symm).save
      obtain ⟨row, hrow, -, ⟨z, hz, -⟩, -, -⟩ := deductionSave_ok hsave
      exact congrArg some (hz.owner_eq (congrArg TaxDeductionDraft.toItemDraft hrow) hstored)
  case allowances =>
    intro i hi k hk y hy hpk
    cases hk
    refine ⟨fun x hx => (nomatch hx), fun hs => ?_⟩
    obtain ⟨db', hsave⟩ := (harchive.allowance y hy hs i hi hpk.symm).save
    obtain ⟨row, hrow, -, ⟨z, hz⟩, -, -⟩ := allowanceSave_ok hsave
    exact congrArg some (hz.owner_eq (congrArg TaxAllowanceDraft.toItemDraft hrow) (taxYear_ok.2 ⟨hy, hpk⟩))
  case adjustments =>
    intro i hi k hk y hy hpk
    cases hk
    have hstored : db.taxYear i.taxYear = .ok y := taxYear_ok.2 ⟨hy, hpk⟩
    refine ⟨fun x hx => ?_, fun hs => ?_⟩
    · cases hx
      exact hinside.adjustments i hi y hstored
    · obtain ⟨db', hsave⟩ := (harchive.adjustment y hy hs i hi hpk.symm).save
      obtain ⟨row, hrow, -, ⟨z, hz, -⟩, -, -⟩ := adjustmentSave_ok hsave
      exact congrArg some (hz.owner_eq (congrArg TaxAdjustmentDraft.toItemDraft hrow) hstored)
  case rules =>
    intro r hr k hk y hy hpk
    cases hpk
    refine ⟨fun x hx => (nomatch hx), fun hs => ?_⟩
    obtain ⟨db', hsave⟩ := (harchive.rule y hy hs r hr hk).save
    obtain ⟨s, z, hz, -, -⟩ := ruleSave_ok hsave
    have hstored : db.taxYear z.pk = .ok z := hz.year
    have hkey : y.pk = z.pk := Option.some.inj (Eq.trans (Eq.symm hk) hz.named)
    rw [← hkey] at hstored
    cases hstored.symm.trans (taxYear_ok.2 ⟨hy, rfl⟩)
    exact hz.owner

/-! ## Runs -/

/-- the values given for a year, as `TaxYear.Fits` reads them of a row -/
def TaxYearDraft.Fits (d : TaxYearDraft) (owner : Option ℕ) (date : Option Date) : Prop :=
  (∀ x ∈ date, ∃ s ∈ d.startDate, ∃ e ∈ d.endDate, s ≤ x ∧ x ≤ e) ∧ (d.status ≠ .filed → owner = d.owner)

instance (d : TaxYearDraft) (owner : Option ℕ) (date : Option Date) : Decidable (d.Fits owner date) :=
  inferInstanceAs (Decidable (_ ∧ _))

/-- the save of a stored year fits the deductions, allowances, adjustments and rules that are stored for it; and an item
that is saved fits its year as it is stored, which is what `clean` asks of the year that the item has loaded -/
def KeepsItemDates (db : TaxDb) : TaxOp → Prop
  | .saveYear d _ =>
    (∀ i ∈ db.tables.deductions, d.pk = some i.taxYear → d.Fits (some i.owner) (some i.date)) ∧
      (∀ i ∈ db.tables.allowances, d.pk = some i.taxYear → d.Fits (some i.owner) none) ∧
      (∀ i ∈ db.tables.adjustments, d.pk = some i.taxYear → d.Fits (some i.owner) (some i.date)) ∧
      ∀ r ∈ db.tables.rules, ∀ k ∈ r.taxYear, d.pk = some k → d.Fits r.owner none
  | .saveDeduction _ d _ => Placed db d.taxYear d.owner d.date
  | .saveAllowance _ d _ => Placed db d.taxYear d.owner none
  | .saveAdjustment _ d _ => Placed db d.taxYear d.owner d.date
  | .saveRule _ d _ => Placed db d.taxYear d.owner none
  | _ => True

instance (db : TaxDb) (op : TaxOp) : Decidable (KeepsItemDates db op) := by
  cases op <;> (unfold KeepsItemDates; infer_instance)

theorem yearAdmitted_fits {d : TaxYearDraft} {row : TaxYear} (h : YearAdmitted upper db d row) (owner : Option ℕ)
    (date : Option Date) : d.Fits owner date ↔ row.Fits owner date := by
  have hs : some row.startDate = d.startDate := congrArg Tracked.startDate h.tracked
  have he : some row.endDate = d.endDate := congrArg Tracked.endDate h.tracked
  have hstatus : row.status = d.status := congrArg Tracked.status h.tracked
  simp [TaxYearDraft.Fits, TaxYear.Fits, TaxYear.Contains, ← hs, ← he, hstatus, h.owner]

/-- items of the written year against its new values, items of the others as before -/
theorem yearWrite_placed {d : TaxYearDraft} {row : TaxYear} (hlen : row.jurisdiction.length ≤ 2)
    (hrow : YearAdmitted upper db d row) {taxYear owner : Option ℕ} {date : Option Date}
    (hstored : ∀ k ∈ taxYear, ∃ y, db.taxYear k = .ok y) (hold : Placed db taxYear owner date) :
    Placed (db.writeYear row hlen) taxYear owner date ↔ ∀ k ∈ taxYear, d.pk = some k → d.Fits owner date := by
  refine forall₂_congr fun k hk => ?_
  rw [yearAdmitted_fits hrow]
  refine ⟨?_, ?_⟩
  · intro h hpk
    refine h row (Table.mem_write.2 (.inl rfl)) ?_
    rcases hrow.key with hrow | ⟨hnew, -⟩
    · exact Option.some.inj (hrow.symm.trans hpk)
    · rw [hnew] at hpk
      cases hpk
  · intro h y hy hyk
    rcases Table.mem_write.1 hy with rfl | ⟨hy, -⟩
    · obtain ⟨z, hz⟩ := hstored k hk
      obtain ⟨hz, hzk⟩ := taxYear_ok.1 hz
      refine h ?_
      rw [← hyk]
      exact hrow.key.stored hz (hzk.trans hyk.symm)
    · exact hold k hk y hy hyk

theorem forall_mem_write_iff {α : Type} {key : α → ℕ} {row : α} {rows : List α} {p : α → Prop} (h : ∀ r ∈ rows, p r) :
    (∀ r ∈ Table.write key row rows, p r) ↔ p row :=
  ⟨fun h => h row (Table.mem_write.2 (.inl rfl)), fun hrow => forall_mem_write hrow h⟩

/-- **One step.** From a store whose items fit their years, an accepted operation leads to such a store exactly when it
keeps the dates of the items. -/
theorem itemsFit_step {op : TaxOp} (hrows : RowsValid db) (h : ItemsFit db) (hstep : db.step upper op = .ok db') :
    ItemsFit db' ↔ KeepsItemDates db op := by
  cases step_write hstep with
  | @year d _ row hlen hrow =>
    have hitem : ∀ {fields : Errors} {k : ℕ} {owner : Option ℕ} {date : Option Date}, ItemValid db fields k →
        Placed db (some k) owner date →
          (Placed (db.writeYear row hlen) (some k) owner date ↔ (d.pk = some k → d.Fits owner date)) := by
      intro fields k owner date hvalid hplaced
      rw [yearWrite_placed hlen hrow (fun j hj => Option.some.inj hj ▸ hvalid.2) hplaced]
      simp
    have hd := fun i hi => hitem (hrows.deductions i hi) (h.deductions i hi)
    have ha := fun i hi => hitem (hrows.allowances i hi) (h.allowances i hi)
    have hj := fun i hi => hitem (hrows.adjustments i hi) (h.adjustments i hi)
    have hr := fun r hr => yearWrite_placed hlen hrow (hrows.rules r hr).2.2 (h.rules r hr)
    refine ⟨fun h' => ⟨?_, ?_, ?_, ?_⟩, fun hC => ?_⟩
    · exact fun i hi => (hd i hi).1 (h'.deductions i hi)
    · exact fun i hi => (ha i hi).1 (h'.allowances i hi)
    · exact fun i hi => (hj i hi).1 (h'.adjustments i hi)
    · exact fun r hmem => (hr r hmem).1 (h'.rules r hmem)
    · obtain ⟨hCd, hCa, hCj, hCr⟩ := hC
      constructor
      case deductions => exact fun i hi => (hd i hi).2 (hCd i hi)
      case allowances => exact fun i hi => (ha i hi).2 (hCa i hi)
      case adjustments => exact fun i hi => (hj i hi).2 (hCj i hi)
      case rules => exact fun r hmem => (hr r hmem).2 (hCr r hmem)
  | deduction hrow _ _ _ _ =>
    obtain ⟨howner, hyear, -⟩ := draft_eq (congrArg TaxDeductionDraft.toItemDraft hrow)
    have hdate : some _ = _ := congrArg TaxDeductionDraft.date hrow
    change _ ↔ Placed db _ _ _
    rw [howner, hyear, ← hdate]
    refine Iff.trans ⟨ItemsFit.deductions, fun hd => { h with deductions := hd }⟩ ?_
    exact forall_mem_write_iff h.deductions
  | allowance hrow _ _ _ =>
    obtain ⟨howner, hyear, -⟩ := draft_eq (congrArg TaxAllowanceDraft.toItemDraft hrow)
    change _ ↔ Placed db _ _ _
    rw [howner, hyear]
    refine Iff.trans ⟨ItemsFit.allowances, fun ha => { h with allowances := ha }⟩ ?_
    exact forall_mem_write_iff h.allowances
  | adjustment hrow _ _ _ _ =>
    obtain ⟨howner, hyear, -⟩ := draft_eq (congrArg TaxAdjustmentDraft.toItemDraft hrow)
    have hdate : some _ = _ := congrArg TaxAdjustmentDraft.date hrow
    change _ ↔ Placed db _ _ _
    rw [howner, hyear, ← hdate]
    refine Iff.trans ⟨ItemsFit.adjustments, fun ha => { h with adjustments := ha }⟩ ?_
    exact forall_mem_write_iff h.adjustments
  | @rule _ d _ r y hr _ =>
    have howner := congrArg TaxRuleDraft.owner hr.row
    have hyear := congrArg TaxRuleDraft.taxYear hr.row
    rw [cleared_taxYear] at hyear
    rw [cleared_owner] at howner
    change _ ↔ Placed db _ _ _
    have hrule : Placed db d.taxYear d.owner none ↔ Placed db r.taxYear r.owner none := by
      rw [show r.taxYear = d.taxYear from hyear, show r.owner = d.owner from howner]
    rw [hrule]
    refine Iff.trans ⟨ItemsFit.rules, fun hr => { h with rules := hr }⟩ ?_
    exact forall_mem_write_iff h.rules
  | deleteDeduction _ _ => exact iff_of_true { h with deductions := forall_mem_remove h.deductions } trivial
  | deleteAllowance _ _ => exact iff_of_true { h with allowances := forall_mem_remove h.allowances } trivial
  | deleteAdjustment _ _ => exact iff_of_true { h with adjustments := forall_mem_remove h.adjustments } trivial
  | deleteRule _ => exact iff_of_true { h with rules := forall_mem_remove h.rules } trivial

theorem itemsFit_init : ItemsFit TaxDb.init := by
  constructor <;> simp [TaxDb.init]

/-- **Items in their period, exactly.** Along a run from the empty store every stored deduction and adjustment is dated
inside its year, every counted one inside the year that counts it, and every item of a year that is not filed can be
archived, if and only if every accepted save of a year contains the dates of its items and keeps their owner (unless it
is filed), and every accepted save of an item fits the year as it is stored then. -/
theorem items_stay_in_period_iff (hupper : UpperCase upper) (ops : List TaxOp) :
    Throughout (TaxDb.step upper) ItemsInPeriod TaxDb.init ops ↔
      Guarded (TaxDb.step upper) KeepsItemDates TaxDb.init ops := by
  have hstart : ItemsInPeriod TaxDb.init := (itemsInPeriod_iff rowsValid_init).2 itemsFit_init
  refine throughout_iff (I := RowsValid) (fun s a s' => rowsValid_step hupper) ?_ ops rowsValid_init hstart
  intro s a s' hrows hs hstep
  rw [itemsInPeriod_iff (rowsValid_step hupper hrows hstep)]
  exact itemsFit_step hrows ((itemsInPeriod_iff hrows).1 hs) hstep

/-- a year, a deduction in it, and the year again with an owner and an end date -/
def yearSavedAgain (owner : ℕ) (endDate : Date) : List TaxOp :=
  [.saveYear (period none "2025" "DE" 0 364) 0, .saveDeduction none (donation none 0 10 100) 0,
    .saveYear { period (some 0) "2025" "DE" 0 endDate with owner := some owner } 0]

theorem items_stay_in_period_yearEnding :
    Throughout (TaxDb.step upperSharp) ItemsInPeriod TaxDb.init (yearSavedAgain 1 200) := by
  refine (items_stay_in_period_iff upperSharp_upperCase _).2 ?_
  rw [yearSavedAgain, guarded_cons, guarded_cons, guarded_cons]
  have hfirst : KeepsItemDates TaxDb.init (.saveYear (period none "2025" "DE" 0 364) 0) := by decide
  refine ⟨fun _ _ => hfirst, fun _ _ => ?_, fun _ _ => ?_, guarded_nil _⟩
  · decide +kernel
  · decide +kernel

/-- the deduction is left outside, or with another user than its year; and it can no longer be archived -/
theorem shortened_year :
    (¬Throughout (TaxDb.step upperSharp) ItemsInPeriod TaxDb.init (yearSavedAgain 1 50) ∧
      archiveTaxItem (run (TaxDb.step upperSharp) TaxDb.init (yearSavedAgain 1 50)) 1 0 "deduction" 0 =
        .error (.validation [("date", .text "Date must fall inside the tax year.")])) ∧
    ¬Throughout (TaxDb.step upperSharp) ItemsInPeriod TaxDb.init (yearSavedAgain 2 364) ∧
      TaxDeductionDraft.save (run (TaxDb.step upperSharp) TaxDb.init (yearSavedAgain 2 364)) none
          { donation (some 0) 0 10 100 with active := false } 0 =
        .error (.validation [("tax_year", .text "Tax year must belong to the same user.")]) := by
  have hfit : ∀ {ops : List TaxOp}, Throughout (TaxDb.step upperSharp) ItemsInPeriod TaxDb.init ops →
      ItemsFit (run (TaxDb.step upperSharp) TaxDb.init ops) := by
    intro ops hthroughout
    have hrows : RowsValid (run (TaxDb.step upperSharp) TaxDb.init ops) :=
      run_inv (fun _ => True) (fun _ _ _ h _ hstep => rowsValid_step upperSharp_upperCase h hstep) (fun _ _ => trivial)
        rowsValid_init
    exact (itemsInPeriod_iff hrows).1 (hthroughout ops (List.prefix_refl _))
  have hout : ∀ {ops : List TaxOp}, (∃ i ∈ (run (TaxDb.step upperSharp) TaxDb.init ops).tables.deductions,
      ¬Placed (run (TaxDb.step upperSharp) TaxDb.init ops) (some i.taxYear) (some i.owner) (some i.date)) →
        ¬Throughout (TaxDb.step upperSharp) ItemsInPeriod TaxDb.init ops := by
    intro ops h hthroughout
    obtain ⟨i, hi, hunfit⟩ := h
    exact hunfit ((hfit hthroughout).deductions i hi)
  refine ⟨⟨hout ?_, eq_error_of_check ?_⟩, hout ?_, eq_error_of_check ?_⟩ <;> decide +kernel

end Vault67.Tax
