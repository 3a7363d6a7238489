/-
What the tax pages keep, whatever pages any users request in any order.

- `Sound`: what every save and delete of a model keeps of the tables; `sound_run` from an empty database.
- `page_kept`: what one page leaves of the rows that are there.
- `pages_keep`: along a run of pages nothing that is filed changes, no row goes, moves to another year or changes its
  owner, and what is archived stays archived as it was.
- `pages_isolated`: pages of other users leave a user's rows as they are.
-/
import Mathlib.Tactic
import Vault67.Tax.Pages

namespace Vault67.Tax

open Fallible Machine

variable {upper : String → String} {db db' : TaxDb} {user nextval : ℕ}

/-! ## Stored rules -/

theorem cleared_with_pk (d : TaxRuleDraft) (pk : Option ℕ) :
    { d.cleared with pk := pk }.cleared = { d.cleared with pk := pk } := by
  unfold TaxRuleDraft.cleared
  cases d.ruleType <;> simp

theorem cleared_with_jurisdiction (d : TaxRuleDraft) (jurisdiction : String) :
    { d with jurisdiction := jurisdiction }.cleared = { d.cleared with jurisdiction := jurisdiction } := by
  unfold TaxRuleDraft.cleared
  cases d.ruleType <;> rfl

/-- what saves and deletes keep of the tables -/
structure Sound (db : TaxDb) : Prop where
  keyed : Keyed db
  rows : RowsValid db
  cleared : ∀ r ∈ db.tables.rules, r.draft.cleared = r.draft

theorem sound_init : Sound TaxDb.init := ⟨keyed_init, rowsValid_init, by simp [TaxDb.init]⟩

theorem sound_step (hupper : UpperCase upper) {op : TaxOp} (h : Sound db) (hstep : db.step upper op = .ok db') :
    Sound db' := by
  refine ⟨keyed_step h.keyed hstep, rowsValid_step hupper h.rows hstep, ?_⟩
  cases step_write hstep with
  | rule hr _ =>
    refine forall_mem_write ?_ h.cleared
    rw [hr.row]
    exact cleared_with_pk _ _
  | deleteRule _ => exact forall_mem_remove h.cleared
  | year _ _ => exact h.cleared
  | deduction _ _ _ _ _ => exact h.cleared
  | allowance _ _ _ _ => exact h.cleared
  | adjustment _ _ _ _ _ => exact h.cleared
  | deleteDeduction _ _ => exact h.cleared
  | deleteAllowance _ _ => exact h.cleared
  | deleteAdjustment _ _ => exact h.cleared

/-- whatever has been saved and deleted -/
theorem sound_run (hupper : UpperCase upper) (ops : List TaxOp) : Sound (run (TaxDb.step upper) TaxDb.init ops) :=
  run_inv (fun _ => True) (fun _ _ _ h _ hstep => sound_step hupper h hstep) (fun _ _ => trivial) sound_init

/-! ## Rows that stay -/

/-- every row is still there, as far as R says -/
def Retains {α : Type} (R : α → α → Prop) (rows rows' : List α) : Prop := ∀ r ∈ rows, ∃ r' ∈ rows', R r r'

/-- the row of an item later: of the same user and year, and just as it was when it is archived -/
structure ItemKept {α : Type} (item : α → TaxYearItem) (a a' : α) : Prop where
  pk : (item a').pk = (item a).pk
  owner : (item a').owner = (item a).owner
  taxYear : (item a').taxYear = (item a).taxYear
  archived : (item a).active = false → a' = a

/-- the jurisdiction of a rule is that of its year when it is saved -/
structure RuleKept (r r' : TaxRule) : Prop where
  pk : r'.pk = r.pk
  owner : r'.owner = r.owner
  taxYear : r'.taxYear = r.taxYear
  archived : r.active = false → r'.draft = { r.draft with jurisdiction := r'.jurisdiction }

structure YearKept (y y' : TaxYear) : Prop where
  pk : y'.pk = y.pk
  owner : y'.owner = y.owner
  filed : y.status = .filed → y' = y

/-- what is left of the rows of db in db' -/
structure Kept (db db' : TaxDb) : Prop where
  filed : KeepsFiled db db'
  years : Retains YearKept db.years db'.years
  deductions : Retains (ItemKept TaxDeduction.toTaxYearItem) db.tables.deductions db'.tables.deductions
  allowances : Retains (ItemKept TaxAllowance.toTaxYearItem) db.tables.allowances db'.tables.allowances
  adjustments : Retains (ItemKept TaxAdjustment.toTaxYearItem) db.tables.adjustments db'.tables.adjustments
  rules : Retains RuleKept db.tables.rules db'.tables.rules

section Retains

variable {α : Type} {R : α → α → Prop} {rows rows' rows'' : List α}

theorem Retains.refl (hrefl : ∀ a, R a a) (rows : List α) : Retains R rows rows := fun r hr => ⟨r, hr, hrefl r⟩

theorem Retains.trans (htrans : ∀ a b c, R a b → R b c → R a c) (h : Retains R rows rows') (h' : Retains R rows' rows'') :
    Retains R rows rows'' := by
  intro r hr
  obtain ⟨s, hs, hrs⟩ := h r hr
  obtain ⟨t, ht, hst⟩ := h' s hs
  exact ⟨t, ht, htrans r s t hrs hst⟩

theorem retains_write {key : α → ℕ} {row : α} (hrefl : ∀ a, R a a) (h : ∀ r ∈ rows, key r = key row → R r row) :
    Retains R rows (Table.write key row rows) := by
  intro r hr
  by_cases hk : key r = key row
  · exact ⟨row, Table.mem_write.2 (.inl rfl), h r hr hk⟩
  · exact ⟨r, Table.mem_write.2 (.inr ⟨hr, hk⟩), hrefl r⟩

end Retains

theorem ItemKept.refl {α : Type} (item : α → TaxYearItem) (a : α) : ItemKept item a a := ⟨rfl, rfl, rfl, fun _ => rfl⟩

theorem ItemKept.trans {α : Type} (item : α → TaxYearItem) (a b c : α) (h : ItemKept item a b) (h' : ItemKept item b c) :
    ItemKept item a c := by
  refine ⟨h'.pk.trans h.pk, h'.owner.trans h.owner, h'.taxYear.trans h.taxYear, fun ha => ?_⟩
  obtain rfl := h.archived ha
  exact h'.archived ha

theorem RuleKept.refl (r : TaxRule) : RuleKept r r := ⟨rfl, rfl, rfl, fun _ => rfl⟩

theorem RuleKept.trans (r s t : TaxRule) (h : RuleKept r s) (h' : RuleKept s t) : RuleKept r t := by
  refine ⟨h'.pk.trans h.pk, h'.owner.trans h.owner, h'.taxYear.trans h.taxYear, fun hr => ?_⟩
  have hs : s.active = false := (congrArg TaxRuleDraft.active (h.archived hr)).trans hr
  rw [h'.archived hs, h.archived hr]

theorem YearKept.refl (y : TaxYear) : YearKept y y := ⟨rfl, rfl, fun _ => rfl⟩

theorem YearKept.trans (x y z : TaxYear) (h : YearKept x y) (h' : YearKept y z) : YearKept x z := by
  refine ⟨h'.pk.trans h.pk, h'.owner.trans h.owner, fun hx => ?_⟩
  obtain rfl := h.filed hx
  exact h'.filed hx

theorem Kept.refl (db : TaxDb) : Kept db db :=
  ⟨KeepsFiled.refl db, Retains.refl YearKept.refl _, Retains.refl (ItemKept.refl _) _, Retains.refl (ItemKept.refl _) _,
    Retains.refl (ItemKept.refl _) _, Retains.refl RuleKept.refl _⟩

theorem Kept.trans (db₁ db₂ db₃ : TaxDb) (h : Kept db₁ db₂) (h' : Kept db₂ db₃) : Kept db₁ db₃ :=
  ⟨h.filed.trans h'.filed, h.years.trans YearKept.trans h'.years, h.deductions.trans (ItemKept.trans _) h'.deductions,
    h.allowances.trans (ItemKept.trans _) h'.allowances, h.adjustments.trans (ItemKept.trans _) h'.adjustments,
    h.rules.trans RuleKept.trans h'.rules⟩

/-! ## One page -/

theorem Replaces.of_key {α : Type} {key : α → ℕ} {rows : List α} {pk : Option ℕ} {p : α → Prop} {k : ℕ}
    (h : Replaces key rows pk p) (hkey : KeyOf key rows pk k) {r : α} (hr : r ∈ rows) (hk : key r = k) : p r := by
  refine h r hr ?_
  rw [hk]
  exact hkey.stored hr hk

/-- an item that names its own year, as it is stored, sees whether that is filed -/
theorem Replaces.seesLock {α : Type} {key : α → ℕ} {year : α → Option ℕ} {rows : List α} {pk : Option ℕ} {k : ℕ}
    {same : α → Prop} (h : Replaces key rows pk fun r => year r = some k) :
    SaveSeesLock db none key year rows pk (some k) same := by
  intro y hfiled hconcerns
  have hy : k = y := by
    rcases hconcerns with hy | ⟨r, hr, hk, hy⟩
    · exact Option.some.inj hy
    · exact Option.some.inj ((h r hr hk).symm.trans hy)
  subst hy
  exact .inl ⟨rfl, seesFiled_none.2 hfiled⟩

/-- pages name the year that the row is stored with, and load it for the request -/
theorem pageSave_seesLock {op : TaxOp} (h : PageSave db user op) : SeesLock db op := by
  cases h with
  | year _ _ => trivial
  | deduction _ hyear h =>
    rw [SeesLock, hyear]
    exact Replaces.seesLock fun i hi hk => congrArg some (h i hi hk).2.1
  | allowance _ hyear h =>
    rw [SeesLock, hyear]
    exact Replaces.seesLock fun i hi hk => congrArg some (h i hi hk).2.1
  | adjustment _ hyear h =>
    rw [SeesLock, hyear]
    exact Replaces.seesLock fun i hi hk => congrArg some (h i hi hk).2.1
  | rule _ hyear h =>
    rw [SeesLock, hyear]
    exact Replaces.seesLock fun r hr hk => (h r hr hk).2.1

/-- the row that replaces an item: its user and its year are those of the instance, and so those of the item -/
theorem itemKept_of {α : Type} {item : α → TaxYearItem} {a row : α} {d : ItemDraft} {taxYear : ℕ}
    (hrow : (item row).draft = { d with pk := some (item row).pk }) (howner : d.owner = some user)
    (hyear : d.taxYear = some taxYear) (hk : (item a).pk = (item row).pk) (ho : (item a).owner = user)
    (hy : (item a).taxYear = taxYear) (harchived : (item a).active = false → row = a) : ItemKept item a row := by
  obtain ⟨hro, hry, -⟩ := draft_eq hrow
  refine ⟨hk.symm, ?_, ?_, harchived⟩
  · rw [ho]
    exact Option.some.inj (hro.symm.trans howner)
  · rw [hy]
    exact Option.some.inj (hry.symm.trans hyear)

theorem kept_of_save (hsound : Sound db) {op : TaxOp} (hop : PageSave db user op) (h : db.step upper op = .ok db') :
    Kept db db' := by
  have hfiled : KeepsFiled db db' := (keepsFiled_iff h).2 (pageSave_seesLock hop)
  have hwrite := step_write h
  cases hop with
  | year howner hreplaces =>
    cases hwrite with
    | year hlen hrow =>
      refine { Kept.refl db with filed := hfiled, years := retains_write YearKept.refl fun y hy hk => ?_ }
      obtain ⟨ho, hs⟩ := hreplaces.of_key hrow.key hy hk
      refine ⟨hk.symm, ?_, fun h => absurd h hs⟩
      rw [ho]
      exact Option.some.inj (hrow.owner.symm.trans howner)
  | deduction howner hyear hreplaces =>
    cases hwrite with
    | deduction hrow _ _ _ hkey =>
      refine { Kept.refl db with filed := hfiled, deductions := retains_write (ItemKept.refl _) fun i hi hk => ?_ }
      obtain ⟨ho, hy, harchived⟩ := hreplaces.of_key hkey hi hk
      refine itemKept_of (congrArg TaxDeductionDraft.toItemDraft hrow) howner hyear hk ho hy fun ha => ?_
      rw [harchived ha, ← hk] at hrow
      exact deductionDraft_inj hrow
  | allowance howner hyear hreplaces =>
    cases hwrite with
    | allowance hrow _ _ hkey =>
      refine { Kept.refl db with filed := hfiled, allowances := retains_write (ItemKept.refl _) fun i hi hk => ?_ }
      obtain ⟨ho, hy, harchived⟩ := hreplaces.of_key hkey hi hk
      refine itemKept_of (congrArg TaxAllowanceDraft.toItemDraft hrow) howner hyear hk ho hy fun ha => ?_
      rw [harchived ha, ← hk] at hrow
      exact allowanceDraft_inj hrow
  | adjustment howner hyear hreplaces =>
    cases hwrite with
    | adjustment hrow _ _ _ hkey =>
      refine { Kept.refl db with filed := hfiled, adjustments := retains_write (ItemKept.refl _) fun i hi hk => ?_ }
      obtain ⟨ho, hy, harchived⟩ := hreplaces.of_key hkey hi hk
      refine itemKept_of (congrArg TaxAdjustmentDraft.toItemDraft hrow) howner hyear hk ho hy fun ha => ?_
      rw [harchived ha, ← hk] at hrow
      exact adjustmentDraft_inj hrow
  | @rule d _ k howner hyear hreplaces =>
    cases hwrite with
    | @rule _ _ _ row y hrow hkey =>
      refine { Kept.refl db with filed := hfiled, rules := retains_write RuleKept.refl fun r hr hk => ?_ }
      obtain ⟨ho, hy, harchived⟩ := hreplaces.of_key hkey hr hk
      have hdraft := hrow.row
      refine ⟨hk.symm, ?_, ?_, fun ha => ?_⟩
      · have h := congrArg TaxRuleDraft.owner hdraft
        rw [cleared_owner] at h
        rw [ho]
        exact h.trans howner
      · have h := congrArg TaxRuleDraft.taxYear hdraft
        rw [cleared_taxYear] at h
        rw [hy]
        exact h.trans hyear
      · rw [harchived ha, cleared_with_jurisdiction, hsound.cleared r hr, ← hk] at hdraft
        have hj := congrArg TaxRuleDraft.jurisdiction hdraft
        rw [hdraft]
        exact congrArg (fun j => { r.draft with jurisdiction := j }) hj.symm

/-- **One page.** Whatever a user posts to it, an accepted page keeps the years, items and rules that are there. -/
theorem page_kept {req : TaxRequest} (hsound : Sound db) (h : page upper db user nextval req = .ok db') : Kept db db' := by
  obtain ⟨op, hop, hstep⟩ := page_step hsound.keyed h
  exact kept_of_save hsound hop hstep

/-! ## Runs -/

/-- a page that a user requests, and the next key of its table -/
structure PageCall where
  user : ℕ
  nextval : ℕ
  request : TaxRequest

def TaxDb.serve (upper : String → String) (db : TaxDb) (call : PageCall) : Except PageError TaxDb :=
  page upper db call.user call.nextval call.request

theorem sound_serve (hupper : UpperCase upper) (db : TaxDb) (call : PageCall) (db' : TaxDb) (h : Sound db)
    (hstep : db.serve upper call = .ok db') : Sound db' := by
  obtain ⟨op, -, hop⟩ := page_step h.keyed hstep
  exact sound_step hupper h hop

/-- **What pages keep.** After any saves and deletions and any pages, further pages of any users leave every year, item and
rule with its user and its year, and what is filed or archived just as it is. -/
theorem pages_keep (hupper : UpperCase upper) (ops : List TaxOp) (pre mid : List PageCall) :
    Kept (run (TaxDb.serve upper) (run (TaxDb.step upper) TaxDb.init ops) pre)
      (run (TaxDb.serve upper) (run (TaxDb.step upper) TaxDb.init ops) (pre ++ mid)) := by
  have hsound : Sound (run (TaxDb.serve upper) (run (TaxDb.step upper) TaxDb.init ops) pre) :=
    run_inv (fun _ => True) (fun _ _ _ h _ hstep => sound_serve hupper _ _ _ h hstep) (fun _ _ => trivial)
      (sound_run hupper ops)
  rw [run_append]
  exact run_related Kept.refl Kept.trans (sound_serve hupper) (fun _ _ _ hs hstep => page_kept hs hstep) hsound mid

/-- the form of a deduction of the open year -/
def books (amount : ℚ) : TaxDeductionData := ⟨some "Books", some .interest, some amount, some 0, some 400, "", true⟩

/-- the deduction of the open year is edited and archived; the filed one is asked to be archived -/
def editCalls : List PageCall :=
  [⟨1, 0, .deduction 1 (some 1) (books 25)⟩, ⟨1, 0, .archive 1 "deduction" 1⟩, ⟨1, 0, .archive 0 "deduction" 0⟩]

theorem pages_keep_filedDeduction :
    let db := run (TaxDb.step id) TaxDb.init filedWithDeduction
    let pre : List PageCall := [⟨1, 1, .deduction 1 none (books 20)⟩]
    Kept (run (TaxDb.serve id) db pre) (run (TaxDb.serve id) db (pre ++ editCalls)) ∧
      (run (TaxDb.serve id) db (pre ++ editCalls)).tables.deductions.map (fun i => (i.amount, i.active)) =
        [(10, true), (25, false)] :=
  ⟨pages_keep ⟨fun _ => rfl, fun _ h => h⟩ filedWithDeduction [⟨1, 1, .deduction 1 none (books 20)⟩] editCalls,
    by decide +kernel⟩

/-! ## Users -/

/-- the rows of one user -/
structure OwnRows where
  years : List TaxYear
  deductions : List TaxDeduction
  allowances : List TaxAllowance
  adjustments : List TaxAdjustment
  rules : List TaxRule

def TaxDb.own (db : TaxDb) (owner : ℕ) : OwnRows where
  years := db.years.filter fun y => y.owner = owner
  deductions := db.tables.deductions.filter fun i => i.owner = owner
  allowances := db.tables.allowances.filter fun i => i.owner = owner
  adjustments := db.tables.adjustments.filter fun i => i.owner = owner
  rules := db.tables.rules.filter fun r => r.owner = some owner

/-- a row that the user saves, over none or over one of their own -/
theorem filter_write_other {α : Type} {key : α → ℕ} {rows : List α} {row : α} {pk : Option ℕ} {p q : α → Prop}
    [DecidablePred p] (hkey : KeyOf key rows pk (key row)) (hreplaces : Replaces key rows pk q) (hrow : ¬p row)
    (hq : ∀ r, q r → ¬p r) :
    ((Table.write key row rows).filter fun r => p r) = rows.filter fun r => p r :=
  Table.filter_write (decide_eq_false hrow) fun r hr hk => decide_eq_false (hq r (hreplaces.of_key hkey hr hk))

theorem own_of_save {op : TaxOp} (hop : PageSave db user op) (h : db.step upper op = .ok db') {owner : ℕ}
    (hne : owner ≠ user) : db'.own owner = db.own owner := by
  have hwrite := step_write h
  have hsome : ∀ {o : ℕ}, o = user → ¬o = owner := fun ho hown => hne (hown.symm.trans ho)
  cases hop with
  | year howner hreplaces =>
    cases hwrite with
    | year hlen hrow =>
      have hro := hsome (Option.some.inj (hrow.owner.symm.trans howner))
      simp only [TaxDb.own, TaxDb.writeYear]
      rw [filter_write_other hrow.key hreplaces hro fun y hy => hsome hy.1]
  | deduction howner _ hreplaces =>
    cases hwrite with
    | deduction hrow _ _ _ hkey =>
      have hro := (draft_eq (congrArg TaxDeductionDraft.toItemDraft hrow)).1
      simp only [TaxDb.own, TaxDb.writeDeduction]
      rw [filter_write_other hkey hreplaces (hsome (Option.some.inj (hro.symm.trans howner))) fun i hi => hsome hi.1]
  | allowance howner _ hreplaces =>
    cases hwrite with
    | allowance hrow _ _ hkey =>
      have hro := (draft_eq (congrArg TaxAllowanceDraft.toItemDraft hrow)).1
      simp only [TaxDb.own, TaxDb.writeAllowance]
      rw [filter_write_other hkey hreplaces (hsome (Option.some.inj (hro.symm.trans howner))) fun i hi => hsome hi.1]
  | adjustment howner _ hreplaces =>
    cases hwrite with
    | adjustment hrow _ _ _ hkey =>
      have hro := (draft_eq (congrArg TaxAdjustmentDraft.toItemDraft hrow)).1
      simp only [TaxDb.own, TaxDb.writeAdjustment]
      rw [filter_write_other hkey hreplaces (hsome (Option.some.inj (hro.symm.trans howner))) fun i hi => hsome hi.1]
  | rule howner _ hreplaces =>
    cases hwrite with
    | rule hrow hkey =>
      have hro := congrArg TaxRuleDraft.owner hrow.row
      rw [cleared_owner] at hro
      have hrule : ∀ {o : Option ℕ}, o = some user → ¬o = some owner := fun ho hown =>
        hne (Option.some.inj (hown.symm.trans ho))
      simp only [TaxDb.own, TaxDb.writeRule]
      rw [filter_write_other hkey hreplaces (hrule (hro.trans howner)) fun r hr => hrule hr.1]

/-- **Other users.** Whatever pages others request, accepted or refused, the years, items and rules of a user stay as they
are. -/
theorem pages_isolated (hupper : UpperCase upper) (ops : List TaxOp) (owner : ℕ) (calls : List PageCall)
    (hothers : ∀ call ∈ calls, call.user ≠ owner) :
    (run (TaxDb.serve upper) (run (TaxDb.step upper) TaxDb.init ops) calls).own owner =
      (run (TaxDb.step upper) TaxDb.init ops).own owner := by
  refine (run_inv (I := fun db => Sound db ∧ db.own owner = (run (TaxDb.step upper) TaxDb.init ops).own owner)
    (fun call => call.user ≠ owner) ?_ hothers ⟨sound_run hupper ops, rfl⟩).2
  intro db call db' h hne hstep
  obtain ⟨op, hop, hop'⟩ := page_step h.1.keyed hstep
  exact ⟨sound_step hupper h.1 hop', (own_of_save hop hop' hne.symm).trans h.2⟩

/-- another user opens a year with a deduction, and asks for the one of user 1 -/
def otherCalls : List PageCall :=
  [⟨2, 2, .createTaxYear ⟨some "2026", some "DE", some 365, some 729, some 0, some .open, ""⟩⟩,
    ⟨2, 1, .deduction 2 none (books 20)⟩, ⟨2, 0, .archive 0 "deduction" 0⟩]

theorem pages_isolated_archive :
    let db := run (TaxDb.step id) TaxDb.init filedWithDeduction
    (run (TaxDb.serve id) db otherCalls).own 1 = db.own 1 ∧
      (run (TaxDb.serve id) db otherCalls).tables.deductions.map (fun i => (i.owner, i.taxYear, i.amount)) =
        [(1, 0, 10), (2, 2, 20)] :=
  ⟨pages_isolated ⟨fun _ => rfl, fun _ h => h⟩ filedWithDeduction 1 otherCalls (by decide), by decide +kernel⟩

end Vault67.Tax
