/-
`tax/views.py` and `tax/forms.py`: the pages on which tax years, their items and their rules are edited.

A posted field is the value its field class makes of it, none when that fails. A field that fails keeps the value of the
instance. `_post_clean` runs the model's validation on the rest: an error on a field the form does not have raises a
ValueError. A valid form saves the instance, and `save` validates all of it again. A request loads the year it needs, so
that `self.tax_year` is the stored year; the user is signed in.

- `page_step`: a page that succeeds is one save of a model, of an item under the year it is stored with.
-/
import Mathlib.Tactic
import Vault67.Tax.FiledLock
import Vault67.Tax.ItemDates

namespace Vault67.Tax

open Fallible Machine

inductive PageError where
  /-- 404 -/
  | notFound
  /-- 403: the year is FILED -/
  | forbidden
  /-- the form is shown again -/
  | invalid
  /-- "has no field named ..." -/
  | valueError
  /-- an exception of `save` -/
  | raised (e : Error)
deriving DecidableEq, Repr

/-! ## Forms -/

/-- the names of the fields that fail -/
def failing (checks : List (Bool × String)) : List String := checks.filterMap fun c => if c.1 then some c.2 else none

/-- `is_valid` and `save` of a ModelForm: the fields of the form, those that fail, the errors of the model's fields, the
instance and the errors that its `clean` leaves, its constraints, and how it is saved -/
def formPage {α : Type} (fields failed : List String) (fieldErrors : Errors) (cleaned : Except Error (α × Errors))
    (constraints : α → Errors → Errors) (save : α → Except Error TaxDb) : Except PageError TaxDb := do
  let (d, own) ← cleaned.mapError .raised
  let errors := (fieldErrors.filter fun e => e.1 ∈ fields ∧ e.1 ∉ failed) ++ own
  let errors := errors ++ constraints d errors
  if ∃ e ∈ errors, e.1 ≠ nonField ∧ e.1 ∉ fields then .error .valueError
  else if failed = [] ∧ errors = [] then (save d).mapError .raised
  else .error .invalid

structure TaxYearData where
  name : Option String
  jurisdiction : Option String
  startDate : Option Date
  endDate : Option Date
  reportingCurrency : Option ℕ
  status : Option TaxYearStatus
  notes : String
deriving DecidableEq, Repr

structure TaxDeductionData where
  name : Option String
  category : Option TaxableCategory
  amount : Option ℚ
  currency : Option ℕ
  date : Option Date
  notes : String
  active : Bool
deriving DecidableEq, Repr

structure TaxAllowanceData where
  name : Option String
  category : Option TaxableCategory
  amount : Option ℚ
  currency : Option ℕ
  notes : String
  active : Bool
deriving DecidableEq, Repr

/-- a blank `applies_to` is `some none` -/
structure TaxAdjustmentData where
  category : Option TaxCategory
  appliesTo : Option (Option TaxableCategory)
  description : Option String
  amount : Option ℚ
  currency : Option ℕ
  date : Option Date
  notes : String
  active : Bool
deriving DecidableEq, Repr

/-- the raw `rule_type` of a submission -/
inductive PostedType where
  | blank
  | unknown
  | known (type : RuleType)
deriving DecidableEq, Repr

/-- an optional number -/
inductive PostedNumber where
  | blank
  | bad
  | value (x : ℚ)
deriving DecidableEq, Repr

/-- the metadata of a submission: not JSON, a value or no field at all, or JSON's null or an emptied field, which the form
turns to None -/
inductive PostedJson where
  | bad
  | value
  | null
deriving DecidableEq, Repr

structure TaxRuleData where
  name : Option String
  ruleType : PostedType
  category : Option TaxableCategory
  rate : PostedNumber
  threshold : PostedNumber
  fixedAmount : PostedNumber
  priority : Option ℕ
  metadata : PostedJson
  active : Bool
deriving DecidableEq, Repr

/-! ## Instances -/

def TaxYearData.failed (data : TaxYearData) : List String :=
  failing [(data.name = none, "name"), (data.jurisdiction = none, "jurisdiction"),
    (data.startDate = none, "start_date"), (data.endDate = none, "end_date"),
    (data.reportingCurrency = none, "reporting_currency"), (data.status = none, "status")]

/-- `clean_jurisdiction` turns to upper case -/
def TaxYearData.draft (upper : String → String) (user : ℕ) (stored : Option TaxYear) (data : TaxYearData) :
    TaxYearDraft where
  pk := stored.map TaxYear.pk
  owner := some user
  name := data.name.getD ((stored.map TaxYear.name).getD "")
  jurisdiction := (data.jurisdiction.map upper).getD ((stored.map TaxYear.jurisdiction).getD "")
  startDate := data.startDate <|> stored.map TaxYear.startDate
  endDate := data.endDate <|> stored.map TaxYear.endDate
  reportingCurrency := data.reportingCurrency <|> stored.map TaxYear.reportingCurrency
  status := data.status.getD ((stored.map TaxYear.status).getD .open)
  notes := data.notes

def yearFields : List String :=
  ["name", "jurisdiction", "start_date", "end_date", "reporting_currency", "status", "notes"]

def TaxDeductionData.failed (data : TaxDeductionData) : List String :=
  failing [(data.name = none, "name"), (data.category = none, "category"), (data.amount = none, "amount"),
    (data.currency = none, "currency"), (data.date = none, "date")]

def TaxDeductionData.draft (user taxYear : ℕ) (stored : Option TaxDeduction) (data : TaxDeductionData) :
    TaxDeductionDraft where
  pk := stored.map fun i => i.pk
  owner := some user
  taxYear := some taxYear
  active := data.active
  name := data.name.getD ((stored.map TaxDeduction.name).getD "")
  category := data.category.getD ((stored.map TaxDeduction.category).getD .overall)
  amount := data.amount.getD ((stored.map TaxDeduction.amount).getD 0)
  currency := data.currency.getD ((stored.map TaxDeduction.currency).getD 0)
  date := data.date <|> stored.map TaxDeduction.date
  notes := data.notes

def deductionFields : List String := ["name", "category", "amount", "currency", "date", "notes", "active"]

def TaxAllowanceData.failed (data : TaxAllowanceData) : List String :=
  failing [(data.name = none, "name"), (data.category = none, "category"), (data.amount = none, "amount"),
    (data.currency = none, "currency")]

def TaxAllowanceData.draft (user taxYear : ℕ) (stored : Option TaxAllowance) (data : TaxAllowanceData) :
    TaxAllowanceDraft where
  pk := stored.map fun i => i.pk
  owner := some user
  taxYear := some taxYear
  active := data.active
  name := data.name.getD ((stored.map TaxAllowance.name).getD "")
  category := data.category.getD ((stored.map TaxAllowance.category).getD .overall)
  amount := data.amount.getD ((stored.map TaxAllowance.amount).getD 0)
  currency := data.currency.getD ((stored.map TaxAllowance.currency).getD 0)
  notes := data.notes

def allowanceFields : List String := ["name", "category", "amount", "currency", "notes", "active"]

def TaxAdjustmentData.failed (data : TaxAdjustmentData) : List String :=
  failing [(data.category = none, "category"), (data.appliesTo = none, "applies_to"),
    (data.description = none, "description"), (data.amount = none, "amount"), (data.currency = none, "currency"),
    (data.date = none, "date")]

def TaxAdjustmentData.draft (user taxYear : ℕ) (stored : Option TaxAdjustment) (data : TaxAdjustmentData) :
    TaxAdjustmentDraft where
  pk := stored.map fun i => i.pk
  owner := some user
  taxYear := some taxYear
  active := data.active
  category := data.category.getD ((stored.map TaxAdjustment.category).getD .interest)
  appliesTo := data.appliesTo.getD (stored.bind TaxAdjustment.appliesTo)
  description := data.description.getD ((stored.map TaxAdjustment.description).getD "")
  amount := data.amount.getD ((stored.map TaxAdjustment.amount).getD 0)
  currency := data.currency.getD ((stored.map TaxAdjustment.currency).getD 0)
  date := data.date <|> stored.map TaxAdjustment.date
  notes := data.notes

def adjustmentFields : List String :=
  ["category", "applies_to", "description", "amount", "currency", "date", "notes", "active"]

/-- the amount a type uses -/
def relevant : RuleType → String
  | .flatRate => "rate"
  | .threshold => "threshold"
  | .allowance => "fixed_amount"
  | .deduction => "fixed_amount"

/-- the amounts the form asks for: a blank type counts as FLAT_RATE, an unknown one removes none -/
def PostedType.amounts : PostedType → List String
  | .blank => [relevant .flatRate]
  | .unknown => ["rate", "threshold", "fixed_amount"]
  | .known type => [relevant type]

def ruleFields (posted : PostedType) : List String :=
  ["name", "rule_type", "category"] ++ posted.amounts ++ ["priority", "metadata", "active"]

def PostedNumber.cleaned (number : PostedNumber) (stored : Option ℚ) : Option ℚ :=
  match number with
  | .blank => none
  | .bad => stored
  | .value x => some x

def TaxRuleData.failed (data : TaxRuleData) : List String :=
  failing [(data.name = none, "name"), (data.ruleType = .blank ∨ data.ruleType = .unknown, "rule_type"),
    (data.category = none, "category"), ("rate" ∈ data.ruleType.amounts ∧ data.rate = .bad, "rate"),
    ("threshold" ∈ data.ruleType.amounts ∧ data.threshold = .bad, "threshold"),
    ("fixed_amount" ∈ data.ruleType.amounts ∧ data.fixedAmount = .bad, "fixed_amount"),
    (data.priority = none, "priority"), (data.metadata = .bad, "metadata")]

/-- an amount the form does not ask for keeps the value of the instance; an instance without a type counts as FLAT_RATE,
whose amount the form then asks for -/
def TaxRuleData.draft (user taxYear : ℕ) (stored : Option TaxRule) (data : TaxRuleData) : TaxRuleDraft :=
  let amount (field : String) (posted : PostedNumber) (stored : Option ℚ) : Option ℚ :=
    if field ∈ data.ruleType.amounts then posted.cleaned stored else stored
  { pk := stored.map TaxRule.pk
    owner := some user
    taxYear := some taxYear
    jurisdiction := (stored.map TaxRule.jurisdiction).getD ""
    ruleType :=
      match data.ruleType with
      | .known type => type
      | _ => (stored.map TaxRule.ruleType).getD .flatRate
    category := data.category.getD ((stored.map TaxRule.category).getD .overall)
    name := data.name.getD ((stored.map TaxRule.name).getD "")
    rate := amount "rate" data.rate (stored.bind TaxRule.rate)
    threshold := amount "threshold" data.threshold (stored.bind TaxRule.threshold)
    fixedAmount := amount "fixed_amount" data.fixedAmount (stored.bind TaxRule.fixedAmount)
    priority := data.priority.getD ((stored.map TaxRule.priority).getD 100)
    active := data.active }

/-! ## Views -/

/-- an item page with a key updates that item -/
inductive TaxRequest where
  | createTaxYear (data : TaxYearData)
  | updateTaxYear (pk : ℕ) (data : TaxYearData)
  | deduction (taxYear : ℕ) (pk : Option ℕ) (data : TaxDeductionData)
  | allowance (taxYear : ℕ) (pk : Option ℕ) (data : TaxAllowanceData)
  | adjustment (taxYear : ℕ) (pk : Option ℕ) (data : TaxAdjustmentData)
  | rule (taxYear : ℕ) (pk : Option ℕ) (data : TaxRuleData)
  | archive (taxYear : ℕ) (kind : String) (pk : ℕ)

/-- `get_object_or_404(TaxYear, pk=pk, owner=request.user)`, and the check in front of every edit -/
def openYear (db : TaxDb) (user pk : ℕ) : Except PageError TaxYear := do
  let y ← (getObject db.years fun y => y.pk = pk ∧ y.owner = user).mapError fun _ => .notFound
  if y.status = .filed then .error .forbidden else .ok y

/-- the instance of a page: none on a page that creates -/
def getInstance {α : Type} (rows : List α) (pk : Option ℕ) (key : α → ℕ) (queryset : α → Bool) :
    Except PageError (Option α) :=
  match pk with
  | none => .ok none
  | some pk => ((getObject rows fun r => key r = pk ∧ queryset r).mapError fun _ => .notFound).map some

/-- `get_queryset` of `TaxItemUpdateView` -/
def TaxYearItem.editable (i : TaxYearItem) (user taxYear : ℕ) : Bool := i.owner = user ∧ i.taxYear = taxYear ∧ i.active

def TaxRule.editable (r : TaxRule) (user taxYear : ℕ) : Bool :=
  r.owner = some user ∧ r.taxYear = some taxYear ∧ r.active

/-- the form leaves `unique_named_tax_year` to `save`: it has no owner field -/
def yearPage (upper : String → String) (db : TaxDb) (user nextval : ℕ) (stored : Option TaxYear) (data : TaxYearData) :
    Except PageError TaxDb :=
  let d := data.draft upper user stored
  formPage yearFields data.failed d.cleanFields (.ok (d.clean upper db)) (fun _ _ => []) fun d => d.save upper db nextval

def deductionPage (db : TaxDb) (user nextval taxYear : ℕ) (stored : Option TaxDeduction) (data : TaxDeductionData) :
    Except PageError TaxDb :=
  let d := data.draft user taxYear stored
  formPage deductionFields data.failed d.cleanFields
    (d.toItemDraft.cleanDate db none d.date >>= fun own => .ok (d, own)) (fun _ _ => []) fun d => d.save db none nextval

def allowancePage (db : TaxDb) (user nextval taxYear : ℕ) (stored : Option TaxAllowance) (data : TaxAllowanceData) :
    Except PageError TaxDb :=
  let d := data.draft user taxYear stored
  formPage allowanceFields data.failed d.cleanFields
    (d.toItemDraft.clean db none >>= fun own => .ok (d, own)) (fun _ _ => []) fun d => d.save db none nextval

def adjustmentPage (db : TaxDb) (user nextval taxYear : ℕ) (stored : Option TaxAdjustment)
    (data : TaxAdjustmentData) : Except PageError TaxDb :=
  let d := data.draft user taxYear stored
  formPage adjustmentFields data.failed d.cleanFields
    (d.toItemDraft.cleanDate db none d.date >>= fun own => .ok (d, own)) (fun d _ => d.constraintErrors)
    fun d => d.save db none nextval

/-- the validation skips an empty `metadata`, whose column is not null -/
def rulePage (db : TaxDb) (user nextval taxYear : ℕ) (stored : Option TaxRule) (data : TaxRuleData) :
    Except PageError TaxDb :=
  let d := data.draft user taxYear stored
  formPage (ruleFields data.ruleType) data.failed d.cleanFields (d.clean db none) TaxRuleDraft.constraintErrors
    fun d => do
      let db' ← d.save db none nextval
      if data.metadata = .null then .error .database else .ok db'

/-- the answer of `archive_tax_item` -/
def archivePage (db : TaxDb) (user taxYear : ℕ) (kind : String) (pk : ℕ) : Except PageError TaxDb :=
  match archiveTaxItem db user taxYear kind pk with
  | .ok (.redirect, db') => .ok db'
  | .ok (.forbidden _, _) => .error .forbidden
  | .ok (.status404, _) => .error .notFound
  | .error .notFound => .error .notFound
  | .error e => .error (.raised e)

/-- the views; `nextval` is what the sequence of the table hands out -/
def page (upper : String → String) (db : TaxDb) (user nextval : ℕ) : TaxRequest → Except PageError TaxDb
  | .createTaxYear data => yearPage upper db user nextval none data
  | .updateTaxYear pk data => do
    let y ← openYear db user pk
    yearPage upper db user nextval (some y) data
  | .deduction taxYear pk data => do
    let y ← openYear db user taxYear
    let stored ← getInstance db.tables.deductions pk (fun i => i.pk) fun i => i.editable user y.pk
    deductionPage db user nextval y.pk stored data
  | .allowance taxYear pk data => do
    let y ← openYear db user taxYear
    let stored ← getInstance db.tables.allowances pk (fun i => i.pk) fun i => i.editable user y.pk
    allowancePage db user nextval y.pk stored data
  | .adjustment taxYear pk data => do
    let y ← openYear db user taxYear
    let stored ← getInstance db.tables.adjustments pk (fun i => i.pk) fun i => i.editable user y.pk
    adjustmentPage db user nextval y.pk stored data
  | .rule taxYear pk data => do
    let y ← openYear db user taxYear
    let stored ← getInstance db.tables.rules pk TaxRule.pk fun r => r.editable user y.pk
    rulePage db user nextval y.pk stored data
  | .archive taxYear kind pk => archivePage db user taxYear kind pk

/-! ## What a form does -/

/-- the form is valid, and d is its instance -/
structure FormValid {α : Type} (fields failed : List String) (fieldErrors : Errors)
    (cleaned : Except Error (α × Errors)) (constraints : α → Errors → Errors) (d : α) : Prop where
  failed : failed = []
  fields : ∀ e ∈ fieldErrors, e.1 ∉ fields
  cleaned : cleaned = .ok (d, [])
  constraints : constraints d [] = []

section Form

variable {α : Type} {fields failed : List String} {fieldErrors : Errors} {cleaned : Except Error (α × Errors)}
  {constraints : α → Errors → Errors} {save : α → Except Error TaxDb} {db db' : TaxDb}

theorem formPage_valid {d : α} (h : FormValid fields failed fieldErrors cleaned constraints d) :
    formPage fields failed fieldErrors cleaned constraints save = (save d).mapError .raised := by
  obtain ⟨rfl, hfields, rfl, hconstraints⟩ := h
  have hnone : (fieldErrors.filter fun e => e.1 ∈ fields ∧ e.1 ∉ ([] : List String)) = [] :=
    List.filter_eq_nil_iff.2 fun e he => by simp [hfields e he]
  simp only [formPage, Except.mapError, bind, Except.bind, hnone, hconstraints, List.append_nil]
  simp

/-- a form either reports an error, or is valid and saves -/
theorem formPage_cases (fields failed : List String) (fieldErrors : Errors) (cleaned : Except Error (α × Errors))
    (constraints : α → Errors → Errors) (save : α → Except Error TaxDb) :
    (∃ d, FormValid fields failed fieldErrors cleaned constraints d) ∨
      (∃ e, cleaned = .error e ∧
        formPage fields failed fieldErrors cleaned constraints save = .error (.raised e)) ∨
      formPage fields failed fieldErrors cleaned constraints save = .error .invalid ∨
      formPage fields failed fieldErrors cleaned constraints save = .error .valueError := by
  cases cleaned with
  | error e => exact .inr (.inl ⟨e, rfl, rfl⟩)
  | ok r =>
    obtain ⟨d, own⟩ := r
    simp only [formPage, Except.mapError, bind, Except.bind]
    split_ifs with hoff hvalid
    · exact .inr (.inr (.inr rfl))
    · obtain ⟨rfl, hnil⟩ := hvalid
      obtain ⟨hboth, hconstraints⟩ := List.append_eq_nil_iff.1 hnil
      obtain ⟨hfields, rfl⟩ := List.append_eq_nil_iff.1 hboth
      refine .inl ⟨d, rfl, fun e he hin => ?_, rfl, ?_⟩
      · exact List.filter_eq_nil_iff.1 hfields e he (by simpa using hin)
      · rwa [hboth] at hconstraints
    · exact .inr (.inr (.inl rfl))

/-- a form that succeeds saves the instance that its validation leaves -/
theorem formPage_ok (h : formPage fields failed fieldErrors cleaned constraints save = .ok db') :
    ∃ d, FormValid fields failed fieldErrors cleaned constraints d ∧ save d = .ok db' := by
  rcases formPage_cases fields failed fieldErrors cleaned constraints save with
    ⟨d, hd⟩ | ⟨e, -, he⟩ | he | he
  · rw [formPage_valid hd] at h
    exact ⟨d, hd, mapError_eq_ok.1 h⟩
  · rw [he] at h
    cases h
  · rw [he] at h
    cases h
  · rw [he] at h
    cases h

end Form

/-! ## What a page saves -/

/-- the rows of the table that an instance with this key replaces -/
def Replaces {α : Type} (key : α → ℕ) (rows : List α) (pk : Option ℕ) (p : α → Prop) : Prop :=
  ∀ r ∈ rows, pk = some (key r) → p r

/-- the instances that pages save: of the user's own rows, under the year they are stored with, and archived ones as
they are -/
inductive PageSave (db : TaxDb) (user : ℕ) : TaxOp → Prop
  | year {d : TaxYearDraft} {nextval : ℕ} (howner : d.owner = some user)
      (h : Replaces TaxYear.pk db.years d.pk fun y => y.owner = user ∧ y.status ≠ .filed) :
      PageSave db user (.saveYear d nextval)
  | deduction {d : TaxDeductionDraft} {nextval k : ℕ} (howner : d.owner = some user) (hyear : d.taxYear = some k)
      (h : Replaces (fun i : TaxDeduction => i.pk) db.tables.deductions d.pk fun i =>
        i.owner = user ∧ i.taxYear = k ∧ (i.active = false → d = i.draft)) :
      PageSave db user (.saveDeduction none d nextval)
  | allowance {d : TaxAllowanceDraft} {nextval k : ℕ} (howner : d.owner = some user) (hyear : d.taxYear = some k)
      (h : Replaces (fun i : TaxAllowance => i.pk) db.tables.allowances d.pk fun i =>
        i.owner = user ∧ i.taxYear = k ∧ (i.active = false → d = i.draft)) :
      PageSave db user (.saveAllowance none d nextval)
  | adjustment {d : TaxAdjustmentDraft} {nextval k : ℕ} (howner : d.owner = some user) (hyear : d.taxYear = some k)
      (h : Replaces (fun i : TaxAdjustment => i.pk) db.tables.adjustments d.pk fun i =>
        i.owner = user ∧ i.taxYear = k ∧ (i.active = false → d = i.draft)) :
      PageSave db user (.saveAdjustment none d nextval)
  | rule {d : TaxRuleDraft} {nextval k : ℕ} (howner : d.owner = some user) (hyear : d.taxYear = some k)
      (h : Replaces TaxRule.pk db.tables.rules d.pk fun r => r.owner = some user ∧ r.taxYear = some k ∧
        (r.active = false → d = r.draft)) :
      PageSave db user (.saveRule none d nextval)

/-- the primary keys of the items and rules -/
structure Keyed (db : TaxDb) : Prop where
  deductions : (db.tables.deductions.map fun i => i.pk).Nodup
  allowances : (db.tables.allowances.map fun i => i.pk).Nodup
  adjustments : (db.tables.adjustments.map fun i => i.pk).Nodup
  rules : (db.tables.rules.map TaxRule.pk).Nodup

variable {upper : String → String} {db db' : TaxDb} {user nextval : ℕ}

theorem keyed_init : Keyed TaxDb.init := by
  constructor <;> exact List.nodup_nil

theorem nodup_remove {α : Type} {key : α → ℕ} {k : ℕ} {rows : List α} (h : (rows.map key).Nodup) :
    ((Table.remove key k rows).map key).Nodup := h.sublist (List.filter_sublist.map key)

theorem keyed_step {op : TaxOp} (h : Keyed db) (hstep : db.step upper op = .ok db') : Keyed db' := by
  cases step_write hstep with
  | year _ _ => exact ⟨h.deductions, h.allowances, h.adjustments, h.rules⟩
  | deduction _ _ _ _ _ => exact { h with deductions := Table.nodup_write h.deductions }
  | allowance _ _ _ _ => exact { h with allowances := Table.nodup_write h.allowances }
  | adjustment _ _ _ _ _ => exact { h with adjustments := Table.nodup_write h.adjustments }
  | rule _ _ => exact { h with rules := Table.nodup_write h.rules }
  | deleteDeduction _ _ => exact { h with deductions := nodup_remove h.deductions }
  | deleteAllowance _ _ => exact { h with allowances := nodup_remove h.allowances }
  | deleteAdjustment _ _ => exact { h with adjustments := nodup_remove h.adjustments }
  | deleteRule _ => exact { h with rules := nodup_remove h.rules }

theorem getObject_ok {α : Type} {rows : List α} {p : α → Bool} {a : α} (h : getObject rows p = .ok a) :
    a ∈ rows ∧ p a = true := by
  unfold getObject at h
  split at h
  · next b hb =>
    cases h
    exact ⟨List.mem_of_find?_eq_some hb, List.find?_some hb⟩
  · cases h

theorem openYear_ok {pk : ℕ} {y : TaxYear} (h : openYear db user pk = .ok y) :
    y ∈ db.years ∧ y.pk = pk ∧ y.owner = user ∧ y.status ≠ .filed := by
  obtain ⟨z, hz, h⟩ := bind_eq_ok.1 h
  obtain ⟨hmem, hp⟩ := getObject_ok (mapError_eq_ok.1 hz)
  obtain ⟨hk, ho⟩ := of_decide_eq_true hp
  split_ifs at h with hs
  cases h
  exact ⟨hmem, hk, ho, hs⟩

/-- the row that the instance of a page replaces is the one that was loaded -/
theorem getInstance_ok {α : Type} {rows : List α} {pk : Option ℕ} {key : α → ℕ} {queryset : α → Bool}
    {stored : Option α} (hkeys : (rows.map key).Nodup) (h : getInstance rows pk key queryset = .ok stored) :
    Replaces key rows (stored.map key) fun r => queryset r = true ∧ stored = some r := by
  intro r hr hpk
  cases pk with
  | none =>
    cases h
    cases hpk
  | some k =>
    simp only [getInstance] at h
    cases hg : getObject rows fun r => key r = k ∧ queryset r with
    | error e =>
      rw [hg] at h
      cases h
    | ok a =>
      rw [hg] at h
      cases h
      obtain ⟨ha, hp⟩ := getObject_ok hg
      obtain rfl := List.inj_on_of_nodup_map hkeys ha hr (Option.some.inj hpk)
      exact ⟨(of_decide_eq_true hp).2, rfl⟩

theorem replaces_self {α : Type} {key : α → ℕ} {rows : List α} (hkeys : (rows.map key).Nodup) {a : α} (ha : a ∈ rows)
    {p : α → Prop} (hp : p a) : Replaces key rows (some (key a)) p := by
  intro r hr hk
  rwa [← List.inj_on_of_nodup_map hkeys ha hr (Option.some.inj hk)]

theorem yearPage_ok {stored : Option TaxYear} {data : TaxYearData}
    (hstored : ∀ y ∈ stored, y ∈ db.years ∧ y.owner = user ∧ y.status ≠ .filed)
    (h : yearPage upper db user nextval stored data = .ok db') :
    ∃ op, PageSave db user op ∧ db.step upper op = .ok db' := by
  dsimp only [yearPage] at h
  obtain ⟨d, hd, hsave⟩ := formPage_ok h
  obtain ⟨rfl, -⟩ := Prod.mk.inj (Except.ok.inj hd.cleaned)
  refine ⟨.saveYear _ nextval, .year rfl ?_, hsave⟩
  cases stored with
  | none => exact fun y _ hk => nomatch hk
  | some y =>
    obtain ⟨hy, ho, hs⟩ := hstored y rfl
    exact replaces_self db.years_nodup hy ⟨ho, hs⟩

/-- an archived item is found by `archive_tax_item` only -/
theorem editable_item {i : TaxYearItem} {taxYear : ℕ} {q : Prop} (h : i.editable user taxYear = true) :
    i.owner = user ∧ i.taxYear = taxYear ∧ (i.active = false → q) := by
  obtain ⟨ho, hy, ha⟩ := of_decide_eq_true h
  exact ⟨ho, hy, fun hf => by simp [ha] at hf⟩

theorem editable_rule {r : TaxRule} {taxYear : ℕ} {q : Prop} (h : r.editable user taxYear = true) :
    r.owner = some user ∧ r.taxYear = some taxYear ∧ (r.active = false → q) := by
  obtain ⟨ho, hy, ha⟩ := of_decide_eq_true h
  exact ⟨ho, hy, fun hf => by simp [ha] at hf⟩

theorem deductionPage_ok {taxYear : ℕ} {pk : Option ℕ} {stored : Option TaxDeduction} {data : TaxDeductionData}
    (hkeys : Keyed db)
    (hstored : getInstance db.tables.deductions pk (fun i => i.pk) (fun i => i.editable user taxYear) = .ok stored)
    (h : deductionPage db user nextval taxYear stored data = .ok db') :
    ∃ op, PageSave db user op ∧ db.step upper op = .ok db' := by
  dsimp only [deductionPage] at h
  obtain ⟨d, hd, hsave⟩ := formPage_ok h
  obtain ⟨own, -, hpair⟩ := bind_eq_ok.1 hd.cleaned
  cases hpair
  refine ⟨.saveDeduction none _ nextval, .deduction rfl rfl fun i hi hk => ?_, hsave⟩
  exact editable_item (getInstance_ok hkeys.deductions hstored i hi hk).1

theorem allowancePage_ok {taxYear : ℕ} {pk : Option ℕ} {stored : Option TaxAllowance} {data : TaxAllowanceData}
    (hkeys : Keyed db)
    (hstored : getInstance db.tables.allowances pk (fun i => i.pk) (fun i => i.editable user taxYear) = .ok stored)
    (h : allowancePage db user nextval taxYear stored data = .ok db') :
    ∃ op, PageSave db user op ∧ db.step upper op = .ok db' := by
  dsimp only [allowancePage] at h
  obtain ⟨d, hd, hsave⟩ := formPage_ok h
  obtain ⟨own, -, hpair⟩ := bind_eq_ok.1 hd.cleaned
  cases hpair
  refine ⟨.saveAllowance none _ nextval, .allowance rfl rfl fun i hi hk => ?_, hsave⟩
  exact editable_item (getInstance_ok hkeys.allowances hstored i hi hk).1

theorem adjustmentPage_ok {taxYear : ℕ} {pk : Option ℕ} {stored : Option TaxAdjustment} {data : TaxAdjustmentData}
    (hkeys : Keyed db)
    (hstored : getInstance db.tables.adjustments pk (fun i => i.pk) (fun i => i.editable user taxYear) = .ok stored)
    (h : adjustmentPage db user nextval taxYear stored data = .ok db') :
    ∃ op, PageSave db user op ∧ db.step upper op = .ok db' := by
  dsimp only [adjustmentPage] at h
  obtain ⟨d, hd, hsave⟩ := formPage_ok h
  obtain ⟨own, -, hpair⟩ := bind_eq_ok.1 hd.cleaned
  cases hpair
  refine ⟨.saveAdjustment none _ nextval, .adjustment rfl rfl fun i hi hk => ?_, hsave⟩
  exact editable_item (getInstance_ok hkeys.adjustments hstored i hi hk).1

/-- the rule that is saved is the cleaned one, with the key and the year of the instance -/
theorem rulePage_ok {taxYear : ℕ} {pk : Option ℕ} {stored : Option TaxRule} {data : TaxRuleData} (hkeys : Keyed db)
    (hstored : getInstance db.tables.rules pk TaxRule.pk (fun r => r.editable user taxYear) = .ok stored)
    (h : rulePage db user nextval taxYear stored data = .ok db') :
    ∃ op, PageSave db user op ∧ db.step upper op = .ok db' := by
  dsimp only [rulePage] at h
  obtain ⟨d, hd, hsave⟩ := formPage_ok h
  obtain ⟨y, -, hnamed, -, howner, -, rfl⟩ := ruleClean_ok hd.cleaned
  obtain ⟨_, hsave, hmetadata⟩ := bind_eq_ok.1 hsave
  obtain ⟨-, hsaved⟩ := ite_error_eq_ok.1 hmetadata
  cases hsaved
  refine ⟨.saveRule none _ nextval, .rule (k := taxYear) ?_ ?_ fun r hr hk => ?_, hsave⟩
  · rw [cleared_owner]
    rfl
  · rw [cleared_taxYear]
    rfl
  · rw [cleared_pk] at hk
    exact editable_rule (getInstance_ok hkeys.rules hstored r hr hk).1

theorem archivePage_redirect {taxYear pk : ℕ} {kind : String} (h : archivePage db user taxYear kind pk = .ok db') :
    ∃ (y : TaxYear) (model : ItemKind), archiveItem db user y.pk model pk = .ok db' := by
  have harchive : archiveTaxItem db user taxYear kind pk = .ok (.redirect, db') := by
    unfold archivePage at h
    split at h
    · cases h
      assumption
    · cases h
    · cases h
    · cases h
    · cases h
  obtain ⟨y, -, h⟩ := bind_eq_ok.1 harchive
  by_cases hs : y.status = .filed
  · rw [if_pos hs] at h
    cases h
  · rw [if_neg hs] at h
    split at h
    · cases h
    · next model _ =>
      obtain ⟨db'', h, hpair⟩ := bind_eq_ok.1 h
      cases hpair
      exact ⟨y, model, h⟩

/-- `archive_tax_item` finds archived items as well, and saves them as they are -/
theorem archivePage_ok {taxYear pk : ℕ} {kind : String} (hkeys : Keyed db)
    (h : archivePage db user taxYear kind pk = .ok db') :
    ∃ op, PageSave db user op ∧ db.step upper op = .ok db' := by
  obtain ⟨y, model, h⟩ := archivePage_redirect h
  cases model with
  | deduction =>
    obtain ⟨i, hi, hsave⟩ := bind_eq_ok.1 h
    obtain ⟨hmem, hp⟩ := getObject_ok hi
    obtain ⟨rfl, ho, hiy⟩ := of_decide_eq_true hp
    refine ⟨.saveDeduction none _ i.pk, .deduction (congrArg some ho) rfl ?_, hsave⟩
    refine replaces_self hkeys.deductions hmem ⟨ho, rfl, fun ha => ?_⟩
    rw [← ha]
  | allowance =>
    obtain ⟨i, hi, hsave⟩ := bind_eq_ok.1 h
    obtain ⟨hmem, hp⟩ := getObject_ok hi
    obtain ⟨rfl, ho, hiy⟩ := of_decide_eq_true hp
    refine ⟨.saveAllowance none _ i.pk, .allowance (congrArg some ho) rfl ?_, hsave⟩
    refine replaces_self hkeys.allowances hmem ⟨ho, rfl, fun ha => ?_⟩
    rw [← ha]
  | adjustment =>
    obtain ⟨i, hi, hsave⟩ := bind_eq_ok.1 h
    obtain ⟨hmem, hp⟩ := getObject_ok hi
    obtain ⟨rfl, ho, hiy⟩ := of_decide_eq_true hp
    refine ⟨.saveAdjustment none _ i.pk, .adjustment (congrArg some ho) rfl ?_, hsave⟩
    refine replaces_self hkeys.adjustments hmem ⟨ho, rfl, fun ha => ?_⟩
    rw [← ha]
  | rule =>
    obtain ⟨r, hr, hsave⟩ := bind_eq_ok.1 h
    obtain ⟨hmem, hp⟩ := getObject_ok hr
    obtain ⟨rfl, ho, hry⟩ := of_decide_eq_true hp
    refine ⟨.saveRule none _ r.pk, .rule ho hry ?_, hsave⟩
    refine replaces_self hkeys.rules hmem ⟨ho, hry, fun ha => ?_⟩
    rw [← ha]

/-- **A page is a save.** It saves a model, of the user's own row, under the year the row is stored with. -/
theorem page_step {req : TaxRequest} (hkeys : Keyed db) (h : page upper db user nextval req = .ok db') :
    ∃ op, PageSave db user op ∧ db.step upper op = .ok db' := by
  cases req with
  | createTaxYear data =>
    refine yearPage_ok (fun y hy => ?_) h
    cases hy
  | updateTaxYear pk data =>
    obtain ⟨y, hy, h⟩ := bind_eq_ok.1 h
    obtain ⟨hmem, -, ho, hs⟩ := openYear_ok hy
    refine yearPage_ok (fun z hz => ?_) h
    cases hz
    exact ⟨hmem, ho, hs⟩
  | deduction taxYear pk data =>
    obtain ⟨y, hy, h⟩ := bind_eq_ok.1 h
    obtain ⟨stored, hstored, h⟩ := bind_eq_ok.1 h
    exact deductionPage_ok hkeys hstored h
  | allowance taxYear pk data =>
    obtain ⟨y, hy, h⟩ := bind_eq_ok.1 h
    obtain ⟨stored, hstored, h⟩ := bind_eq_ok.1 h
    exact allowancePage_ok hkeys hstored h
  | adjustment taxYear pk data =>
    obtain ⟨y, hy, h⟩ := bind_eq_ok.1 h
    obtain ⟨stored, hstored, h⟩ := bind_eq_ok.1 h
    exact adjustmentPage_ok hkeys hstored h
  | rule taxYear pk data =>
    obtain ⟨y, hy, h⟩ := bind_eq_ok.1 h
    obtain ⟨stored, hstored, h⟩ := bind_eq_ok.1 h
    exact rulePage_ok hkeys hstored h
  | archive taxYear kind pk => exact archivePage_ok hkeys h

end Vault67.Tax
