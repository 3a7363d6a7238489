/-
`tax/models.py`: saving and deleting tax years, their manual items and their rules.

A draft is an instance in memory that is about to be saved: a field the validation allows for being blank is an
`Option`. `save` runs `full_clean` (the field validators, then `clean`, then the constraints) and writes the row. A key
n stands for the id n + 1, so that an id that is there is never falsy; `nextval` is what the sequence of the table hands
out for a row without a key.

`self.tax_year` is an instance of the year, and Django caches it: an item that was loaded, or given its year, before the
year was edited still has the year as it was then. `loaded` are the instances of tax years that are in memory, and
`cached` says which of them an item has, if any; an item that has none loads the stored year when it first needs it.

`upper` is `str.upper`.

- `clean` of a year compares it with the stored years; `clean` and `delete` of an item look at `self.tax_year`
  (`relatedYear`).
- `step`: every save and delete, as one machine.
-/
import Mathlib.Tactic
import Vault67.Core.Money
import Vault67.Lib.Table
import Vault67.Lib.Fallible
import Vault67.Tax.Models

namespace Vault67.Tax

/-- the tables of `tax/models.py`, with what the database itself guarantees of the tax years, and the instances of tax
years in memory, each as it was stored when it was loaded; no year is ever deleted -/
structure TaxDb where
  years : List TaxYear
  loaded : List TaxYear
  tables : TaxTables
  /-- the primary key -/
  years_nodup : (years.map TaxYear.pk).Nodup
  /-- a varchar(2) column -/
  jurisdiction_length : ∀ y ∈ years, y.jurisdiction.length ≤ 2
  loaded_length : ∀ y ∈ loaded, y.jurisdiction.length ≤ 2
  loaded_stored : ∀ y ∈ loaded, ∃ z ∈ years, z.pk = y.pk

namespace TaxDb

def init : TaxDb := ⟨[], [], ⟨[], [], [], []⟩, List.nodup_nil, by simp, by simp, by simp⟩

/-- the row can be loaded from now on, and what was loaded before stays in memory -/
def writeYear (db : TaxDb) (row : TaxYear) (h : row.jurisdiction.length ≤ 2) : TaxDb where
  years := Table.write TaxYear.pk row db.years
  loaded := db.loaded ++ [row]
  tables := db.tables
  years_nodup := Table.nodup_write db.years_nodup
  jurisdiction_length := by
    intro y hy
    rcases Table.mem_write.1 hy with rfl | ⟨hy, -⟩
    · exact h
    · exact db.jurisdiction_length y hy
  loaded_length := by
    intro y hy
    rcases List.mem_append.1 hy with hy | hy
    · exact db.loaded_length y hy
    · rw [List.mem_singleton.1 hy]
      exact h
  loaded_stored := by
    intro y hy
    rcases List.mem_append.1 hy with hy | hy
    · obtain ⟨z, hz, hk⟩ := db.loaded_stored y hy
      by_cases hrow : z.pk = row.pk
      · exact ⟨row, Table.mem_write.2 (.inl rfl), hrow.symm.trans hk⟩
      · exact ⟨z, Table.mem_write.2 (.inr ⟨hz, hrow⟩), hk⟩
    · rw [List.mem_singleton.1 hy]
      exact ⟨row, Table.mem_write.2 (.inl rfl), rfl⟩

def writeDeduction (db : TaxDb) (row : TaxDeduction) : TaxDb :=
  { db with tables := { db.tables with deductions := Table.write (fun i => i.pk) row db.tables.deductions } }

def writeAllowance (db : TaxDb) (row : TaxAllowance) : TaxDb :=
  { db with tables := { db.tables with allowances := Table.write (fun i => i.pk) row db.tables.allowances } }

def writeAdjustment (db : TaxDb) (row : TaxAdjustment) : TaxDb :=
  { db with tables := { db.tables with adjustments := Table.write (fun i => i.pk) row db.tables.adjustments } }

def writeRule (db : TaxDb) (row : TaxRule) : TaxDb :=
  { db with tables := { db.tables with rules := Table.write TaxRule.pk row db.tables.rules } }

def deleteDeduction (db : TaxDb) (pk : ℕ) : TaxDb :=
  { db with tables := { db.tables with deductions := Table.remove (fun i => i.pk) pk db.tables.deductions } }

def deleteAllowance (db : TaxDb) (pk : ℕ) : TaxDb :=
  { db with tables := { db.tables with allowances := Table.remove (fun i => i.pk) pk db.tables.allowances } }

def deleteAdjustment (db : TaxDb) (pk : ℕ) : TaxDb :=
  { db with tables := { db.tables with adjustments := Table.remove (fun i => i.pk) pk db.tables.adjustments } }

def deleteRule (db : TaxDb) (pk : ℕ) : TaxDb :=
  { db with tables := { db.tables with rules := Table.remove TaxRule.pk pk db.tables.rules } }

/-- the stored tax year -/
def taxYear (db : TaxDb) (pk : ℕ) : Except Error TaxYear :=
  match db.years.find? fun y => y.pk = pk with
  | some y => .ok y
  | none => .error .notFound

/-- `self.tax_year` of an instance whose `tax_year_id` is pk: what it has cached of that year, or else the stored year -/
def relatedYear (db : TaxDb) (pk : ℕ) (cached : Option ℕ) : Except Error TaxYear :=
  match cached.bind fun k => db.loaded[k]? with
  | some y => if y.pk = pk then .ok y else db.taxYear pk
  | none => db.taxYear pk

end TaxDb

def filedMessage : Message := .text "This tax year cannot be edited because it is marked as Filed."

/-- the key of the row that is written: the instance's own, or a new one, which has to be free -/
def keyFor {α : Type} (key : α → ℕ) (rows : List α) (pk : Option ℕ) (nextval : ℕ) : Except Error ℕ :=
  match pk with
  | some k => .ok k
  | none => if ∃ r ∈ rows, key r = nextval then .error .database else .ok nextval

/-- `full_clean`: field errors, the instance and the errors that `clean` leaves, and the violated constraints, given
the errors so far; an exception of `clean` that is no ValidationError escapes -/
def fullClean {α : Type} (fields : Errors) (cleaned : Except Error (α × Errors)) (constraints : α → Errors → Errors) :
    Except Error α := do
  let (instance', own) ← cleaned
  let errors := fields ++ own
  let errors := errors ++ constraints instance' errors
  if errors = [] then .ok instance' else .error (.validation errors)

/-! ## Tax years -/

structure TaxYearDraft where
  pk : Option ℕ
  owner : Option ℕ
  name : String
  jurisdiction : String
  startDate : Option Date
  endDate : Option Date
  reportingCurrency : Option ℕ
  status : TaxYearStatus
  notes : String
deriving DecidableEq, Repr

/-- the fields compared in `tracked` -/
structure Tracked where
  name : String
  jurisdiction : String
  startDate : Option Date
  endDate : Option Date
  reportingCurrency : Option ℕ
  status : TaxYearStatus
  notes : String
deriving DecidableEq, Repr

def TaxYear.tracked (y : TaxYear) : Tracked :=
  ⟨y.name, y.jurisdiction, y.startDate, y.endDate, y.reportingCurrency, y.status, y.notes⟩

def TaxYearDraft.tracked (d : TaxYearDraft) : Tracked :=
  ⟨d.name, d.jurisdiction, d.startDate, d.endDate, d.reportingCurrency, d.status, d.notes⟩

def TaxYearDraft.cleanFields (d : TaxYearDraft) : Errors :=
  raised [
    (decide (d.owner = none), "owner", .text "This field cannot be null."),
    (decide (d.name = ""), "name", .text "This field cannot be blank."),
    (decide (80 < d.name.length), "name", .outOfBounds),
    (decide (d.jurisdiction = ""), "jurisdiction", .text "This field cannot be blank."),
    (decide (2 < d.jurisdiction.length), "jurisdiction", .outOfBounds),
    (decide (d.startDate = none), "start_date", .text "This field cannot be null."),
    (decide (d.endDate = none), "end_date", .text "This field cannot be null."),
    (decide (d.reportingCurrency = none), "reporting_currency", .text "This field cannot be null.")]

/-- `overlap`: years of the same owner and jurisdiction, other than this one, that meet the period -/
def TaxYearDraft.overlap (db : TaxDb) (d : TaxYearDraft) : List TaxYear :=
  db.years.filter fun y =>
    d.owner = some y.owner ∧ y.jurisdiction = d.jurisdiction ∧ (∃ e ∈ d.endDate, y.startDate ≤ e) ∧
      (∃ s ∈ d.startDate, s ≤ y.endDate) ∧ d.pk ≠ some y.pk

/-- `previous` -/
def TaxYearDraft.previous (db : TaxDb) (d : TaxYearDraft) : Option TaxYear := db.years.find? fun y => d.pk = some y.pk

/-- `TaxYear.clean`: the instance afterwards, and the errors -/
def TaxYearDraft.clean (upper : String → String) (db : TaxDb) (d : TaxYearDraft) : TaxYearDraft × Errors :=
  let d := { d with jurisdiction := upper d.jurisdiction }
  (d, errorsOf [
    (decide (∃ s ∈ d.startDate, ∃ e ∈ d.endDate, e < s), "end_date",
      .text "End date must be on or after the start date."),
    (decide (d.jurisdiction ≠ "" ∧ d.overlap db ≠ []), "start_date",
      .text "This period overlaps another tax year for the same jurisdiction."),
    (decide (∃ p ∈ d.previous db, p.status = .filed ∧ p.tracked ≠ d.tracked), "status", filedMessage)])

def TaxYearDraft.sameName (db : TaxDb) (d : TaxYearDraft) : Prop :=
  ∃ y ∈ db.years, d.owner = some y.owner ∧ y.jurisdiction = d.jurisdiction ∧ y.name = d.name ∧ d.pk ≠ some y.pk

instance (db : TaxDb) (d : TaxYearDraft) : Decidable (d.sameName db) :=
  inferInstanceAs (Decidable (∃ y ∈ db.years, _))

/-- a constraint is not checked when one of its fields is in error already -/
def TaxYearDraft.constraintErrors (db : TaxDb) (d : TaxYearDraft) (errors : Errors) : Errors :=
  raised [
    (decide ((∀ e ∈ errors, e.1 ∉ ["owner", "jurisdiction", "name"]) ∧ d.sameName db), nonField,
      .constraint "unique_named_tax_year")]

def TaxYearDraft.fullClean (upper : String → String) (db : TaxDb) (d : TaxYearDraft) : Except Error TaxYearDraft :=
  Tax.fullClean d.cleanFields (.ok (d.clean upper db)) (TaxYearDraft.constraintErrors db)

/-- the row that is written, with the key and the jurisdiction as the column keeps it; the constraints
`tax_year_dates_valid` and `unique_named_tax_year` are the database's own -/
def TaxYearDraft.row (db : TaxDb) (d : TaxYearDraft) (pk : ℕ) (jurisdiction : String) : Except Error TaxYear :=
  match d.owner, d.startDate, d.endDate, d.reportingCurrency with
  | some owner, some startDate, some endDate, some reportingCurrency =>
    if h : startDate ≤ endDate then
      if ∃ y ∈ db.years, y.pk ≠ pk ∧ y.owner = owner ∧ y.jurisdiction = jurisdiction ∧ y.name = d.name then
        .error .database
      else .ok ⟨pk, owner, d.name, jurisdiction, startDate, endDate, reportingCurrency, d.status, d.notes, h⟩
    else .error .database
  | _, _, _, _ => .error .database

/-- `TaxYear.save` -/
def TaxYearDraft.save (upper : String → String) (db : TaxDb) (d : TaxYearDraft) (nextval : ℕ) : Except Error TaxDb := do
  let d ← d.fullClean upper db
  let pk ← keyFor TaxYear.pk db.years d.pk nextval
  let jurisdiction ← storeText 2 d.jurisdiction
  let row ← d.row db pk jurisdiction
  if h : row.jurisdiction.length ≤ 2 then .ok (db.writeYear row h) else .error .database

/-! ## Items -/

/-- an instance of `TaxYearItem` -/
structure ItemDraft where
  pk : Option ℕ
  owner : Option ℕ
  taxYear : Option ℕ
  active : Bool
deriving DecidableEq, Repr

def ItemDraft.cleanFields (d : ItemDraft) : List (Bool × String × Message) :=
  [(decide (d.owner = none), "owner", .text "This field cannot be null."),
    (decide (d.taxYear = none), "tax_year", .text "This field cannot be null.")]

/-- `TaxYearItem.clean`: its errors -/
def ItemDraft.clean (db : TaxDb) (cached : Option ℕ) (d : ItemDraft) : Except Error Errors :=
  match d.taxYear with
  | none => .ok []
  | some pk => do
    let y ← db.relatedYear pk cached
    .ok (errorsOf [
      (decide (∃ o ∈ d.owner, o ≠ y.owner), "tax_year", .text "Tax year must belong to the same user."),
      (decide (y.status = .filed), "tax_year", filedMessage)])

/-- `TaxDeduction.clean` and `TaxAdjustment.clean`: the errors of the first check that raises -/
def ItemDraft.cleanDate (db : TaxDb) (cached : Option ℕ) (d : ItemDraft) (date : Option Date) :
    Except Error Errors := do
  let errors ← d.clean db cached
  if errors ≠ [] then .ok errors
  else
    match d.taxYear, date with
    | some pk, some date => do
      let y ← db.relatedYear pk cached
      .ok (raised [(decide (¬(y.startDate ≤ date ∧ date ≤ y.endDate)), "date",
        .text "Date must fall inside the tax year.")])
    | _, _ => .ok []

/-- `max_digits=20, decimal_places=4` -/
def amountChecks (amount : ℚ) : List (Bool × String × Message) :=
  [(decide (¬FitsDecimal 20 4 amount), "amount", .badDecimal 20 4)]

/-- the columns of `TaxYearItem` in the row that is written; they are not null -/
def ItemDraft.row (d : ItemDraft) (pk : ℕ) : Except Error TaxYearItem :=
  match d.owner, d.taxYear with
  | some owner, some taxYear => .ok ⟨pk, owner, taxYear, d.active⟩
  | _, _ => .error .database

structure TaxDeductionDraft extends ItemDraft where
  name : String
  category : TaxableCategory
  amount : ℚ
  currency : ℕ
  date : Option Date
  notes : String
deriving DecidableEq, Repr

def TaxDeductionDraft.cleanFields (d : TaxDeductionDraft) : Errors :=
  raised (d.toItemDraft.cleanFields ++ [
    (decide (d.name = ""), "name", .text "This field cannot be blank."),
    (decide (120 < d.name.length), "name", .outOfBounds),
    (decide (d.amount < 0), "amount", .outOfBounds)] ++ amountChecks d.amount ++ [
    (decide (d.date = none), "date", .text "This field cannot be null.")])

/-- `tax_deduction_nonnegative` repeats the validator of the amount -/
def TaxDeductionDraft.fullClean (db : TaxDb) (cached : Option ℕ) (d : TaxDeductionDraft) :
    Except Error TaxDeductionDraft :=
  Tax.fullClean d.cleanFields (d.toItemDraft.cleanDate db cached d.date >>= fun own => .ok (d, own)) fun _ _ => []

def TaxDeductionDraft.save (db : TaxDb) (cached : Option ℕ) (d : TaxDeductionDraft) (nextval : ℕ) : Except Error TaxDb := do
  let d ← d.fullClean db cached
  let pk ← keyFor (fun i => i.pk) db.tables.deductions d.pk nextval
  let item ← d.toItemDraft.row pk
  match d.date with
  | none => .error .database
  | some date =>
    if h : 0 ≤ d.amount then
      .ok (db.writeDeduction ⟨item, d.name, d.category, d.amount, d.currency, date, d.notes, h⟩)
    else .error .database

structure TaxAllowanceDraft extends ItemDraft where
  name : String
  category : TaxableCategory
  amount : ℚ
  currency : ℕ
  notes : String
deriving DecidableEq, Repr

def TaxAllowanceDraft.cleanFields (d : TaxAllowanceDraft) : Errors :=
  raised (d.toItemDraft.cleanFields ++ [
    (decide (d.name = ""), "name", .text "This field cannot be blank."),
    (decide (120 < d.name.length), "name", .outOfBounds),
    (decide (d.amount < 0), "amount", .outOfBounds)] ++ amountChecks d.amount)

/-- `tax_allowance_nonnegative` repeats the validator of the amount -/
def TaxAllowanceDraft.fullClean (db : TaxDb) (cached : Option ℕ) (d : TaxAllowanceDraft) :
    Except Error TaxAllowanceDraft :=
  Tax.fullClean d.cleanFields (d.toItemDraft.clean db cached >>= fun own => .ok (d, own)) fun _ _ => []

def TaxAllowanceDraft.save (db : TaxDb) (cached : Option ℕ) (d : TaxAllowanceDraft) (nextval : ℕ) : Except Error TaxDb := do
  let d ← d.fullClean db cached
  let pk ← keyFor (fun i => i.pk) db.tables.allowances d.pk nextval
  let item ← d.toItemDraft.row pk
  if h : 0 ≤ d.amount then
    .ok (db.writeAllowance ⟨item, d.name, d.category, d.amount, d.currency, d.notes, h⟩)
  else .error .database

structure TaxAdjustmentDraft extends ItemDraft where
  category : TaxCategory
  appliesTo : Option TaxableCategory
  description : String
  amount : ℚ
  currency : ℕ
  date : Option Date
  notes : String
deriving DecidableEq, Repr

def TaxAdjustmentDraft.cleanFields (d : TaxAdjustmentDraft) : Errors :=
  raised (d.toItemDraft.cleanFields ++ [
    (decide (d.description = ""), "description", .text "This field cannot be blank."),
    (decide (180 < d.description.length), "description", .outOfBounds)] ++ amountChecks d.amount ++ [
    (decide (d.date = none), "date", .text "This field cannot be null.")])

def TaxAdjustmentDraft.constraintErrors (d : TaxAdjustmentDraft) : Errors :=
  raised [(decide (d.amount = 0), nonField, .constraint "tax_adjustment_nonzero")]

def TaxAdjustmentDraft.fullClean (db : TaxDb) (cached : Option ℕ) (d : TaxAdjustmentDraft) :
    Except Error TaxAdjustmentDraft :=
  Tax.fullClean d.cleanFields (d.toItemDraft.cleanDate db cached d.date >>= fun own => .ok (d, own))
    fun d _ => d.constraintErrors

def TaxAdjustmentDraft.save (db : TaxDb) (cached : Option ℕ) (d : TaxAdjustmentDraft) (nextval : ℕ) : Except Error TaxDb := do
  let d ← d.fullClean db cached
  let pk ← keyFor (fun i => i.pk) db.tables.adjustments d.pk nextval
  let item ← d.toItemDraft.row pk
  match d.date with
  | none => .error .database
  | some date =>
    if h : d.amount ≠ 0 then
      .ok (db.writeAdjustment
        ⟨item, d.category, d.appliesTo, d.description, d.amount, d.currency, date, d.notes, h⟩)
    else .error .database

/-- `TaxYearItem.delete`, before the row goes -/
def deletable (db : TaxDb) (cached taxYear : Option ℕ) : Except Error Unit :=
  match taxYear with
  | none => .error .notFound
  | some pk => do
    let y ← db.relatedYear pk cached
    if y.status = .filed then .error (.message filedMessage) else .ok ()

/-! ## Rules -/

structure TaxRuleDraft where
  pk : Option ℕ
  owner : Option ℕ
  taxYear : Option ℕ
  jurisdiction : String
  ruleType : RuleType
  category : TaxableCategory
  name : String
  rate : Option ℚ
  threshold : Option ℚ
  fixedAmount : Option ℚ
  priority : ℕ
  active : Bool
deriving DecidableEq, Repr

/-- the validators of `rate` -/
def badRate (x : ℚ) : Prop := x < 0 ∨ 100 < x

instance (x : ℚ) : Decidable (badRate x) := inferInstanceAs (Decidable (_ ∨ _))

def TaxRuleDraft.cleanFields (d : TaxRuleDraft) : Errors :=
  raised [
    (decide (d.jurisdiction = ""), "jurisdiction", .text "This field cannot be blank."),
    (decide (8 < d.jurisdiction.length), "jurisdiction", .outOfBounds),
    (decide (d.name = ""), "name", .text "This field cannot be blank."),
    (decide (120 < d.name.length), "name", .outOfBounds),
    (decide (∃ x ∈ d.rate, badRate x), "rate", .outOfBounds),
    (decide (∃ x ∈ d.rate, ¬FitsDecimal 5 2 x), "rate", .badDecimal 5 2),
    (decide (∃ x ∈ d.threshold, ¬FitsDecimal 20 4 x), "threshold", .badDecimal 20 4),
    (decide (∃ x ∈ d.fixedAmount, ¬FitsDecimal 20 4 x), "fixed_amount", .badDecimal 20 4),
    (decide (32767 < d.priority), "priority", .outOfBounds)]

/-- the fields that the type does not use are cleared -/
def TaxRuleDraft.cleared (d : TaxRuleDraft) : TaxRuleDraft :=
  match d.ruleType with
  | .flatRate => { d with threshold := none, fixedAmount := none }
  | .threshold => { d with rate := none, fixedAmount := none }
  | .allowance => { d with rate := none, threshold := none }
  | .deduction => { d with rate := none, threshold := none }

/-- `self.tax_year` of a rule, which may have none -/
def TaxRuleDraft.year (db : TaxDb) (cached : Option ℕ) (d : TaxRuleDraft) : Except Error (Option TaxYear) :=
  match d.taxYear with
  | none => .ok none
  | some pk => (db.relatedYear pk cached).map some

/-- `TaxRule.clean`: the instance afterwards, and the errors -/
def TaxRuleDraft.clean (db : TaxDb) (cached : Option ℕ) (d : TaxRuleDraft) : Except Error (TaxRuleDraft × Errors) := do
  let year ← d.year db cached
  let errors := errorsOf [
    (decide (d.owner = none), "owner", .text "An owner is required for annual tax rules."),
    (decide (year = none), "tax_year", .text "A tax year is required for annual tax rules."),
    (decide (∃ y ∈ year, ∃ o ∈ d.owner, o ≠ y.owner), "tax_year", .text "Tax year must belong to the same user."),
    (decide (∃ y ∈ year, (∀ o ∈ d.owner, o = y.owner) ∧ y.status = .filed), "tax_year", filedMessage),
    (decide (d.ruleType = .flatRate ∧ d.rate = none), "rate", .text "A rate is required for a flat-rate rule."),
    (decide (d.ruleType = .threshold ∧ d.threshold = none), "threshold",
      .text "A threshold is required for a threshold rule."),
    (decide ((d.ruleType = .allowance ∨ d.ruleType = .deduction) ∧ d.fixedAmount = none), "fixed_amount",
      .text "A fixed amount is required for this rule type.")]
  let d := match year with
    | some y => { d with jurisdiction := y.jurisdiction }
    | none => d
  .ok (d.cleared, errors)

/-- a constraint is not checked when its field is in error already -/
def TaxRuleDraft.constraintErrors (d : TaxRuleDraft) (errors : Errors) : Errors :=
  raised [
    (decide ((∃ x ∈ d.rate, badRate x) ∧ ∀ e ∈ errors, e.1 ≠ "rate"), nonField,
      .constraint "annual_tax_rule_rate_valid"),
    (decide ((∃ x ∈ d.threshold, x < 0) ∧ ∀ e ∈ errors, e.1 ≠ "threshold"), nonField,
      .constraint "annual_tax_rule_threshold_nonnegative"),
    (decide ((∃ x ∈ d.fixedAmount, x < 0) ∧ ∀ e ∈ errors, e.1 ≠ "fixed_amount"), nonField,
      .constraint "annual_tax_rule_fixed_nonnegative")]

def TaxRuleDraft.fullClean (db : TaxDb) (cached : Option ℕ) (d : TaxRuleDraft) :
    Except Error TaxRuleDraft :=
  Tax.fullClean d.cleanFields (d.clean db cached) TaxRuleDraft.constraintErrors

/-- the constraints of the table -/
def TaxRuleDraft.Constraints (d : TaxRuleDraft) : Prop :=
  (∀ x ∈ d.rate, 0 ≤ x ∧ x ≤ 100) ∧ (∀ x ∈ d.threshold, 0 ≤ x) ∧ ∀ x ∈ d.fixedAmount, 0 ≤ x

instance (d : TaxRuleDraft) : Decidable d.Constraints := inferInstanceAs (Decidable (_ ∧ _ ∧ _))

def TaxRuleDraft.save (db : TaxDb) (cached : Option ℕ) (d : TaxRuleDraft) (nextval : ℕ) : Except Error TaxDb := do
  let d ← d.fullClean db cached
  let pk ← keyFor TaxRule.pk db.tables.rules d.pk nextval
  let jurisdiction ← storeText 8 d.jurisdiction
  if h : d.Constraints then
    .ok (db.writeRule ⟨pk, d.owner, d.taxYear, jurisdiction, d.ruleType, d.category, d.name, d.rate, d.threshold,
      d.fixedAmount, d.priority, d.active, h.1, h.2.1, h.2.2⟩)
  else .error .database

/-- `TaxRule.delete`, before the row goes -/
def ruleDeletable (db : TaxDb) (cached taxYear : Option ℕ) : Except Error Unit :=
  match taxYear with
  | none => .ok ()
  | some pk => deletable db cached (some pk)

/-! ## The machine -/

/-- an instance that is deleted is its key and the year it names; `cached` is the year that the instance has loaded -/
inductive TaxOp where
  | saveYear (d : TaxYearDraft) (nextval : ℕ)
  | saveDeduction (cached : Option ℕ) (d : TaxDeductionDraft) (nextval : ℕ)
  | saveAllowance (cached : Option ℕ) (d : TaxAllowanceDraft) (nextval : ℕ)
  | saveAdjustment (cached : Option ℕ) (d : TaxAdjustmentDraft) (nextval : ℕ)
  | saveRule (cached : Option ℕ) (d : TaxRuleDraft) (nextval : ℕ)
  | deleteDeduction (cached : Option ℕ) (pk : ℕ) (taxYear : Option ℕ)
  | deleteAllowance (cached : Option ℕ) (pk : ℕ) (taxYear : Option ℕ)
  | deleteAdjustment (cached : Option ℕ) (pk : ℕ) (taxYear : Option ℕ)
  | deleteRule (cached : Option ℕ) (pk : ℕ) (taxYear : Option ℕ)

def TaxDb.step (upper : String → String) (db : TaxDb) : TaxOp → Except Error TaxDb
  | .saveYear d nextval => d.save upper db nextval
  | .saveDeduction cached d nextval => d.save db cached nextval
  | .saveAllowance cached d nextval => d.save db cached nextval
  | .saveAdjustment cached d nextval => d.save db cached nextval
  | .saveRule cached d nextval => d.save db cached nextval
  | .deleteDeduction cached pk taxYear => (deletable db cached taxYear).map fun _ => db.deleteDeduction pk
  | .deleteAllowance cached pk taxYear => (deletable db cached taxYear).map fun _ => db.deleteAllowance pk
  | .deleteAdjustment cached pk taxYear => (deletable db cached taxYear).map fun _ => db.deleteAdjustment pk
  | .deleteRule cached pk taxYear => (ruleDeletable db cached taxYear).map fun _ => db.deleteRule pk

end Vault67.Tax
