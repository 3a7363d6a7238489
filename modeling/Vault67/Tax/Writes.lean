/-
What an accepted save or delete has written.

`TaxWrite db op db'`: one case for each operation, with everything its validation has established. A stored item is
loaded as a draft (`TaxDeduction.draft`, …), and an item that was saved is the draft it was saved from, with its key.

- `cleanDate_eq_nil`: an item that passes `clean` names a stored year, and its `self.tax_year` is of its owner and not
  filed and contains its date.
- `step_write`: an accepted operation is a write.
-/
import Mathlib.Tactic
import Vault67.Tax.Aggregation
import Vault67.Tax.Store

namespace Vault67.Tax

open Fallible

/-! ## Stored rows as instances -/

/-- the columns of `TaxYearItem` of an instance that was loaded -/
def TaxYearItem.draft (i : TaxYearItem) : ItemDraft := ⟨some i.pk, some i.owner, some i.taxYear, i.active⟩

def TaxDeduction.draft (i : TaxDeduction) : TaxDeductionDraft :=
  ⟨i.toTaxYearItem.draft, i.name, i.category, i.amount, i.currency, some i.date, i.notes⟩

def TaxAllowance.draft (i : TaxAllowance) : TaxAllowanceDraft :=
  ⟨i.toTaxYearItem.draft, i.name, i.category, i.amount, i.currency, i.notes⟩

def TaxAdjustment.draft (i : TaxAdjustment) : TaxAdjustmentDraft :=
  ⟨i.toTaxYearItem.draft, i.category, i.appliesTo, i.description, i.amount, i.currency, some i.date, i.notes⟩

def TaxRule.draft (r : TaxRule) : TaxRuleDraft :=
  ⟨some r.pk, r.owner, r.taxYear, r.jurisdiction, r.ruleType, r.category, r.name, r.rate, r.threshold, r.fixedAmount,
    r.priority, r.active⟩

theorem itemDraft_inj {i j : TaxYearItem} (h : i.draft = j.draft) : i = j := by
  cases i
  cases j
  simpa [TaxYearItem.draft] using h

theorem deductionDraft_inj {i j : TaxDeduction} (h : i.draft = j.draft) : i = j := by
  have hitem := itemDraft_inj (congrArg TaxDeductionDraft.toItemDraft h)
  cases i
  cases j
  simp_all [TaxDeduction.draft]

theorem allowanceDraft_inj {i j : TaxAllowance} (h : i.draft = j.draft) : i = j := by
  have hitem := itemDraft_inj (congrArg TaxAllowanceDraft.toItemDraft h)
  cases i
  cases j
  simp_all [TaxAllowance.draft]

theorem adjustmentDraft_inj {i j : TaxAdjustment} (h : i.draft = j.draft) : i = j := by
  have hitem := itemDraft_inj (congrArg TaxAdjustmentDraft.toItemDraft h)
  cases i
  cases j
  simp_all [TaxAdjustment.draft]

theorem ruleDraft_inj {r s : TaxRule} (h : r.draft = s.draft) : r = s := by
  cases r
  cases s
  simp_all [TaxRule.draft]

variable {upper : String → String} {db db' : TaxDb} {cached : Option ℕ}

/-! ## Keys and validation -/

/-- the row with key k is new, or the one the instance was loaded from -/
def KeyOf {α : Type} (key : α → ℕ) (rows : List α) (pk : Option ℕ) (k : ℕ) : Prop :=
  pk = some k ∨ pk = none ∧ ∀ r ∈ rows, key r ≠ k

theorem KeyOf.stored {α : Type} {key : α → ℕ} {rows : List α} {pk : Option ℕ} {k : ℕ} (h : KeyOf key rows pk k) {r : α}
    (hr : r ∈ rows) (hk : key r = k) : pk = some k := by
  rcases h with h | ⟨-, h⟩
  · exact h
  · exact absurd hk (h r hr)

/-- a stored row has the key of the instance exactly when it is the one that is written over -/
theorem KeyOf.stored_iff {α : Type} {key : α → ℕ} {rows : List α} {pk : Option ℕ} {k : ℕ} (h : KeyOf key rows pk k) {r : α}
    (hr : r ∈ rows) : pk = some (key r) ↔ key r = k := by
  refine ⟨fun hpk => ?_, fun hk => hk ▸ h.stored hr hk⟩
  rcases h with h | ⟨h, -⟩
  · exact Option.some.inj (hpk.symm.trans h)
  · rw [h] at hpk
    cases hpk

theorem keyFor_ok {α : Type} {key : α → ℕ} {rows : List α} {pk : Option ℕ} {nextval k : ℕ}
    (h : keyFor key rows pk nextval = .ok k) : KeyOf key rows pk k := by
  unfold keyFor at h
  cases pk with
  | some j =>
    cases h
    exact .inl rfl
  | none =>
    obtain ⟨hfree, h⟩ := ite_error_eq_ok.1 h
    cases h
    exact .inr ⟨rfl, fun r hr hk => hfree ⟨r, hr, hk⟩⟩

theorem fullClean_ok {α : Type} {fields : Errors} {cleaned : Except Error (α × Errors)}
    {constraints : α → Errors → Errors} {a : α} :
    fullClean fields cleaned constraints = .ok a ↔ fields = [] ∧ cleaned = .ok (a, []) ∧ constraints a [] = [] := by
  unfold fullClean
  rw [bind_eq_ok]
  refine ⟨?_, ?_⟩
  · intro h
    obtain ⟨⟨b, own⟩, hc, h⟩ := h
    dsimp only at h
    split_ifs at h with herr
    cases h
    obtain ⟨hfo, hcons⟩ := List.append_eq_nil_iff.1 herr
    obtain ⟨rfl, rfl⟩ := List.append_eq_nil_iff.1 hfo
    exact ⟨rfl, hc, hcons⟩
  · intro h
    obtain ⟨rfl, hc, hcons⟩ := h
    refine ⟨(a, []), hc, ?_⟩
    simp [hcons]

theorem taxYear_ok {pk : ℕ} {y : TaxYear} : db.taxYear pk = .ok y ↔ y ∈ db.years ∧ y.pk = pk := by
  unfold TaxDb.taxYear
  refine ⟨?_, ?_⟩
  · intro h
    split at h
    · next z hz =>
      cases h
      exact ⟨List.mem_of_find?_eq_some hz, by simpa using List.find?_some hz⟩
    · cases h
  · intro h
    obtain ⟨hy, rfl⟩ := h
    cases hf : db.years.find? (fun z => z.pk = y.pk) with
    | none => exact absurd (decide_eq_true rfl) (List.find?_eq_none.1 hf y hy)
    | some z =>
      have hz : z ∈ db.years := List.mem_of_find?_eq_some hf
      have hzk : z.pk = y.pk := by simpa using List.find?_some hf
      rw [List.inj_on_of_nodup_map db.years_nodup hz hy hzk]

/-- the year is stored as FILED -/
def TaxDb.IsFiled (db : TaxDb) (pk : ℕ) : Prop := ∃ y ∈ db.years, y.pk = pk ∧ y.status = .filed

instance (db : TaxDb) (pk : ℕ) : Decidable (db.IsFiled pk) := inferInstanceAs (Decidable (∃ y ∈ db.years, _))

theorem isFiled_iff {pk : ℕ} : db.IsFiled pk ↔ ∃ y, db.taxYear pk = .ok y ∧ y.status = .filed := by
  refine ⟨?_, ?_⟩
  · intro h
    obtain ⟨y, hy, hk, hs⟩ := h
    exact ⟨y, taxYear_ok.2 ⟨hy, hk⟩, hs⟩
  · intro h
    obtain ⟨y, hy, hs⟩ := h
    exact ⟨y, (taxYear_ok.1 hy).1, (taxYear_ok.1 hy).2, hs⟩

/-! ## `self.tax_year` -/

theorem relatedYear_ok {pk : ℕ} {y : TaxYear} (h : db.relatedYear pk cached = .ok y) :
    y.pk = pk ∧ (y ∈ db.years ∨ y ∈ db.loaded) := by
  unfold TaxDb.relatedYear at h
  split at h
  · next z hz =>
    split_ifs at h with hk
    · cases h
      obtain ⟨k, -, hk'⟩ := Option.bind_eq_some_iff.1 hz
      exact ⟨hk, .inr (List.mem_of_getElem? hk')⟩
    · exact ⟨(taxYear_ok.1 h).2, .inl (taxYear_ok.1 h).1⟩
  · exact ⟨(taxYear_ok.1 h).2, .inl (taxYear_ok.1 h).1⟩

/-- whatever is cached, the year is stored -/
theorem relatedYear_stored {pk : ℕ} {y : TaxYear} (h : db.relatedYear pk cached = .ok y) : ∃ z, db.taxYear pk = .ok z := by
  obtain ⟨rfl, hy | hy⟩ := relatedYear_ok h
  · exact ⟨y, taxYear_ok.2 ⟨hy, rfl⟩⟩
  · obtain ⟨z, hz, hk⟩ := db.loaded_stored y hy
    exact ⟨z, taxYear_ok.2 ⟨hz, hk⟩⟩

theorem relatedYear_length {pk : ℕ} {y : TaxYear} (h : db.relatedYear pk cached = .ok y) : y.jurisdiction.length ≤ 2 := by
  rcases (relatedYear_ok h).2 with hy | hy
  · exact db.jurisdiction_length y hy
  · exact db.loaded_length y hy

/-! ## Items -/

theorem clean_eq_nil {d : ItemDraft} (h : d.clean db cached = .ok []) (hyear : d.taxYear ≠ none) :
    ∃ y, db.relatedYear y.pk cached = .ok y ∧ d.taxYear = some y.pk ∧ (∀ o ∈ d.owner, o = y.owner) ∧
      y.status ≠ .filed := by
  unfold ItemDraft.clean at h
  cases hd : d.taxYear with
  | none => exact absurd hd hyear
  | some pk =>
    rw [hd] at h
    obtain ⟨y, hy, hok⟩ := bind_eq_ok.1 h
    obtain ⟨rfl, -⟩ := relatedYear_ok hy
    have herr := Except.ok.inj hok
    rw [errorsOf_eq_nil] at herr
    simp only [List.forall_mem_cons, decide_eq_false_iff_not] at herr
    refine ⟨y, hy, rfl, fun o ho => ?_, herr.2.1⟩
    by_contra hne
    exact herr.1 ⟨o, ho, hne⟩

theorem cleanDate_eq_nil {d : ItemDraft} {date : Option Date} (h : d.cleanDate db cached date = .ok [])
    (hyear : d.taxYear ≠ none) :
    ∃ y, db.relatedYear y.pk cached = .ok y ∧ d.taxYear = some y.pk ∧ (∀ o ∈ d.owner, o = y.owner) ∧ y.status ≠ .filed ∧
      ∀ x ∈ date, y.Contains x := by
  obtain ⟨errors, hclean, h⟩ := bind_eq_ok.1 h
  by_cases herr : errors = []
  · subst herr
    obtain ⟨y, hy, hpk, howner, hs⟩ := clean_eq_nil hclean hyear
    refine ⟨y, hy, hpk, howner, hs, fun x hx => ?_⟩
    rw [if_neg (not_not.2 rfl), hpk] at h
    cases hx
    obtain ⟨z, hz, h⟩ := bind_eq_ok.1 h
    rw [hy] at hz
    cases hz
    by_contra hout
    have herr := Except.ok.inj h
    rw [raised_eq_nil] at herr
    simp only [List.forall_mem_cons, decide_eq_false_iff_not] at herr
    exact herr.1 hout
  · rw [if_pos herr] at h
    exact absurd (Except.ok.inj h) herr

/-- what an accepted save of an item has checked against its `self.tax_year` -/
structure Admitted (db : TaxDb) (cached : Option ℕ) (item : TaxYearItem) (y : TaxYear) : Prop where
  year : db.relatedYear item.taxYear cached = .ok y
  owner : item.owner = y.owner
  status : y.status ≠ .filed

theorem itemRow_ok {d : ItemDraft} {pk : ℕ} {item : TaxYearItem} (h : d.row pk = .ok item) :
    item.draft = { d with pk := some pk } := by
  unfold ItemDraft.row at h
  split at h
  · next owner year ho hy =>
    cases h
    simp [TaxYearItem.draft, ho, hy]
  · cases h

theorem draft_eq {d : ItemDraft} {item : TaxYearItem} (h : item.draft = { d with pk := some item.pk }) :
    d.owner = some item.owner ∧ d.taxYear = some item.taxYear ∧ item.active = d.active := by
  unfold TaxYearItem.draft at h
  injection h with _ ho hy ha
  exact ⟨ho.symm, hy.symm, ha⟩

theorem itemPk {d : ItemDraft} {item : TaxYearItem} {pk : ℕ} (h : item.draft = { d with pk := some pk }) :
    item.pk = pk := by
  unfold TaxYearItem.draft at h
  injection h with hpk
  exact Option.some.inj hpk

theorem Admitted.of_clean {d : ItemDraft} {item : TaxYearItem} (h : item.draft = { d with pk := some item.pk })
    (hclean : d.clean db cached = .ok []) : ∃ y, Admitted db cached item y := by
  obtain ⟨ho, hy, -⟩ := draft_eq h
  obtain ⟨y, hstored, hnamed, howner, hs⟩ := clean_eq_nil hclean (by simp [hy])
  rw [hy] at hnamed
  refine ⟨y, ?_, howner _ ho, hs⟩
  rw [Option.some.inj hnamed]
  exact hstored

theorem Admitted.of_cleanDate {d : ItemDraft} {item : TaxYearItem} {date : Date}
    (h : item.draft = { d with pk := some item.pk }) (hclean : d.cleanDate db cached (some date) = .ok []) :
    ∃ y, Admitted db cached item y ∧ y.Contains date := by
  obtain ⟨ho, hy, -⟩ := draft_eq h
  obtain ⟨y, hstored, hnamed, howner, hs, hdate⟩ := cleanDate_eq_nil hclean (by simp [hy])
  rw [hy] at hnamed
  refine ⟨y, ⟨?_, howner _ ho, hs⟩, hdate date rfl⟩
  rw [Option.some.inj hnamed]
  exact hstored

/-- `full_clean` of an instance that its `clean` leaves as it is -/
theorem fullClean_kept_ok {α : Type} {fields : Errors} {errors : Except Error Errors} {constraints : α → Errors → Errors}
    {d d' : α} (h : fullClean fields (errors >>= fun own => .ok (d, own)) constraints = .ok d') :
    d' = d ∧ fields = [] ∧ errors = .ok [] := by
  obtain ⟨hfields, hclean, -⟩ := fullClean_ok.1 h
  obtain ⟨own, hown, hpair⟩ := bind_eq_ok.1 hclean
  cases hpair
  exact ⟨rfl, hfields, hown⟩

theorem deletable_ok {taxYear : Option ℕ} (h : deletable db cached taxYear = .ok ()) :
    ∃ y, taxYear = some y.pk ∧ db.relatedYear y.pk cached = .ok y ∧ y.status ≠ .filed := by
  cases taxYear with
  | none => cases h
  | some pk =>
    obtain ⟨y, hy, hok⟩ := bind_eq_ok.1 h
    obtain ⟨rfl, -⟩ := relatedYear_ok hy
    exact ⟨y, rfl, hy, (ite_error_eq_ok.1 hok).1⟩

/-! ## Rules -/

/-- what an accepted save of a rule has checked: d is the instance given, r the row -/
structure RuleAdmitted (db : TaxDb) (cached : Option ℕ) (d : TaxRuleDraft) (r : TaxRule) (y : TaxYear) : Prop where
  year : db.relatedYear y.pk cached = .ok y
  named : d.taxYear = some y.pk
  status : y.status ≠ .filed
  owner : d.owner = some y.owner
  fields : d.cleanFields = []
  required : (d.ruleType = .flatRate → d.rate ≠ none) ∧ (d.ruleType = .threshold → d.threshold ≠ none) ∧
    (d.ruleType = .allowance ∨ d.ruleType = .deduction → d.fixedAmount ≠ none)
  clean : d.clean db cached = .ok ({ d with jurisdiction := y.jurisdiction }.cleared, [])
  row : r.draft = { { d with jurisdiction := y.jurisdiction }.cleared with pk := some r.pk }

theorem cleared_pk (d : TaxRuleDraft) : d.cleared.pk = d.pk := by
  unfold TaxRuleDraft.cleared
  cases d.ruleType <;> rfl

theorem cleared_taxYear (d : TaxRuleDraft) : d.cleared.taxYear = d.taxYear := by
  unfold TaxRuleDraft.cleared
  cases d.ruleType <;> rfl

theorem cleared_jurisdiction (d : TaxRuleDraft) : d.cleared.jurisdiction = d.jurisdiction := by
  unfold TaxRuleDraft.cleared
  cases d.ruleType <;> rfl

theorem cleared_owner (d : TaxRuleDraft) : d.cleared.owner = d.owner := by
  unfold TaxRuleDraft.cleared
  cases d.ruleType <;> rfl

theorem ruleYear_ok {d : TaxRuleDraft} {y : TaxYear} (h : d.year db cached = .ok (some y)) :
    d.taxYear = some y.pk ∧ db.relatedYear y.pk cached = .ok y := by
  unfold TaxRuleDraft.year at h
  cases hd : d.taxYear with
  | none =>
    rw [hd] at h
    cases h
  | some pk =>
    rw [hd] at h
    cases hy : db.relatedYear pk cached with
    | error e =>
      simp only [hy] at h
      cases h
    | ok z =>
      simp only [hy] at h
      cases h
      obtain ⟨rfl, -⟩ := relatedYear_ok hy
      exact ⟨rfl, hy⟩

theorem ruleClean_ok {d d' : TaxRuleDraft} (h : d.clean db cached = .ok (d', [])) :
    ∃ y, db.relatedYear y.pk cached = .ok y ∧ d.taxYear = some y.pk ∧ y.status ≠ .filed ∧ d.owner = some y.owner ∧
      ((d.ruleType = .flatRate → d.rate ≠ none) ∧ (d.ruleType = .threshold → d.threshold ≠ none) ∧
        (d.ruleType = .allowance ∨ d.ruleType = .deduction → d.fixedAmount ≠ none)) ∧
      d' = { d with jurisdiction := y.jurisdiction }.cleared := by
  obtain ⟨year, hyear, hok⟩ := bind_eq_ok.1 h
  have herr : _ = ([] : Errors) := (Prod.mk.inj (Except.ok.inj hok)).2
  rw [errorsOf_eq_nil] at herr
  simp only [List.forall_mem_cons, decide_eq_false_iff_not] at herr
  obtain ⟨howner, hnone, hother, hfiled, hflat, hthr, hfix, -⟩ := herr
  obtain ⟨y, rfl⟩ := Option.ne_none_iff_exists'.1 hnone
  obtain ⟨hnamed, hstored⟩ := ruleYear_ok hyear
  have hsame : ∀ o ∈ d.owner, o = y.owner := fun o ho => by
    by_contra hne
    exact hother ⟨y, rfl, o, ho, hne⟩
  obtain ⟨o, ho⟩ := Option.ne_none_iff_exists'.1 howner
  refine ⟨y, hstored, hnamed, fun hs => hfiled ⟨y, rfl, hsame, hs⟩, ?_, ⟨?_, ?_, ?_⟩, ?_⟩
  · rw [ho, hsame o ho]
  · exact fun ht hr => hflat ⟨ht, hr⟩
  · exact fun ht hr => hthr ⟨ht, hr⟩
  · exact fun ht hr => hfix ⟨ht, hr⟩
  · exact (Prod.mk.inj (Except.ok.inj hok)).1.symm

/-! ## Tax years -/

/-- what an accepted save of a year has checked: d is the instance given, row the stored row -/
structure YearAdmitted (upper : String → String) (db : TaxDb) (d : TaxYearDraft) (row : TaxYear) : Prop where
  key : KeyOf TaxYear.pk db.years d.pk row.pk
  owner : d.owner = some row.owner
  tracked : { row.tracked with jurisdiction := upper d.jurisdiction } =
    { d with jurisdiction := upper d.jurisdiction }.tracked
  stored : storeText 2 (upper d.jurisdiction) = .ok row.jurisdiction
  nonempty : d.jurisdiction ≠ ""
  no_overlap : upper d.jurisdiction ≠ "" → ∀ y ∈ db.years, y.owner = row.owner → y.jurisdiction = upper d.jurisdiction →
    y.startDate ≤ row.endDate → row.startDate ≤ y.endDate → y.pk = row.pk
  filed : ∀ y ∈ db.years, y.pk = row.pk → y.status = .filed →
    y.tracked = { row.tracked with jurisdiction := upper d.jurisdiction }

theorem yearRow_ok {d : TaxYearDraft} {pk : ℕ} {jurisdiction : String} {row : TaxYear}
    (h : d.row db pk jurisdiction = .ok row) :
    row.pk = pk ∧ d.owner = some row.owner ∧ row.tracked = { d with jurisdiction := jurisdiction }.tracked ∧
      row.jurisdiction = jurisdiction := by
  unfold TaxYearDraft.row at h
  split at h
  · next owner startDate endDate reportingCurrency ho hs he hr =>
    split_ifs at h
    cases h
    exact ⟨rfl, ho, by simp [TaxYear.tracked, TaxYearDraft.tracked, hs, he, hr], rfl⟩
  · cases h

theorem previous_stored {d : TaxYearDraft} {y : TaxYear} (hy : y ∈ db.years) (hpk : d.pk = some y.pk) :
    d.previous db = some y := by
  have hstored := taxYear_ok.2 ⟨hy, rfl⟩
  unfold TaxDb.taxYear at hstored
  unfold TaxYearDraft.previous
  have hsame : (fun z : TaxYear => decide (d.pk = some z.pk)) = fun z => decide (z.pk = y.pk) := by
    funext z
    simp [hpk, eq_comm]
  rw [hsame]
  split at hstored
  · next z hz =>
    cases hstored
    exact hz
  · cases hstored

theorem yearSave_ok {d : TaxYearDraft} {nextval : ℕ} (hsave : d.save upper db nextval = .ok db') :
    ∃ row, ∃ hlen : row.jurisdiction.length ≤ 2, YearAdmitted upper db d row ∧ db' = db.writeYear row hlen := by
  obtain ⟨c, hc, h⟩ := bind_eq_ok.1 hsave
  obtain ⟨pk, hpk, h⟩ := bind_eq_ok.1 h
  obtain ⟨jurisdiction, hj, h⟩ := bind_eq_ok.1 h
  obtain ⟨row, hrow, h⟩ := bind_eq_ok.1 h
  split_ifs at h with hlen
  cases h
  obtain ⟨hfields, hclean, -⟩ := fullClean_ok.1 hc
  obtain ⟨hd, herr⟩ := Prod.mk.inj (Except.ok.inj hclean)
  subst hd
  obtain ⟨rfl, howner, htracked, rfl⟩ := yearRow_ok hrow
  rw [errorsOf_eq_nil] at herr
  simp only [List.forall_mem_cons, decide_eq_false_iff_not] at herr
  obtain ⟨-, hoverlap, hfiled, -⟩ := herr
  rw [TaxYearDraft.cleanFields, raised_eq_nil] at hfields
  simp only [List.forall_mem_cons, decide_eq_false_iff_not] at hfields
  have hkey := keyFor_ok hpk
  have htracked' : { row.tracked with jurisdiction := upper d.jurisdiction } =
      { d with jurisdiction := upper d.jurisdiction }.tracked := by
    rw [htracked]
    rfl
  have hend : d.endDate = some row.endDate := (congrArg Tracked.endDate htracked).symm
  have hstart : d.startDate = some row.startDate := (congrArg Tracked.startDate htracked).symm
  refine ⟨row, hlen, ⟨hkey, howner, htracked', hj, hfields.2.2.2.1, ?_, ?_⟩, rfl⟩
  · intro hne y hy hyo hyj hys hye
    by_contra hyk
    refine hoverlap ⟨hne, List.ne_nil_of_mem (a := y) (List.mem_filter.2 ⟨hy, decide_eq_true ?_⟩)⟩
    refine ⟨by rw [hyo]; exact howner, hyj, ⟨_, hend, hys⟩, ⟨_, hstart, hye⟩, fun e => ?_⟩
    exact hyk (hkey.elim (fun h => Option.some.inj (e.symm.trans h)) fun h => nomatch h.1.symm.trans e)
  · intro y hy hyk hys
    by_contra hne
    refine hfiled ⟨y, previous_stored hy (hyk ▸ hkey.stored hy hyk), hys, ?_⟩
    rw [← htracked']
    exact hne

/-! ## Accepted operations -/

/-- what the three kinds of items have in common when they are saved -/
theorem itemSave_ok {α ρ : Type} {d : α} {toItem : α → ItemDraft} {fields : Errors} {errors : Except Error Errors}
    {constraints : α → Errors → Errors} {key : ρ → ℕ} {rows : List ρ} {nextval : ℕ}
    {write : α → TaxYearItem → Except Error TaxDb}
    (hsave : (do
      let d ← fullClean fields (errors >>= fun own => .ok (d, own)) constraints
      let pk ← keyFor key rows (toItem d).pk nextval
      let item ← (toItem d).row pk
      write d item) = .ok db') :
    ∃ item : TaxYearItem, item.draft = { toItem d with pk := some item.pk } ∧ fields = [] ∧ errors = .ok [] ∧
      KeyOf key rows (toItem d).pk item.pk ∧ write d item = .ok db' := by
  obtain ⟨c, hc, h⟩ := bind_eq_ok.1 hsave
  obtain ⟨rfl, hfields, hclean⟩ := fullClean_kept_ok hc
  obtain ⟨pk, hpk, h⟩ := bind_eq_ok.1 h
  obtain ⟨item, hitem, hwrite⟩ := bind_eq_ok.1 h
  have hdraft := itemRow_ok hitem
  obtain rfl := itemPk hdraft
  exact ⟨item, hdraft, hfields, hclean, keyFor_ok hpk, hwrite⟩

theorem deductionSave_ok {d : TaxDeductionDraft} {nextval : ℕ} (hsave : d.save db cached nextval = .ok db') :
    ∃ row : TaxDeduction, row.draft = { d with pk := some row.pk } ∧ d.cleanFields = [] ∧
      (∃ y, Admitted db cached row.toTaxYearItem y ∧ y.Contains row.date) ∧
      KeyOf (fun i : TaxDeduction => i.pk) db.tables.deductions d.pk row.pk ∧ db' = db.writeDeduction row := by
  obtain ⟨item, hdraft, hfields, hclean, hkey, hwrite⟩ := itemSave_ok hsave
  split at hwrite
  · cases hwrite
  · next date hdate =>
    split_ifs at hwrite with hnonneg
    cases hwrite
    rw [hdate] at hclean
    refine ⟨_, ?_, hfields, Admitted.of_cleanDate hdraft hclean, hkey, rfl⟩
    simp [TaxDeduction.draft, hdraft, hdate]

theorem allowanceSave_ok {d : TaxAllowanceDraft} {nextval : ℕ} (hsave : d.save db cached nextval = .ok db') :
    ∃ row : TaxAllowance, row.draft = { d with pk := some row.pk } ∧ d.cleanFields = [] ∧
      (∃ y, Admitted db cached row.toTaxYearItem y) ∧
      KeyOf (fun i : TaxAllowance => i.pk) db.tables.allowances d.pk row.pk ∧ db' = db.writeAllowance row := by
  obtain ⟨item, hdraft, hfields, hclean, hkey, hwrite⟩ := itemSave_ok hsave
  split_ifs at hwrite with hnonneg
  cases hwrite
  refine ⟨_, ?_, hfields, Admitted.of_clean hdraft hclean, hkey, rfl⟩
  simp [TaxAllowance.draft, hdraft]

theorem adjustmentSave_ok {d : TaxAdjustmentDraft} {nextval : ℕ} (hsave : d.save db cached nextval = .ok db') :
    ∃ row : TaxAdjustment, row.draft = { d with pk := some row.pk } ∧ d.cleanFields = [] ∧
      (∃ y, Admitted db cached row.toTaxYearItem y ∧ y.Contains row.date) ∧
      KeyOf (fun i : TaxAdjustment => i.pk) db.tables.adjustments d.pk row.pk ∧ db' = db.writeAdjustment row := by
  obtain ⟨item, hdraft, hfields, hclean, hkey, hwrite⟩ := itemSave_ok hsave
  split at hwrite
  · cases hwrite
  · next date hdate =>
    split_ifs at hwrite with hne
    cases hwrite
    rw [hdate] at hclean
    refine ⟨_, ?_, hfields, Admitted.of_cleanDate hdraft hclean, hkey, rfl⟩
    simp [TaxAdjustment.draft, hdraft, hdate]

theorem storeText_of_length {n : ℕ} {s : String} (h : s.length ≤ n) : storeText n s = .ok s := if_pos h

theorem ruleSave_ok {d : TaxRuleDraft} {nextval : ℕ} (hsave : d.save db cached nextval = .ok db') :
    ∃ (r : TaxRule) (y : TaxYear), RuleAdmitted db cached d r y ∧ KeyOf TaxRule.pk db.tables.rules d.pk r.pk ∧
      db' = db.writeRule r := by
  obtain ⟨c, hc, h⟩ := bind_eq_ok.1 hsave
  obtain ⟨pk, hpk, h⟩ := bind_eq_ok.1 h
  obtain ⟨jurisdiction, hj, h⟩ := bind_eq_ok.1 h
  split_ifs at h with hcons
  cases h
  obtain ⟨hfields, hclean, -⟩ := fullClean_ok.1 hc
  obtain ⟨y, hstored, hnamed, hs, howner, hreq, rfl⟩ := ruleClean_ok hclean
  rw [cleared_jurisdiction] at hj
  have hlen : y.jurisdiction.length ≤ 8 := (relatedYear_length hstored).trans (by decide)
  rw [storeText_of_length hlen] at hj
  cases hj
  refine ⟨_, y, ⟨hstored, hnamed, hs, howner, hfields, hreq, hclean, ?_⟩, ?_, rfl⟩
  · simp [TaxRule.draft, cleared_jurisdiction]
  · have hkey := keyFor_ok hpk
    rwa [cleared_pk] at hkey

/-- an accepted operation, and what it has written -/
inductive TaxWrite (upper : String → String) (db : TaxDb) : TaxOp → TaxDb → Prop
  | year {d : TaxYearDraft} {nextval : ℕ} {row : TaxYear} (hlen : row.jurisdiction.length ≤ 2)
      (h : YearAdmitted upper db d row) : TaxWrite upper db (.saveYear d nextval) (db.writeYear row hlen)
  | deduction {cached : Option ℕ} {d : TaxDeductionDraft} {nextval : ℕ} {row : TaxDeduction} {y : TaxYear}
      (hrow : row.draft = { d with pk := some row.pk }) (hfields : d.cleanFields = [])
      (hy : Admitted db cached row.toTaxYearItem y) (hdate : y.Contains row.date)
      (hkey : KeyOf (fun i : TaxDeduction => i.pk) db.tables.deductions d.pk row.pk) :
      TaxWrite upper db (.saveDeduction cached d nextval) (db.writeDeduction row)
  | allowance {cached : Option ℕ} {d : TaxAllowanceDraft} {nextval : ℕ} {row : TaxAllowance} {y : TaxYear}
      (hrow : row.draft = { d with pk := some row.pk }) (hfields : d.cleanFields = [])
      (hy : Admitted db cached row.toTaxYearItem y)
      (hkey : KeyOf (fun i : TaxAllowance => i.pk) db.tables.allowances d.pk row.pk) :
      TaxWrite upper db (.saveAllowance cached d nextval) (db.writeAllowance row)
  | adjustment {cached : Option ℕ} {d : TaxAdjustmentDraft} {nextval : ℕ} {row : TaxAdjustment} {y : TaxYear}
      (hrow : row.draft = { d with pk := some row.pk }) (hfields : d.cleanFields = [])
      (hy : Admitted db cached row.toTaxYearItem y) (hdate : y.Contains row.date)
      (hkey : KeyOf (fun i : TaxAdjustment => i.pk) db.tables.adjustments d.pk row.pk) :
      TaxWrite upper db (.saveAdjustment cached d nextval) (db.writeAdjustment row)
  | rule {cached : Option ℕ} {d : TaxRuleDraft} {nextval : ℕ} {r : TaxRule} {y : TaxYear}
      (h : RuleAdmitted db cached d r y) (hkey : KeyOf TaxRule.pk db.tables.rules d.pk r.pk) :
      TaxWrite upper db (.saveRule cached d nextval) (db.writeRule r)
  | deleteDeduction {cached : Option ℕ} {pk : ℕ} {y : TaxYear} (hy : db.relatedYear y.pk cached = .ok y)
      (hs : y.status ≠ .filed) : TaxWrite upper db (.deleteDeduction cached pk (some y.pk)) (db.deleteDeduction pk)
  | deleteAllowance {cached : Option ℕ} {pk : ℕ} {y : TaxYear} (hy : db.relatedYear y.pk cached = .ok y)
      (hs : y.status ≠ .filed) : TaxWrite upper db (.deleteAllowance cached pk (some y.pk)) (db.deleteAllowance pk)
  | deleteAdjustment {cached : Option ℕ} {pk : ℕ} {y : TaxYear} (hy : db.relatedYear y.pk cached = .ok y)
      (hs : y.status ≠ .filed) : TaxWrite upper db (.deleteAdjustment cached pk (some y.pk)) (db.deleteAdjustment pk)
  | deleteRule {cached : Option ℕ} {pk : ℕ} {taxYear : Option ℕ}
      (h : ∀ k ∈ taxYear, ∃ y, db.relatedYear k cached = .ok y ∧ y.status ≠ .filed) :
      TaxWrite upper db (.deleteRule cached pk taxYear) (db.deleteRule pk)

theorem map_ok {α β : Type} {x : Except Error α} {f : α → β} {b : β} (h : x.map f = .ok b) :
    ∃ a, x = .ok a ∧ f a = b := by
  cases x with
  | error e => cases h
  | ok a => exact ⟨a, rfl, Except.ok.inj h⟩

/-- **What an accepted operation has written.** A row of one table, admitted against the store as it was, or the
removal of one. -/
theorem step_write {op : TaxOp} (h : db.step upper op = .ok db') : TaxWrite upper db op db' := by
  cases op with
  | saveYear d nextval =>
    obtain ⟨row, hlen, hrow, rfl⟩ := yearSave_ok h
    exact .year hlen hrow
  | saveDeduction cached d nextval =>
    obtain ⟨row, hrow, hfields, ⟨y, hy, hdate⟩, hkey, rfl⟩ := deductionSave_ok h
    exact .deduction hrow hfields hy hdate hkey
  | saveAllowance cached d nextval =>
    obtain ⟨row, hrow, hfields, ⟨y, hy⟩, hkey, rfl⟩ := allowanceSave_ok h
    exact .allowance hrow hfields hy hkey
  | saveAdjustment cached d nextval =>
    obtain ⟨row, hrow, hfields, ⟨y, hy, hdate⟩, hkey, rfl⟩ := adjustmentSave_ok h
    exact .adjustment hrow hfields hy hdate hkey
  | saveRule cached d nextval =>
    obtain ⟨r, y, hr, hkey, rfl⟩ := ruleSave_ok h
    exact .rule hr hkey
  | deleteDeduction cached pk taxYear =>
    obtain ⟨_, hd, rfl⟩ := map_ok h
    obtain ⟨y, rfl, hy, hs⟩ := deletable_ok hd
    exact .deleteDeduction hy hs
  | deleteAllowance cached pk taxYear =>
    obtain ⟨_, hd, rfl⟩ := map_ok h
    obtain ⟨y, rfl, hy, hs⟩ := deletable_ok hd
    exact .deleteAllowance hy hs
  | deleteAdjustment cached pk taxYear =>
    obtain ⟨_, hd, rfl⟩ := map_ok h
    obtain ⟨y, rfl, hy, hs⟩ := deletable_ok hd
    exact .deleteAdjustment hy hs
  | deleteRule cached pk taxYear =>
    obtain ⟨_, hd, rfl⟩ := map_ok h
    refine .deleteRule fun k hk => ?_
    cases hk
    have hd : deletable db cached (some k) = .ok () := hd
    obtain ⟨y, hy, hrelated, hs⟩ := deletable_ok hd
    rw [Option.some.inj hy]
    exact ⟨y, hrelated, hs⟩

end Vault67.Tax
