/-
Periods of one owner and jurisdiction.

`TaxYear.clean` upper-cases the jurisdiction and refuses a period that meets a stored one. It compares the text it is
about to store, after the length of the field was checked.

- `yearWrite_disjoint`: a save whose upper-cased jurisdiction fits the column keeps the periods disjoint.
- `mem_reported`: what a summary reports is dated in its year.
- `periods_disjoint`: every run whose saves fit the column.
Witness:
- `periods_overlap_longer`: "ß " has two characters and becomes "SS ", which meets no stored "SS"; the column keeps "SS".
-/
import Mathlib.Tactic
import Vault67.Lib.Machine
import Vault67.Investments.ReplayAgreement
import Vault67.Tax.Coverage
import Vault67.Tax.Writes

namespace Vault67.Tax

open Fallible Investments Machine OrderBy

/-- what is known of `str.upper` -/
structure UpperCase (upper : String → String) : Prop where
  idem : ∀ s, upper (upper s) = upper s
  nonempty : ∀ s, s ≠ "" → upper s ≠ ""

/-- two stored years with the same owner and, but for the letter case, jurisdiction -/
structure SameKind (upper : String → String) (db : TaxDb) (y z : TaxYear) : Prop where
  left : y ∈ db.years
  right : z ∈ db.years
  distinct : y.pk ≠ z.pk
  owner : y.owner = z.owner
  jurisdiction : upper y.jurisdiction = upper z.jurisdiction

/-- the periods have no day in common -/
def TaxYear.Apart (y z : TaxYear) : Prop := y.endDate < z.startDate ∨ z.endDate < y.startDate

instance (y z : TaxYear) : Decidable (y.Apart z) := inferInstanceAs (Decidable (_ ∨ _))

theorem TaxYear.Apart.symm {y z : TaxYear} (h : y.Apart z) : z.Apart y := Or.symm h

theorem TaxYear.Apart.not_contains {y z : TaxYear} (h : y.Apart z) {d : Date} (hy : y.Contains d) : ¬z.Contains d := by
  intro hz
  obtain ⟨hy1, hy2⟩ := hy
  obtain ⟨hz1, hz2⟩ := hz
  rcases h with h | h
  · exact absurd (hz1.trans hy2) (not_le.2 h)
  · exact absurd (hy1.trans hz2) (not_le.2 h)

/-! ## What a summary reports -/

/-- the transactions behind the lines and the review items of a summary -/
def reported (ledger : Db) (y : TaxYear) : List Transaction :=
  (sources ledger y).map Source.transaction ++
    (brokerageAccounts ledger y).flatMap fun a =>
      (saleEvents ledger y a).map fun e => e.investmentTransaction.transaction

theorem saleEvents_contains {ledger : Db} {y : TaxYear} {account : ℕ} {e : RealizedGainEvent}
    (he : e ∈ saleEvents ledger y account) : y.Contains e.investmentTransaction.tradeDate := by
  unfold saleEvents at he
  split at he
  · next events hevents =>
    obtain ⟨he, hstart⟩ := List.mem_filter.1 he
    obtain ⟨earlier, later, hearlier, rfl, hold, -⟩ := calculateRealizedGainEvents_split le_rfl hevents
    rw [hearlier] at hevents
    rw [← Except.ok.inj hevents] at he
    exact ⟨of_decide_eq_true hstart, hold e he⟩
  · simp at he

theorem sources_contains {ledger : Db} {y : TaxYear} {x : Source} (hx : x ∈ sources ledger y) :
    y.Contains x.transaction.transactionDate := by
  rw [sources] at hx
  simp only [List.mem_append, List.mem_map] at hx
  rcases hx with ((⟨e, he, rfl⟩ | ⟨i, hi, rfl⟩) | ⟨e, he, rfl⟩) | ⟨t, ht, rfl⟩
  · rw [interestEntries, mem_orderBy, List.mem_filter] at he
    exact (of_decide_eq_true he.2).2.2.2
  · rw [dividends, mem_orderBy, List.mem_filter] at hi
    exact (of_decide_eq_true hi.2).2.2
  · rw [taxEntries, mem_orderBy, List.mem_filter] at he
    exact (of_decide_eq_true he.2).2.2.2
  · rcases List.mem_append.1 ht with ht | ht
    · rw [unclassifiedIncome, mem_orderBy, List.mem_filter] at ht
      exact (of_decide_eq_true ht.2).2.1
    · rw [genericDividends, mem_orderBy, List.mem_filter] at ht
      exact (of_decide_eq_true ht.2).2.1

theorem mem_reported {ledger : Db} {y : TaxYear} {t : Transaction} (ht : t ∈ reported ledger y) :
    y.Contains t.transactionDate := by
  rcases List.mem_append.1 ht with ht | ht
  · obtain ⟨x, hx, rfl⟩ := List.mem_map.1 ht
    exact sources_contains hx
  · obtain ⟨a, -, ht⟩ := List.mem_flatMap.1 ht
    obtain ⟨e, he, rfl⟩ := List.mem_map.1 ht
    exact saleEvents_contains he

/-! ## Saves -/

variable {upper : String → String} {db db' : TaxDb}

/-- stored jurisdictions are upper case, and years of one kind are disjoint -/
structure PeriodsInv (upper : String → String) (db : TaxDb) : Prop where
  upper_stored : ∀ y ∈ db.years, upper y.jurisdiction = y.jurisdiction
  disjoint : ∀ y z, SameKind upper db y z → y.Apart z

/-- the jurisdiction of a saved year still fits its column in upper case -/
def FitsColumn (upper : String → String) (_ : TaxDb) : TaxOp → Prop
  | .saveYear d _ => (upper d.jurisdiction).length ≤ 2
  | _ => True

theorem periodsInv_init (upper : String → String) : PeriodsInv upper TaxDb.init :=
  ⟨by simp [TaxDb.init], fun _ _ h => by simpa [TaxDb.init] using h.left⟩

theorem yearWrite_disjoint (hupper : UpperCase upper) (h : PeriodsInv upper db) {d : TaxYearDraft} {row : TaxYear}
    (hlen : row.jurisdiction.length ≤ 2) (hrow : YearAdmitted upper db d row)
    (hfits : (upper d.jurisdiction).length ≤ 2) : PeriodsInv upper (db.writeYear row hlen) := by
  have hj : upper d.jurisdiction = row.jurisdiction :=
    Except.ok.inj ((storeText_of_length hfits).symm.trans hrow.stored)
  have hstored : upper row.jurisdiction = row.jurisdiction := by rw [← hj, hupper.idem]
  -- the new row against an old one
  have hnew : ∀ z ∈ db.years, row.pk ≠ z.pk → row.owner = z.owner → upper row.jurisdiction = upper z.jurisdiction →
      row.Apart z := by
    intro z hz hpk howner hjur
    rw [hstored, h.upper_stored z hz] at hjur
    by_contra hmeet
    rw [TaxYear.Apart, not_or, not_lt, not_lt] at hmeet
    refine hpk (hrow.no_overlap (hupper.nonempty _ hrow.nonempty) z hz howner.symm ?_ hmeet.1 hmeet.2).symm
    rw [hj, hjur]
  refine ⟨?_, ?_⟩
  · intro y hy
    rcases Table.mem_write.1 hy with rfl | ⟨hy, -⟩
    · exact hstored
    · exact h.upper_stored y hy
  · intro y z hyz
    rcases Table.mem_write.1 hyz.left with rfl | ⟨hy, -⟩
    · rcases Table.mem_write.1 hyz.right with rfl | ⟨hz, -⟩
      · exact absurd rfl hyz.distinct
      · exact hnew z hz hyz.distinct hyz.owner hyz.jurisdiction
    · rcases Table.mem_write.1 hyz.right with rfl | ⟨hz, -⟩
      · exact (hnew y hy hyz.distinct.symm hyz.owner.symm hyz.jurisdiction.symm).symm
      · exact h.disjoint y z ⟨hy, hz, hyz.distinct, hyz.owner, hyz.jurisdiction⟩

theorem PeriodsInv.of_years (h : PeriodsInv upper db) (hyears : db'.years = db.years) : PeriodsInv upper db' := by
  refine ⟨fun y hy => h.upper_stored y (hyears ▸ hy), fun y z hyz => h.disjoint y z ?_⟩
  exact ⟨hyears ▸ hyz.left, hyears ▸ hyz.right, hyz.distinct, hyz.owner, hyz.jurisdiction⟩

theorem step_periodsInv (hupper : UpperCase upper) {op : TaxOp} (h : PeriodsInv upper db)
    (hfits : FitsColumn upper db op) (hstep : db.step upper op = .ok db') : PeriodsInv upper db' := by
  cases step_write hstep with
  | year hlen hrow => exact yearWrite_disjoint hupper h hlen hrow hfits
  | deduction | allowance | adjustment | rule | deleteDeduction | deleteAllowance | deleteAdjustment | deleteRule =>
    exact h.of_years rfl

/-! ## Runs -/

/-- periods are valid, those of one kind are disjoint, and no two years of one kind report the same transaction -/
structure PeriodsDisjoint (upper : String → String) (db : TaxDb) : Prop where
  valid : ∀ y ∈ db.years, y.startDate ≤ y.endDate
  disjoint : ∀ y z, SameKind upper db y z → y.Apart z
  reported_once : ∀ y z, SameKind upper db y z → ∀ ledger t, t ∈ reported ledger y → t ∉ reported ledger z

theorem PeriodsInv.periodsDisjoint (h : PeriodsInv upper db) : PeriodsDisjoint upper db := by
  refine ⟨fun y _ => y.dates_valid, h.disjoint, fun y z hyz ledger t hy hz => ?_⟩
  exact (h.disjoint y z hyz).not_contains (mem_reported hy) (mem_reported hz)

/-- **Disjoint periods.** In every run whose saved years fit the column in upper case, no two years of one user, name and
jurisdiction overlap in any state, and none report the same transaction. -/
theorem periods_disjoint (hupper : UpperCase upper) {ops : List TaxOp}
    (h : Guarded (TaxDb.step upper) (FitsColumn upper) TaxDb.init ops) :
    Throughout (TaxDb.step upper) (PeriodsDisjoint upper) TaxDb.init ops := by
  have hinv : Throughout (TaxDb.step upper) (PeriodsInv upper) TaxDb.init ops :=
    throughout_of_guarded (fun _ _ _ hI hfits hstep => step_periodsInv hupper hI hfits hstep) (periodsInv_init upper) h
  exact hinv.imp fun _ hI => hI.periodsDisjoint

/-- `str.upper` on texts of blanks, capital letters and sharp s -/
def upperSharp (s : String) : String :=
  String.ofList (s.toList.flatMap fun c => if c = 'ß' then ['S', 'S'] else [c])

theorem upperSharp_upperCase : UpperCase upperSharp := by
  have hidem : ∀ c : Char, (if c = 'ß' then ['S', 'S'] else [c]).flatMap (fun c => if c = 'ß' then ['S', 'S'] else [c]) =
      if c = 'ß' then ['S', 'S'] else [c] := by
    intro c
    split_ifs with h
    · rfl
    · simp [h]
  refine ⟨?_, ?_⟩
  · intro s
    simp only [upperSharp, String.toList_ofList, List.flatMap_assoc, hidem]
  · intro s hs h
    have hnil : s.toList.flatMap (fun c => if c = 'ß' then ['S', 'S'] else [c]) = [] := by
      rw [← String.toList_ofList (l := List.flatMap _ _)]
      exact congrArg String.toList h
    refine hs (String.toList_eq_nil_iff.1 (List.eq_nil_iff_forall_not_mem.2 fun c hc => ?_))
    have hc' := List.flatMap_eq_nil_iff.1 hnil c hc
    split_ifs at hc'

def period (pk : Option ℕ) (name jurisdiction : String) (startDate endDate : Date) : TaxYearDraft :=
  ⟨pk, some 1, name, jurisdiction, some startDate, some endDate, some 0, .open, ""⟩

/-- two years of "SS", back to back -/
def backToBack : List TaxOp :=
  [.saveYear (period none "first" "SS" 0 364) 0, .saveYear (period none "second" "SS" 365 729) 1]

theorem periods_disjoint_backToBack :
    Throughout (TaxDb.step upperSharp) (PeriodsDisjoint upperSharp) TaxDb.init backToBack := by
  refine periods_disjoint upperSharp_upperCase ?_
  rw [backToBack, guarded_cons, guarded_cons]
  have hfits : (upperSharp "SS").length ≤ 2 := by decide
  exact ⟨fun _ _ => hfits, fun _ _ => hfits, guarded_nil _⟩

/-- the second year is stored with the jurisdiction and the period of the first -/
theorem periods_overlap_longer :
    ¬Throughout (TaxDb.step upperSharp) (PeriodsDisjoint upperSharp) TaxDb.init
      [.saveYear (period none "first" "SS" 0 364) 0, .saveYear (period none "second" "ß " 0 364) 1] := by
  intro h
  have hlast := (h _ (List.prefix_refl _)).disjoint
  let first : TaxYear := ⟨0, 1, "first", "SS", 0, 364, 0, .open, "", by decide⟩
  let second : TaxYear := ⟨1, 1, "second", "SS", 0, 364, 0, .open, "", by decide⟩
  have hyears : (run (TaxDb.step upperSharp) TaxDb.init
      [.saveYear (period none "first" "SS" 0 364) 0, .saveYear (period none "second" "ß " 0 364) 1]).years =
        [first, second] := by decide
  have hkind : SameKind upperSharp _ first second :=
    ⟨by rw [hyears]; exact List.mem_cons_self, by rw [hyears]; exact List.mem_cons_of_mem _ List.mem_cons_self, by decide,
      rfl, rfl⟩
  exact absurd (hlast first second hkind) (by decide)

end Vault67.Tax
