/-
`ReturnTaxTreatment`, the pages it is edited on, and `tax/services/returns.py`: what a return is estimated to lose in tax.

The pages keep the treatments of all users in one table. The unique constraint is left to `save`: the form has no owner
field.

- `run_sound`: after any requests to the pages, every treatment has a rate between 0 and 100 exactly as its type asks for,
  and no user has two of one name.
- `calculateReturnTax_spec`: such a treatment splits any return into tax and net return.
-/
import Mathlib.Tactic
import Vault67.Tax.Pages

namespace Vault67.Tax

open Fallible Machine

inductive TreatmentType where
  | none | withholding | yearEnd | exempt | custom
deriving DecidableEq, Repr

/-- the rate is a percentage -/
structure ReturnTaxTreatment where
  pk : ℕ
  owner : ℕ
  name : String
  treatmentType : TreatmentType
  taxRate : Option ℚ
  jurisdiction : String
  taxDeductedAtSource : Bool
  notes : String
  active : Bool
deriving DecidableEq, Repr

/-- `taxable_types` -/
def TreatmentType.isTaxable (type : TreatmentType) : Bool := type ∈ [.withholding, .yearEnd, .custom]

/-- the field validators of the model -/
def ReturnTaxTreatment.cleanFields (t : ReturnTaxTreatment) : Errors :=
  raised [
    (decide (t.name = ""), "name", .text "This field cannot be blank."),
    (decide (120 < t.name.length), "name", .outOfBounds),
    (decide (∃ r ∈ t.taxRate, r < 0), "tax_rate", .outOfBounds),
    (decide (∃ r ∈ t.taxRate, 100 < r), "tax_rate", .outOfBounds),
    (decide (∃ r ∈ t.taxRate, ¬FitsDecimal 5 2 r), "tax_rate", .badDecimal 5 2),
    (decide (2 < t.jurisdiction.length), "jurisdiction", .outOfBounds)]

/-- `clean`: the instance afterwards, and the errors -/
def ReturnTaxTreatment.clean (upper : String → String) (t : ReturnTaxTreatment) : ReturnTaxTreatment × Errors :=
  ({ t with jurisdiction := if t.jurisdiction = "" then "" else upper t.jurisdiction },
    errorsOf [
      (decide (t.treatmentType.isTaxable ∧ t.taxRate = Option.none), "tax_rate",
        .text "A tax rate is required for this treatment."),
      (decide (t.treatmentType ∈ [.none, .exempt] ∧ ∃ r ∈ t.taxRate, r ≠ 0), "tax_rate",
        .text "No Tax and Tax Exempt treatments must use a zero or blank rate.")])

/-! ## Pages -/

/-- what the form's fields make of a submission, none where one fails -/
structure TreatmentData where
  name : Option String
  treatmentType : Option TreatmentType
  taxRate : PostedNumber
  jurisdiction : Option String
  taxDeductedAtSource : Bool
  notes : String
deriving DecidableEq, Repr

structure Treatments where
  rows : List ReturnTaxTreatment
  next : ℕ
deriving DecidableEq, Repr

def TreatmentData.failed (data : TreatmentData) : List String :=
  failing [(data.name = none, "name"), (data.treatmentType = none, "treatment_type"), (data.taxRate = .bad, "tax_rate"),
    (data.jurisdiction = none, "jurisdiction")]

/-- the instance of the form: a field that fails keeps its value; `clean_jurisdiction` turns to upper case -/
def TreatmentData.instance (upper : String → String) (stored : ReturnTaxTreatment) (data : TreatmentData) :
    ReturnTaxTreatment :=
  { stored with
    name := data.name.getD stored.name
    treatmentType := data.treatmentType.getD stored.treatmentType
    taxRate := data.taxRate.cleaned stored.taxRate
    jurisdiction := (data.jurisdiction.map upper).getD stored.jurisdiction
    taxDeductedAtSource := data.taxDeductedAtSource
    notes := data.notes }

/-- the row as the columns keep it; a name that the user has already is an IntegrityError -/
def Treatments.save (db : Treatments) (t : ReturnTaxTreatment) : Except Error Treatments := do
  let name ← storeText 120 t.name
  let jurisdiction ← storeText 2 t.jurisdiction
  let t := { t with name := name, jurisdiction := jurisdiction }
  if ∃ u ∈ db.rows, u.pk ≠ t.pk ∧ u.owner = t.owner ∧ u.name = t.name then .error .database
  else if ∃ u ∈ db.rows, u.pk = t.pk then .ok { db with rows := db.rows.map fun u => if u.pk = t.pk then t else u }
  else .ok ⟨db.rows ++ [t], db.next + 1⟩

/-- `is_valid` and `save` of the form -/
def Treatments.submit (upper : String → String) (db : Treatments) (stored : ReturnTaxTreatment) (data : TreatmentData) :
    Except PageError Treatments :=
  let t := data.instance upper stored
  let errors := (t.cleanFields.filter fun e => e.1 ∉ data.failed) ++ (t.clean upper).2
  if data.failed = [] ∧ errors = [] then (db.save (t.clean upper).1).mapError .raised else .error .invalid

inductive TreatmentRequest where
  | create (data : TreatmentData)
  | update (pk : ℕ) (data : TreatmentData)
  | archive (pk : ℕ)

/-- the instance a new form starts from -/
def ReturnTaxTreatment.blank (pk owner : ℕ) : ReturnTaxTreatment := ⟨pk, owner, "", .none, none, "", false, "", true⟩

/-- `get_object_or_404` -/
def Treatments.get (db : Treatments) (p : ReturnTaxTreatment → Bool) : Except PageError ReturnTaxTreatment :=
  (getObject db.rows p).mapError fun _ => .notFound

/-- the views, for a user; only an active treatment can be edited, any can be archived -/
def treatmentPage (upper : String → String) (db : Treatments) : ℕ × TreatmentRequest → Except PageError Treatments
  | (user, .create data) => db.submit upper (.blank db.next user) data
  | (user, .update pk data) => do
    let stored ← db.get fun t => t.pk = pk ∧ t.owner = user ∧ t.active
    db.submit upper stored data
  | (user, .archive pk) => do
    let stored ← db.get fun t => t.pk = pk ∧ t.owner = user
    .ok { db with rows := db.rows.map fun t => if t.pk = stored.pk then { t with active := false } else t }

/-! ## What the pages keep -/

/-- the rate is a percentage, and there when the type needs one -/
structure ReturnTaxTreatment.Sound (t : ReturnTaxTreatment) : Prop where
  percentage : ∀ r ∈ t.taxRate, 0 ≤ r ∧ r ≤ 100 ∧ FitsDecimal 5 2 r
  taxed : t.treatmentType.isTaxable → t.taxRate ≠ none
  untaxed : ¬t.treatmentType.isTaxable → ∀ r ∈ t.taxRate, r = 0

structure Treatments.Sound (db : Treatments) : Prop where
  rows : ∀ t ∈ db.rows, t.Sound
  keys : (db.rows.map ReturnTaxTreatment.pk).Nodup
  below : ∀ t ∈ db.rows, t.pk < db.next
  names : ∀ t ∈ db.rows, ∀ u ∈ db.rows, t.owner = u.owner → t.name = u.name → t.pk = u.pk

theorem isTaxable_eq_false {type : TreatmentType} : ¬type.isTaxable ↔ type ∈ [TreatmentType.none, .exempt] := by
  cases type <;> decide

/-- a treatment that passes its validation -/
theorem sound_of_clean {upper : String → String} {t : ReturnTaxTreatment} (hfields : t.cleanFields = [])
    (hclean : (t.clean upper).2 = []) : t.Sound := by
  rw [ReturnTaxTreatment.cleanFields, raised_eq_nil] at hfields
  rw [ReturnTaxTreatment.clean, errorsOf_eq_nil] at hclean
  simp only [List.forall_mem_cons, decide_eq_false_iff_not, not_exists, not_and, not_lt, not_not] at hfields hclean
  obtain ⟨-, -, hlow, hhigh, hfits, -⟩ := hfields
  obtain ⟨htaxed, huntaxed, -⟩ := hclean
  exact ⟨fun r hr => ⟨hlow r hr, hhigh r hr, hfits r hr⟩, htaxed, fun hno r hr => huntaxed (isTaxable_eq_false.1 hno) r hr⟩

theorem map_replace_pk (t : ReturnTaxTreatment) (rows : List ReturnTaxTreatment) :
    (rows.map fun u => if u.pk = t.pk then t else u).map ReturnTaxTreatment.pk = rows.map ReturnTaxTreatment.pk := by
  rw [List.map_map]
  refine List.map_congr_left fun u _ => ?_
  by_cases hu : u.pk = t.pk <;> simp [hu]

theorem mem_replace {t u : ReturnTaxTreatment} {rows : List ReturnTaxTreatment}
    (hu : u ∈ rows.map fun u => if u.pk = t.pk then t else u) : u = t ∨ u ∈ rows ∧ u.pk ≠ t.pk := by
  obtain ⟨v, hv, rfl⟩ := List.mem_map.1 hu
  by_cases hpk : v.pk = t.pk
  · simp [hpk]
  · simp [hpk, hv]

/-- a row that takes the place of the row with its key, under a name of its own -/
theorem Treatments.Sound.replace {db : Treatments} (h : db.Sound) {t : ReturnTaxTreatment} (ht : t.Sound)
    (hpk : t.pk < db.next) (hname : ∀ u ∈ db.rows, u.pk ≠ t.pk → u.owner = t.owner → u.name ≠ t.name) :
    ({ db with rows := db.rows.map fun u => if u.pk = t.pk then t else u } : Treatments).Sound := by
  refine ⟨fun u hu => ?_, ?_, fun u hu => ?_, fun u hu v hv howner hsame => ?_⟩
  · rcases mem_replace hu with rfl | ⟨hmem, -⟩
    · exact ht
    · exact h.rows u hmem
  · rw [map_replace_pk]
    exact h.keys
  · rcases mem_replace hu with rfl | ⟨hmem, -⟩
    · exact hpk
    · exact h.below u hmem
  · rcases mem_replace hu with rfl | ⟨hold, hne⟩ <;> rcases mem_replace hv with rfl | ⟨hold', hne'⟩
    · rfl
    · exact absurd hsame.symm (hname v hold' hne' howner.symm)
    · exact absurd hsame (hname u hold hne howner)
    · exact h.names u hold v hold' howner hsame

theorem Treatments.Sound.append {db : Treatments} (h : db.Sound) {t : ReturnTaxTreatment} (ht : t.Sound)
    (hpk : t.pk = db.next) (hname : ∀ u ∈ db.rows, u.pk ≠ t.pk → u.owner = t.owner → u.name ≠ t.name) :
    (⟨db.rows ++ [t], db.next + 1⟩ : Treatments).Sound := by
  have hother : ∀ u ∈ db.rows, u.pk ≠ t.pk := fun u hu => by
    have := h.below u hu
    omega
  refine ⟨fun u hu => ?_, ?_, fun u hu => ?_, fun u hu v hv howner hsame => ?_⟩
  · rcases List.mem_append.1 hu with hu | hu
    · exact h.rows u hu
    · rwa [List.mem_singleton.1 hu]
  · rw [List.map_append]
    refine h.keys.append (List.nodup_singleton _) fun pk hin hnew => ?_
    obtain ⟨u, hu, rfl⟩ := List.mem_map.1 hin
    exact hother u hu (by simpa using hnew)
  · rcases List.mem_append.1 hu with hu | hu
    · exact (h.below u hu).trans (Nat.lt_succ_self _)
    · rw [List.mem_singleton.1 hu, hpk]
      exact Nat.lt_succ_self _
  · simp only [List.mem_append, List.mem_singleton] at hu hv
    rcases hu with hu | rfl <;> rcases hv with hv | rfl
    · exact h.names u hu v hv howner hsame
    · exact absurd hsame (hname u hu (hother u hu) howner)
    · exact absurd hsame.symm (hname v hv (hother v hv) howner.symm)
    · rfl

theorem save_sound {db db' : Treatments} (h : db.Sound) {t : ReturnTaxTreatment} (ht : t.Sound)
    (hpk : t.pk = db.next ∨ ∃ u ∈ db.rows, u.pk = t.pk) (hsave : db.save t = .ok db') : db'.Sound := by
  simp only [Treatments.save, bind_eq_ok, ite_error_eq_ok] at hsave
  obtain ⟨name, -, jurisdiction, -, hname, hsave⟩ := hsave
  simp only [not_exists, not_and] at hname
  have hrow : ({ t with name := name, jurisdiction := jurisdiction } : ReturnTaxTreatment).Sound :=
    ⟨ht.percentage, ht.taxed, ht.untaxed⟩
  split_ifs at hsave with hstored
  · cases hsave
    obtain ⟨u, hu, hupk⟩ := hstored
    exact h.replace hrow (hupk ▸ h.below u hu) hname
  · cases hsave
    exact h.append hrow (hpk.resolve_right hstored) hname

theorem submit_sound {upper : String → String} {db db' : Treatments} (h : db.Sound) {stored : ReturnTaxTreatment}
    (hpk : stored.pk = db.next ∨ ∃ u ∈ db.rows, u.pk = stored.pk) {data : TreatmentData}
    (hsubmit : db.submit upper stored data = .ok db') : db'.Sound := by
  unfold Treatments.submit at hsubmit
  dsimp only at hsubmit
  split_ifs at hsubmit with hvalid
  · obtain ⟨hfailed, herrors⟩ := hvalid
    obtain ⟨hfields, hclean⟩ := List.append_eq_nil_iff.1 herrors
    rw [hfailed] at hfields
    have hsound := sound_of_clean (by simpa using hfields) hclean
    have hcleaned : ((data.instance upper stored).clean upper).1.Sound :=
      ⟨hsound.percentage, hsound.taxed, hsound.untaxed⟩
    exact save_sound h hcleaned hpk (mapError_eq_ok.1 hsubmit)

theorem get_mem {db : Treatments} {p : ReturnTaxTreatment → Bool} {t : ReturnTaxTreatment} (h : db.get p = .ok t) :
    t ∈ db.rows := by
  rw [Treatments.get, mapError_eq_ok, getObject] at h
  cases hfind : db.rows.find? p with
  | none => simp [hfind] at h
  | some u =>
    simp only [hfind, Except.ok.injEq] at h
    exact h ▸ List.mem_of_find?_eq_some hfind

/-- one request keeps the table sound, one case for each page -/
theorem treatmentPage_sound {upper : String → String} {db db' : Treatments} (h : db.Sound) {request : ℕ × TreatmentRequest}
    (hpage : treatmentPage upper db request = .ok db') : db'.Sound := by
  obtain ⟨user, request⟩ := request
  cases request with
  | create data => exact submit_sound h (.inl rfl) hpage
  | update pk data =>
    obtain ⟨stored, hstored, hpage⟩ := bind_eq_ok.1 hpage
    exact submit_sound h (.inr ⟨stored, get_mem hstored, rfl⟩) hpage
  | archive pk =>
    obtain ⟨stored, hstored, hpage⟩ := bind_eq_ok.1 hpage
    cases hpage
    have hmem := get_mem hstored
    have hrow := h.rows stored hmem
    -- the row with the key is the one that was loaded
    have hsame : db.rows.map (fun t => if t.pk = stored.pk then { t with active := false } else t) =
        db.rows.map fun t => if t.pk = stored.pk then { stored with active := false } else t := by
      refine List.map_congr_left fun t ht => ?_
      by_cases hpk : t.pk = stored.pk
      · rw [if_pos hpk, if_pos hpk, List.inj_on_of_nodup_map h.keys ht hmem hpk]
      · rw [if_neg hpk, if_neg hpk]
    rw [hsame]
    refine h.replace (t := { stored with active := false }) ⟨hrow.percentage, hrow.taxed, hrow.untaxed⟩
      (h.below stored hmem) fun u hu hne howner hname => hne (h.names u hu stored hmem howner hname)

/-- **After any requests.** Every stored treatment has a percentage as its rate, one when its type is taxed, and keys and
names are unique. -/
theorem run_sound (upper : String → String) (requests : List (ℕ × TreatmentRequest)) :
    (run (treatmentPage upper) ⟨[], 0⟩ requests).Sound := by
  refine run_inv (fun _ => True) (fun db request db' h _ hpage => treatmentPage_sound h hpage) (fun _ _ => trivial) ?_
  constructor <;> simp

/-! ## Tax on a return -/

structure ReturnTaxResult (K : Type) where
  grossReturn : K
  estimatedTax : K
  taxWithheld : K
  estimatedTaxDueLater : K
  netReturn : K
  effectiveTaxRate : K

section

variable {K : Type} [Field K] [LinearOrder K]

/-- none is an account without a treatment; the error is the message of the ValueError -/
def calculateReturnTax (grossReturn : K) (taxTreatment : Option ReturnTaxTreatment) : Except String (ReturnTaxResult K) :=
  if grossReturn < 0 then .error "gross_return must not be negative"
  else
    let treatmentType := (taxTreatment.map ReturnTaxTreatment.treatmentType).getD .none
    let rate := (taxTreatment.bind ReturnTaxTreatment.taxRate).getD 0
    let rateFraction : K := (rate / 100 : ℚ)
    let estimatedTax := if treatmentType.isTaxable then grossReturn * rateFraction else 0
    let atSource := (taxTreatment.map ReturnTaxTreatment.taxDeductedAtSource).getD false
    .ok {
      grossReturn := grossReturn
      estimatedTax := estimatedTax
      taxWithheld := if treatmentType = .withholding ∨ treatmentType = .custom ∧ atSource then estimatedTax else 0
      estimatedTaxDueLater := if treatmentType = .yearEnd ∨ treatmentType = .custom ∧ !atSource then estimatedTax else 0
      netReturn := grossReturn - estimatedTax
      effectiveTaxRate := if treatmentType.isTaxable then rateFraction else 0 }

/-- the return is split into tax and what is left of it -/
structure Taxed (grossReturn : K) (taxTreatment : Option ReturnTaxTreatment) (r : ReturnTaxResult K) : Prop where
  gross : r.grossReturn = grossReturn
  nonneg : 0 ≤ r.estimatedTax
  le : r.estimatedTax ≤ grossReturn
  net : r.estimatedTax + r.netReturn = grossReturn
  rate : r.estimatedTax = grossReturn * r.effectiveTaxRate
  rate_mem : 0 ≤ r.effectiveTaxRate ∧ r.effectiveTaxRate ≤ 1
  /-- withheld or due later, never both -/
  split : r.taxWithheld + r.estimatedTaxDueLater = r.estimatedTax ∧ (r.taxWithheld = 0 ∨ r.estimatedTaxDueLater = 0)
  untaxed : (∀ t ∈ taxTreatment, ¬t.treatmentType.isTaxable) → r.estimatedTax = 0

theorem rateFraction_mem [IsStrictOrderedRing K] {taxTreatment : Option ReturnTaxTreatment}
    (hsound : ∀ t ∈ taxTreatment, t.Sound) :
    0 ≤ (((taxTreatment.bind ReturnTaxTreatment.taxRate).getD 0 / 100 : ℚ) : K) ∧
      (((taxTreatment.bind ReturnTaxTreatment.taxRate).getD 0 / 100 : ℚ) : K) ≤ 1 := by
  have hmem : 0 ≤ (taxTreatment.bind ReturnTaxTreatment.taxRate).getD 0 ∧
      (taxTreatment.bind ReturnTaxTreatment.taxRate).getD 0 ≤ 100 := by
    cases hrate : taxTreatment.bind ReturnTaxTreatment.taxRate with
    | none => simp
    | some r =>
      obtain ⟨t, ht, hr⟩ := Option.bind_eq_some_iff.1 hrate
      obtain ⟨h0, h100, -⟩ := (hsound t ht).percentage r hr
      exact ⟨h0, h100⟩
  refine ⟨Rat.cast_nonneg.2 (div_nonneg hmem.1 (by norm_num)), ?_⟩
  rw [← Rat.cast_one (α := K), Rat.cast_le, div_le_one (by norm_num)]
  exact hmem.2

/-- **A sound treatment splits a return.** The tax on a gross return that is not negative is there at the effective rate,
withheld or due later, and what is left and the tax add up to the return. -/
theorem calculateReturnTax_spec [IsStrictOrderedRing K] {grossReturn : K} (hgross : 0 ≤ grossReturn)
    {taxTreatment : Option ReturnTaxTreatment} (hsound : ∀ t ∈ taxTreatment, t.Sound) :
    ∃ r, calculateReturnTax grossReturn taxTreatment = .ok r ∧ Taxed grossReturn taxTreatment r := by
  refine ⟨_, by rw [calculateReturnTax, if_neg hgross.not_gt], ?_⟩
  obtain ⟨h0, h1⟩ := rateFraction_mem (K := K) hsound
  set fraction : K := (((taxTreatment.bind ReturnTaxTreatment.taxRate).getD 0 / 100 : ℚ) : K)
  refine ⟨rfl, ?_, ?_, add_sub_cancel _ _, ?_, ?_, ?_, ?_⟩
  · dsimp only
    split_ifs
    · exact mul_nonneg hgross h0
    · exact le_refl 0
  · dsimp only
    split_ifs
    · exact mul_le_of_le_one_right hgross h1
    · exact hgross
  · dsimp only
    split_ifs
    · rfl
    · rw [mul_zero]
  · dsimp only
    split_ifs
    · exact ⟨h0, h1⟩
    · exact ⟨le_refl 0, zero_le_one⟩
  · -- each type deducts at once, later, or, for CUSTOM, as its flag says
    cases (taxTreatment.map ReturnTaxTreatment.taxDeductedAtSource).getD false <;>
      cases (taxTreatment.map ReturnTaxTreatment.treatmentType).getD .none <;>
        simp [TreatmentType.isTaxable]
  · intro huntaxed
    cases taxTreatment with
    | none => simp [TreatmentType.isTaxable]
    | some t => simpa using fun h => absurd h (huntaxed t rfl)

end

end Vault67.Tax
