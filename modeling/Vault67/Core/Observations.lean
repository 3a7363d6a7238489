/-
Which observation a rate comes from.

- `getFxRate_newest`: a rate is missing exactly when the pair was never observed by the cutoff; otherwise it is the rate or
  the reciprocal of a newest observation, and observations after the cutoff or before the newest one do not change it.
- `getFxRate_inverse`: the rates of the two directions are found together, and they are reciprocal unless both directions
  were last observed on the same day.
-/
import Mathlib.Tactic
import Vault67.Core.Fx

namespace Vault67

open OrderBy

/-! ## Observations of a pair -/

/-- an observation of the pair, in either direction -/
def ExchangeRate.Between (a b : ℕ) (r : ExchangeRate) : Prop :=
  (r.baseCurrency = a ∧ r.quoteCurrency = b) ∨ (r.baseCurrency = b ∧ r.quoteCurrency = a)

/-- an observation of the pair dated on or before the cutoff -/
structure Known (fx : Fx) (a b : ℕ) (cutoff : Date) (r : ExchangeRate) : Prop where
  mem : r ∈ fx.rates
  between : r.Between a b
  date_le : r.date ≤ cutoff

/-- units of the quote currency for one unit of the source, from an observation in either direction -/
def ExchangeRate.unitsFor (source : ℕ) (r : ExchangeRate) : ℚ := if r.baseCurrency = source then r.rate else 1 / r.rate

/-- `unique_fx_rate` -/
def UniqueRates (fx : Fx) : Prop :=
  (fx.rates.map fun r => (r.date, r.baseCurrency, r.quoteCurrency, r.source)).Nodup

variable {fx fx' : Fx} {source target base quote : ℕ} {cutoff : Date} {r : ExchangeRate}

theorem ExchangeRate.between_comm {a b : ℕ} : r.Between a b ↔ r.Between b a := or_comm

theorem Known.symm (h : Known fx source target cutoff r) : Known fx target source cutoff r :=
  ⟨h.mem, ExchangeRate.between_comm.1 h.between, h.date_le⟩

theorem observation_eq_none :
    observation fx base quote cutoff = none ↔
      ∀ r ∈ fx.rates, r.baseCurrency = base → r.quoteCurrency = quote → cutoff < r.date := by
  rw [observation, head?_orderBy_eq_none, List.filter_eq_nil_iff]
  simp

theorem observation_spec (h : observation fx base quote cutoff = some r) :
    r ∈ fx.rates ∧ r.baseCurrency = base ∧ r.quoteCurrency = quote ∧ r.date ≤ cutoff ∧
      ∀ r' ∈ fx.rates, r'.baseCurrency = base → r'.quoteCurrency = quote → r'.date ≤ cutoff → r'.date ≤ r.date := by
  obtain ⟨hmem, hle⟩ := head?_orderBy_le h
  simp only [List.mem_filter, decide_eq_true_eq] at hmem hle
  obtain ⟨hrates, hbase, hquote, hdate⟩ := hmem
  refine ⟨hrates, hbase, hquote, hdate, fun r' hr' hb hq hc => ?_⟩
  have hkey := hle r' ⟨hr', hb, hq, hc⟩
  rw [newestFirst, newestFirst, Prod.Lex.toLex_le_toLex] at hkey
  rcases hkey with hlt | ⟨heq, -⟩
  · exact (OrderDual.toDual_lt_toDual.1 hlt).le
  · exact (OrderDual.toDual_inj.1 heq).ge

/-! ## The selected observation -/

/-- the observation the rate is taken from: the newer one of the two directions, the direct one when they are of one day -/
def selected (fx : Fx) (source target : ℕ) (cutoff : Date) : Option ExchangeRate :=
  match observation fx source target cutoff, observation fx target source cutoff with
  | some direct, some inverse => some (if inverse.date ≤ direct.date then direct else inverse)
  | some direct, none => some direct
  | none, inverse => inverse

theorem getFxRate_eq (hne : source ≠ target) (asOfDate : Option Date) :
    getFxRate fx source target asOfDate =
      match selected fx source target (asOfDate.getD fx.today) with
      | some r => .ok (r.unitsFor source)
      | none => .error ⟨source, target, asOfDate.getD fx.today⟩ := by
  unfold getFxRate selected
  rw [if_neg hne]
  dsimp only
  have hdirect : ∀ r, observation fx source target (asOfDate.getD fx.today) = some r → r.unitsFor source = r.rate :=
    fun r h => if_pos (observation_spec h).2.1
  have hinverse : ∀ r, observation fx target source (asOfDate.getD fx.today) = some r → r.unitsFor source = 1 / r.rate :=
    fun r h => if_neg fun hbase => hne (hbase.symm.trans (observation_spec h).2.1)
  cases hd : observation fx source target (asOfDate.getD fx.today) with
  | none =>
    cases hi : observation fx target source (asOfDate.getD fx.today) with
    | none => rfl
    | some inverse => simp only [hinverse inverse hi]
  | some direct =>
    cases hi : observation fx target source (asOfDate.getD fx.today) with
    | none => simp only [hdirect direct hd]
    | some inverse =>
      dsimp only
      split_ifs
      · rw [hdirect direct hd]
      · rw [hinverse inverse hi]

/-- a known observation that no known observation is newer than -/
structure Newest (fx : Fx) (a b : ℕ) (cutoff : Date) (r : ExchangeRate) : Prop extends Known fx a b cutoff r where
  newest : ∀ r', Known fx a b cutoff r' → r'.date ≤ r.date

theorem selected_eq_none : selected fx source target cutoff = none ↔ ∀ r, ¬Known fx source target cutoff r := by
  have hnone : selected fx source target cutoff = none ↔
      observation fx source target cutoff = none ∧ observation fx target source cutoff = none := by
    unfold selected
    split <;> simp_all
  rw [hnone, observation_eq_none, observation_eq_none]
  refine ⟨fun h r hr => ?_, fun h => ⟨fun r hr hb hq => ?_, fun r hr hb hq => ?_⟩⟩
  · rcases hr.between with ⟨hb, hq⟩ | ⟨hb, hq⟩
    · exact absurd hr.date_le (not_le.2 (h.1 r hr.mem hb hq))
    · exact absurd hr.date_le (not_le.2 (h.2 r hr.mem hb hq))
  · exact not_le.1 fun hdate => h r ⟨hr, .inl ⟨hb, hq⟩, hdate⟩
  · exact not_le.1 fun hdate => h r ⟨hr, .inr ⟨hb, hq⟩, hdate⟩

/-- an observation is not newer than that of its own direction -/
theorem Known.date_le_observation (hr : Known fx source target cutoff r) :
    (∃ direct, observation fx source target cutoff = some direct ∧ r.date ≤ direct.date) ∨
      ∃ inverse, observation fx target source cutoff = some inverse ∧ r.date ≤ inverse.date := by
  rcases hr.between with ⟨hb, hq⟩ | ⟨hb, hq⟩
  · cases hd : observation fx source target cutoff with
    | none => exact absurd hr.date_le (not_le.2 (observation_eq_none.1 hd r hr.mem hb hq))
    | some direct => exact .inl ⟨direct, rfl, (observation_spec hd).2.2.2.2 r hr.mem hb hq hr.date_le⟩
  · cases hi : observation fx target source cutoff with
    | none => exact absurd hr.date_le (not_le.2 (observation_eq_none.1 hi r hr.mem hb hq))
    | some inverse => exact .inr ⟨inverse, rfl, (observation_spec hi).2.2.2.2 r hr.mem hb hq hr.date_le⟩

theorem known_of_direct (h : observation fx source target cutoff = some r) : Known fx source target cutoff r := by
  obtain ⟨hmem, hb, hq, hdate, -⟩ := observation_spec h
  exact ⟨hmem, .inl ⟨hb, hq⟩, hdate⟩

theorem selected_eq_some :
    selected fx source target cutoff = some r ↔
      (observation fx source target cutoff = some r ∧
        ∀ inverse ∈ observation fx target source cutoff, inverse.date ≤ r.date) ∨
      (observation fx target source cutoff = some r ∧
        ∀ direct ∈ observation fx source target cutoff, direct.date < r.date) := by
  unfold selected
  cases observation fx source target cutoff with
  | none => simp
  | some direct =>
    cases observation fx target source cutoff with
    | none => simp
    | some inverse =>
      dsimp only
      by_cases hle : inverse.date ≤ direct.date
      · rw [if_pos hle]
        grind
      · rw [if_neg hle]
        grind

theorem selected_newest (h : selected fx source target cutoff = some r) : Newest fx source target cutoff r := by
  rcases selected_eq_some.1 h with ⟨hd, hi⟩ | ⟨hi, hd⟩
  · refine ⟨known_of_direct hd, fun r' hr' => ?_⟩
    rcases hr'.date_le_observation with ⟨direct, hdirect, hle⟩ | ⟨inverse, hinverse, hle⟩
    · cases hd.symm.trans hdirect
      exact hle
    · exact hle.trans (hi inverse hinverse)
  · refine ⟨(known_of_direct hi).symm, fun r' hr' => ?_⟩
    rcases hr'.date_le_observation with ⟨direct, hdirect, hle⟩ | ⟨inverse, hinverse, hle⟩
    · exact hle.trans (hd direct hdirect).le
    · cases hi.symm.trans hinverse
      exact hle

/-! ## Further observations -/

/-- fx' is fx with further observations, none of them newer than what was known of the pair by the cutoff -/
structure Extends (fx fx' : Fx) (a b : ℕ) (cutoff : Date) (added : List ExchangeRate) : Prop where
  rates : fx'.rates.Perm (fx.rates ++ added)
  unique : UniqueRates fx'
  outside : ∀ x ∈ added, x.Between a b → cutoff < x.date ∨ ∃ r, Known fx a b cutoff r ∧ x.date < r.date

variable {added : List ExchangeRate}

theorem Extends.symm (h : Extends fx fx' source target cutoff added) : Extends fx fx' target source cutoff added := by
  refine ⟨h.rates, h.unique, fun x hx hbetween => ?_⟩
  rcases h.outside x hx (ExchangeRate.between_comm.1 hbetween) with hlate | ⟨r, hr, hlt⟩
  · exact .inl hlate
  · exact .inr ⟨r, hr.symm, hlt⟩

/-- two observations of one direction, day, source and time are one -/
theorem UniqueRates.eq_of_key (h : UniqueRates fx) {a b : ExchangeRate} (ha : a ∈ fx.rates) (hb : b ∈ fx.rates)
    (hbase : a.baseCurrency = b.baseCurrency) (hquote : a.quoteCurrency = b.quoteCurrency)
    (hkey : newestFirst a = newestFirst b) : a = b := by
  have hfields := toLex_inj.1 hkey
  have hdate : a.date = b.date := OrderDual.toDual_inj.1 (congrArg Prod.fst hfields)
  have hsource : a.source = b.source := congrArg Prod.fst (toLex_inj.1 (congrArg Prod.snd hfields))
  refine List.inj_on_of_nodup_map h ha hb ?_
  rw [hdate, hbase, hquote, hsource]

/-- a known observation of the larger table that is newest was known before -/
theorem Extends.date_le (h : Extends fx fx' source target cutoff added) (hr : Newest fx source target cutoff r)
    {x : ExchangeRate} (hx : Known fx' source target cutoff x) :
    x.date < r.date ∨ Known fx source target cutoff x := by
  rcases List.mem_append.1 (h.rates.mem_iff.1 hx.mem) with hold | hnew
  · exact .inr ⟨hold, hx.between, hx.date_le⟩
  · rcases h.outside x hnew hx.between with hlate | ⟨r', hr', hlt⟩
    · exact absurd hx.date_le (not_le.2 hlate)
    · exact .inl (hlt.trans_le (hr.newest r' hr'))

/-- the newest observation of a direction stays the first of it -/
theorem Extends.observation (h : Extends fx fx' source target cutoff added) (hr : Newest fx source target cutoff r)
    (hobserved : observation fx source target cutoff = some r) : observation fx' source target cutoff = some r := by
  obtain ⟨hmem, hle⟩ := head?_orderBy_le hobserved
  simp only [List.mem_filter, decide_eq_true_eq] at hmem hle
  obtain ⟨hrates, hb, hq, hdate⟩ := hmem
  refine (head?_orderBy_eq_some fun a ha b hb' => ?_).2 ⟨?_, fun x hx => ?_⟩
  · simp only [List.mem_filter, decide_eq_true_eq] at ha hb'
    exact h.unique.eq_of_key ha.1 hb'.1 (ha.2.1.trans hb'.2.1.symm) (ha.2.2.1.trans hb'.2.2.1.symm)
  · simp only [List.mem_filter, decide_eq_true_eq]
    exact ⟨h.rates.mem_iff.2 (List.mem_append_left _ hrates), hb, hq, hdate⟩
  · simp only [List.mem_filter, decide_eq_true_eq] at hx
    obtain ⟨hx, hxb, hxq, hxdate⟩ := hx
    rcases h.date_le hr ⟨hx, .inl ⟨hxb, hxq⟩, hxdate⟩ with hlt | hknown
    · exact Prod.Lex.toLex_le_toLex.2 (.inl (OrderDual.toDual_lt_toDual.2 hlt))
    · exact hle x ⟨hknown.mem, hxb, hxq, hxdate⟩

theorem Newest.symm (h : Newest fx source target cutoff r) : Newest fx target source cutoff r :=
  ⟨h.toKnown.symm, fun r' hr' => h.newest r' hr'.symm⟩

theorem Extends.selected (h : Extends fx fx' source target cutoff added) :
    selected fx' source target cutoff = selected fx source target cutoff := by
  cases hr : Vault67.selected fx source target cutoff with
  | none =>
    rw [selected_eq_none] at hr ⊢
    intro x hx
    rcases List.mem_append.1 (h.rates.mem_iff.1 hx.mem) with hold | hnew
    · exact hr x ⟨hold, hx.between, hx.date_le⟩
    · rcases h.outside x hnew hx.between with hlate | ⟨r', hr', -⟩
      · exact absurd hx.date_le (not_le.2 hlate)
      · exact hr r' hr'
  | some r =>
    have hnewest := selected_newest hr
    rcases selected_eq_some.1 hr with ⟨hd, hi⟩ | ⟨hi, hd⟩
    · refine selected_eq_some.2 (.inl ⟨h.observation hnewest hd, fun x hx => ?_⟩)
      rcases h.date_le hnewest (known_of_direct hx).symm with hlt | hknown
      · exact hlt.le
      · exact hnewest.newest x hknown
    · refine selected_eq_some.2 (.inr ⟨h.symm.observation hnewest.symm hi, fun x hx => ?_⟩)
      rcases h.date_le hnewest (known_of_direct hx) with hlt | hknown
      · exact hlt
      · -- x is a known direct observation, and those are older
        obtain ⟨-, hb, hq, -⟩ := observation_spec hx
        cases hdirect : Vault67.observation fx source target cutoff with
        | none => exact absurd hknown.date_le (not_le.2 (observation_eq_none.1 hdirect x hknown.mem hb hq))
        | some direct =>
          exact ((observation_spec hdirect).2.2.2.2 x hknown.mem hb hq hknown.date_le).trans_lt (hd direct hdirect)

/-- **The rate is that of a newest observation.** It is missing exactly when the pair was not observed by the cutoff, and
observations after the cutoff, or before the newest one, leave it as it is, wherever they stand in the table. -/
theorem getFxRate_newest (fx : Fx) {source target : ℕ} (hne : source ≠ target) (asOfDate : Option Date) :
    ((∃ e, getFxRate fx source target asOfDate = .error e) ↔
      ∀ r, ¬Known fx source target (asOfDate.getD fx.today) r) ∧
    (∀ rate, getFxRate fx source target asOfDate = .ok rate → 0 < rate ∧
      ∃ r, Newest fx source target (asOfDate.getD fx.today) r ∧ rate = r.unitsFor source) ∧
    ∀ fx' added, fx'.today = fx.today → Extends fx fx' source target (asOfDate.getD fx.today) added →
      getFxRate fx' source target asOfDate = getFxRate fx source target asOfDate := by
  refine ⟨?_, fun rate h => ⟨getFxRate_pos h, ?_⟩, fun fx' added htoday h => ?_⟩
  · rw [getFxRate_eq hne, ← selected_eq_none]
    cases selected fx source target (asOfDate.getD fx.today) <;> simp
  · rw [getFxRate_eq hne] at h
    cases hr : selected fx source target (asOfDate.getD fx.today) with
    | none =>
      rw [hr] at h
      cases h
    | some r =>
      rw [hr] at h
      cases h
      exact ⟨r, selected_newest hr, rfl⟩
  · rw [getFxRate_eq hne, getFxRate_eq hne, htoday, h.selected]

/-- 1 of currency 2 is 1.20 of currency 3 on day 1, and 1 of currency 3 is 0.80 of currency 2 on day 32 -/
def twoObservations : Fx where
  rates := [⟨1, 2, 3, 12 / 10, "manual", 0, by decide, by norm_num⟩, ⟨32, 3, 2, 8 / 10, "manual", 1, by decide, by norm_num⟩]
  today := 40

theorem getFxRate_newest_inverse : ∃ r, Newest twoObservations 2 3 33 r ∧ 10 / 8 = r.unitsFor 2 :=
  ((getFxRate_newest twoObservations (by decide) (some 33)).2.1 (10 / 8) (by decide +kernel)).2

/-! ## The two directions -/

/-- both directions were last observed on the same day -/
structure Tied (fx : Fx) (a b : ℕ) (cutoff : Date) (direct inverse : ExchangeRate) : Prop where
  ne : a ≠ b
  direct_eq : observation fx a b cutoff = some direct
  inverse_eq : observation fx b a cutoff = some inverse
  same_day : direct.date = inverse.date

variable {a b : ℕ} {direct inverse : ExchangeRate}

theorem Tied.symm (h : Tied fx a b cutoff direct inverse) : Tied fx b a cutoff inverse direct :=
  ⟨h.ne.symm, h.inverse_eq, h.direct_eq, h.same_day.symm⟩

theorem Tied.selected (h : Tied fx a b cutoff direct inverse) : selected fx a b cutoff = some direct := by
  refine selected_eq_some.2 (.inl ⟨h.direct_eq, fun i hi => ?_⟩)
  cases h.inverse_eq.symm.trans hi
  exact h.same_day.ge

/-- a direction takes its own observation -/
theorem Tied.rate (h : Tied fx a b cutoff direct inverse) : direct.unitsFor a = direct.rate :=
  if_pos (observation_spec h.direct_eq).2.1

/-- without a tie the two directions select the same observation -/
theorem selected_comm (hne : a ≠ b) (h : ¬∃ direct inverse, Tied fx a b cutoff direct inverse) :
    selected fx b a cutoff = selected fx a b cutoff := by
  unfold selected
  cases hd : observation fx a b cutoff with
  | none => cases observation fx b a cutoff <;> rfl
  | some direct =>
    cases hi : observation fx b a cutoff with
    | none => rfl
    | some inverse =>
      have hdate : direct.date ≠ inverse.date := fun hdate => h ⟨direct, inverse, hne, hd, hi, hdate⟩
      rcases lt_or_gt_of_ne hdate with hlt | hlt
      · simp [hlt.le, not_le.2 hlt]
      · simp [hlt.le, not_le.2 hlt]

theorem unitsFor_mul_unitsFor (hne : a ≠ b) (h : r.Between a b) : r.unitsFor a * r.unitsFor b = 1 := by
  have hrate : r.rate ≠ 0 := r.rate_pos.ne'
  unfold ExchangeRate.unitsFor
  rcases h with ⟨hbase, -⟩ | ⟨hbase, -⟩
  · rw [if_pos hbase, if_neg (hbase ▸ hne), mul_one_div_cancel hrate]
  · rw [if_neg (hbase ▸ hne.symm), if_pos hbase, one_div_mul_cancel hrate]

theorem exists_getFxRate_comm (fx : Fx) (a b : ℕ) (asOfDate : Option Date) :
    (∃ r, getFxRate fx a b asOfDate = .ok r) ↔ ∃ r, getFxRate fx b a asOfDate = .ok r := by
  by_cases hab : a = b
  · rw [hab]
  have hknown : selected fx a b (asOfDate.getD fx.today) = none ↔ selected fx b a (asOfDate.getD fx.today) = none := by
    rw [selected_eq_none, selected_eq_none]
    exact ⟨fun h r hr => h r hr.symm, fun h r hr => h r hr.symm⟩
  rw [getFxRate_eq hab, getFxRate_eq (Ne.symm hab)]
  cases hs : selected fx a b (asOfDate.getD fx.today) <;> cases ht : selected fx b a (asOfDate.getD fx.today) <;> simp_all

theorem convert_back {rate rate' amount : ℚ} {asOfDate : Option Date} (h : getFxRate fx a b asOfDate = .ok rate)
    (h' : getFxRate fx b a asOfDate = .ok rate') (hmul : rate * rate' = 1) :
    (convertCurrency fx amount a b asOfDate >>= fun x => convertCurrency fx x b a asOfDate) = .ok amount := by
  unfold convertCurrency
  rw [h, h']
  show Except.ok (amount * rate * rate') = Except.ok amount
  rw [mul_assoc, hmul, mul_one]

/-- **The two directions are found together.** They are reciprocal, and an amount converted and converted back is the
amount, unless both were last observed on the same day: then each direction has the rate of its own observation. -/
theorem getFxRate_inverse (fx : Fx) (a b : ℕ) (asOfDate : Option Date) :
    ((∃ rate, getFxRate fx a b asOfDate = .ok rate) ↔ ∃ rate, getFxRate fx b a asOfDate = .ok rate) ∧
    ∀ rate rate', getFxRate fx a b asOfDate = .ok rate → getFxRate fx b a asOfDate = .ok rate' →
      ((¬∃ direct inverse, Tied fx a b (asOfDate.getD fx.today) direct inverse) → rate * rate' = 1 ∧
        ∀ amount, (convertCurrency fx amount a b asOfDate >>= fun x => convertCurrency fx x b a asOfDate) = .ok amount) ∧
      ∀ direct inverse, Tied fx a b (asOfDate.getD fx.today) direct inverse →
        rate = direct.rate ∧ rate' = inverse.rate := by
  refine ⟨exists_getFxRate_comm fx a b asOfDate, fun rate rate' h h' => ⟨fun hties => ?_, fun direct inverse htied => ?_⟩⟩
  · have hmul : rate * rate' = 1 := by
      by_cases hab : a = b
      · simp only [getFxRate, hab, if_true] at h h'
        cases h
        cases h'
        exact one_mul 1
      rw [getFxRate_eq hab] at h
      rw [getFxRate_eq (Ne.symm hab), selected_comm hab hties] at h'
      cases hr : selected fx a b (asOfDate.getD fx.today) with
      | none =>
        rw [hr] at h
        cases h
      | some r =>
        rw [hr] at h h'
        cases h
        cases h'
        exact unitsFor_mul_unitsFor hab (selected_newest hr).between
    exact ⟨hmul, fun amount => convert_back h h' hmul⟩
  · rw [getFxRate_eq htied.ne, htied.selected] at h
    rw [getFxRate_eq htied.symm.ne, htied.symm.selected] at h'
    cases h
    cases h'
    exact ⟨htied.rate, htied.symm.rate⟩

/-- on day 1, 1 of currency 2 is 2 of currency 3, and 1 of currency 3 is 1 of currency 2 -/
def twoQuotes : Fx where
  rates := [⟨1, 2, 3, 2, "manual", 0, by decide, by norm_num⟩, ⟨1, 3, 2, 1, "manual", 1, by decide, by norm_num⟩]
  today := 1

/-- the rates of the two directions multiply to 2 -/
theorem sameDay_not_reciprocal :
    UniqueRates twoQuotes ∧ getFxRate twoQuotes 2 3 (some 1) = .ok 2 ∧ getFxRate twoQuotes 3 2 (some 1) = .ok 1 ∧
      (2 : ℚ) * 1 ≠ 1 := by
  refine ⟨?_, ?_, ?_, ?_⟩
  · unfold UniqueRates
    decide +kernel
  · decide +kernel
  · decide +kernel
  · norm_num

end Vault67
