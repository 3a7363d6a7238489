/-
Calendar months as stretches of day numbers.

- `startOfMonth`: `d.replace(day=1)`. `startOfMonth_eq_iff`: the days of a month are those of its stretch.
- `truncMonth`: the month of a day number.
- `previousMonth`: `(d - timedelta(days=1)).replace(day=1)`. `previousMonth_ends`: it ends where d begins.
- `monthsBack`: a month and those before it, newest first. `consecutive_monthsBack`: each ends where the next begins.
- `sum_months`: over consecutive months, what changes in each adds up to what changes overall.
-/
import Mathlib.Tactic
import Vault67.Lib.CalendarText

namespace Vault67

theorem daysInMonth_pos (year month : ℕ) : 1 ≤ daysInMonth year month := by
  unfold daysInMonth
  split_ifs <;> norm_num

namespace CivilDate

/-! ## Order of days -/

theorem daysBeforeYear_mono {y z : ℕ} (hy : 1 ≤ y) (h : y ≤ z) : daysBeforeYear y ≤ daysBeforeYear z := by
  induction z, h using Nat.le_induction with
  | base => exact le_refl _
  | succ z hz ih =>
    rw [daysBeforeYear_succ (hy.trans hz)]
    omega

theorem daysBeforeMonth_mono (year : ℕ) {m n : ℕ} (hm : 1 ≤ m) (h : m ≤ n) : daysBeforeMonth year m ≤ daysBeforeMonth year n := by
  induction n, h using Nat.le_induction with
  | base => exact le_refl _
  | succ n hn ih =>
    rw [daysBeforeMonth_succ (hm.trans hn)]
    omega

/-- a day lies within its month, and its month within its year -/
theorem ordinal_le_month (d : CivilDate) :
    daysBeforeYear d.year + daysBeforeMonth d.year d.month < d.ordinal ∧
      d.ordinal ≤ daysBeforeYear d.year + daysBeforeMonth d.year (d.month + 1) := by
  have hday := d.day_range
  rw [daysBeforeMonth_succ d.month_range.1, ordinal]
  omega

theorem ordinal_le_year (d : CivilDate) : daysBeforeYear d.year < d.ordinal ∧ d.ordinal ≤ daysBeforeYear (d.year + 1) := by
  have hmonth := d.ordinal_le_month
  have hle : daysBeforeMonth d.year (d.month + 1) ≤ daysBeforeMonth d.year 13 :=
    daysBeforeMonth_mono d.year (by omega) (by have := d.month_range; omega)
  rw [daysBeforeYear_succ d.year_range.1, ← daysBeforeMonth_thirteen]
  omega

theorem ordinal_injective {d e : CivilDate} (h : d.ordinal = e.ordinal) : d = e := by
  have hyear : d.year = e.year := by
    rcases lt_trichotomy d.year e.year with hlt | heq | hlt
    · have := daysBeforeYear_mono (by omega) (show d.year + 1 ≤ e.year from hlt)
      have := d.ordinal_le_year
      have := e.ordinal_le_year
      omega
    · exact heq
    · have := daysBeforeYear_mono (by omega) (show e.year + 1 ≤ d.year from hlt)
      have := d.ordinal_le_year
      have := e.ordinal_le_year
      omega
  have hd := d.ordinal_le_month
  have he := e.ordinal_le_month
  rw [hyear] at hd
  have hmonth : d.month = e.month := by
    rcases lt_trichotomy d.month e.month with hlt | heq | hlt
    · have := daysBeforeMonth_mono e.year (by omega) (show d.month + 1 ≤ e.month from hlt)
      omega
    · exact heq
    · have := daysBeforeMonth_mono e.year (by omega) (show e.month + 1 ≤ d.month from hlt)
      omega
  have hday : d.day = e.day := by
    rw [ordinal, ordinal, hyear, hmonth] at h
    omega
  cases d
  cases e
  simp_all

theorem ordinal_le_max (d : CivilDate) : d.ordinal ≤ maxOrdinal := by
  have hyear := d.ordinal_le_year
  have hmono := daysBeforeYear_mono (y := d.year + 1) (z := 10000) (by omega) (by have := d.year_range; omega)
  have hmax : daysBeforeYear 10000 = maxOrdinal := rfl
  omega

theorem fromOrdinal_ordinal (d : CivilDate) : fromOrdinal d.ordinal = some d := by
  obtain ⟨e, he, heq⟩ := ordinal_fromOrdinal (n := d.ordinal) (by have := d.ordinal_le_year; omega) d.ordinal_le_max
  rw [he, ordinal_injective heq]

/-! ## Months -/

/-- `d.replace(day=1)` -/
def startOfMonth (d : CivilDate) : CivilDate :=
  ⟨d.year, d.month, 1, d.year_range, d.month_range, le_refl 1, daysInMonth_pos d.year d.month⟩

/-- the first day after the month of d -/
def monthEnd (d : CivilDate) : ℕ := d.startOfMonth.ordinal + daysInMonth d.year d.month

theorem startOfMonth_of_day {d : CivilDate} (h : d.day = 1) : d.startOfMonth = d := by
  cases d
  simp_all [startOfMonth]

/-- every number of the stretch is a day of the month -/
theorem exists_day {m : CivilDate} (hm : m.day = 1) {n : ℕ} (hlow : m.ordinal ≤ n) (hhigh : n < m.monthEnd) :
    ∃ d : CivilDate, d.ordinal = n ∧ d.startOfMonth = m := by
  rw [monthEnd, startOfMonth_of_day hm] at hhigh
  have hordinal : m.ordinal = daysBeforeYear m.year + daysBeforeMonth m.year m.month + 1 := by rw [ordinal, hm]
  refine ⟨⟨m.year, m.month, n - m.ordinal + 1, m.year_range, m.month_range, by omega, by omega⟩, ?_,
    startOfMonth_of_day hm⟩
  change daysBeforeYear m.year + daysBeforeMonth m.year m.month + (n - m.ordinal + 1) = n
  omega

/-- **The days of a month.** -/
theorem startOfMonth_eq_iff {m d : CivilDate} (hm : m.day = 1) :
    d.startOfMonth = m ↔ m.ordinal ≤ d.ordinal ∧ d.ordinal < m.monthEnd := by
  refine ⟨?_, ?_⟩
  · rintro rfl
    have hday := d.day_range
    simp only [monthEnd, ordinal, startOfMonth]
    omega
  · intro h
    obtain ⟨e, he, hem⟩ := exists_day hm h.1 h.2
    rw [← ordinal_injective he, hem]

/-- the month of a day number -/
def truncMonth (n : ℕ) : Option CivilDate := (fromOrdinal n).map startOfMonth

theorem truncMonth_eq_iff {n : ℕ} {m : CivilDate} (hm : m.day = 1) :
    truncMonth n = some m ↔ m.ordinal ≤ n ∧ n < m.monthEnd := by
  refine ⟨?_, ?_⟩
  · intro h
    obtain ⟨d, hd, hdm⟩ := Option.map_eq_some_iff.1 h
    have hn : d.ordinal = n := by exact_mod_cast ordinal_ofOrdinal hd
    rw [← hn]
    exact (startOfMonth_eq_iff hm).1 hdm
  · intro h
    obtain ⟨d, rfl, hdm⟩ := exists_day hm h.1 h.2
    rw [truncMonth, fromOrdinal_ordinal, Option.map_some, hdm]

/-- `(d - timedelta(days=1)).replace(day=1)`, none when there is no day before -/
def previousMonth (d : CivilDate) : Option CivilDate := truncMonth (d.ordinal - 1)

/-- the month before ends where a month begins -/
theorem previousMonth_ends {m d : CivilDate} (hd : d.day = 1) (h : d.previousMonth = some m) :
    m.day = 1 ∧ m.monthEnd = d.ordinal := by
  obtain ⟨e, he, rfl⟩ := Option.map_eq_some_iff.1 h
  have hday : e.startOfMonth.day = 1 := rfl
  have hbefore : e.ordinal = d.ordinal - 1 := by exact_mod_cast ordinal_ofOrdinal he
  have hpos := d.ordinal_le_year
  have hpose := e.ordinal_le_year
  obtain ⟨hlow, hhigh⟩ := (startOfMonth_eq_iff hday).1 (rfl : e.startOfMonth = e.startOfMonth)
  refine ⟨rfl, ?_⟩
  by_contra hne
  -- otherwise d is in the month as well, and so is its first day, which is d
  have hin : d.startOfMonth = e.startOfMonth := (startOfMonth_eq_iff hday).2 ⟨by omega, by omega⟩
  rw [startOfMonth_of_day hd] at hin
  rw [← hin] at hlow
  omega

theorem previousMonth_isSome {d : CivilDate} (h : 2 ≤ d.ordinal) : ∃ m, d.previousMonth = some m := by
  obtain ⟨e, he, -⟩ := ordinal_fromOrdinal (n := d.ordinal - 1) (by omega) (by have := d.ordinal_le_max; omega)
  exact ⟨e.startOfMonth, by rw [previousMonth, truncMonth, he, Option.map_some]⟩

/-! ## Consecutive months -/

/-- the months, one before the other, that a loop of n steps collects -/
def monthsBack : ℕ → CivilDate → Option (List CivilDate)
  | 0, _ => some []
  | n + 1, firstMonth => do
    let previous ← firstMonth.previousMonth
    let months ← monthsBack n previous
    some (firstMonth :: months)

/-- each month ends where the next begins -/
def Consecutive (months : List CivilDate) : Prop :=
  (∀ m ∈ months, m.day = 1) ∧ months.IsChain fun m next => m.monthEnd = next.ordinal

theorem monthsBack_succ {n : ℕ} {d : CivilDate} {months : List CivilDate} (h : monthsBack (n + 1) d = some months) :
    ∃ previous rest, d.previousMonth = some previous ∧ monthsBack n previous = some rest ∧ months = d :: rest := by
  rw [monthsBack, Option.bind_eq_bind, Option.bind_eq_some_iff] at h
  obtain ⟨previous, hprevious, h⟩ := h
  rw [Option.bind_eq_bind, Option.bind_eq_some_iff] at h
  obtain ⟨rest, hrest, h⟩ := h
  exact ⟨previous, rest, hprevious, hrest, (Option.some.inj h).symm⟩

theorem length_monthsBack {n : ℕ} {d : CivilDate} {months : List CivilDate} (h : monthsBack n d = some months) :
    months.length = n := by
  induction n generalizing d months with
  | zero =>
    cases h
    rfl
  | succ n ih =>
    obtain ⟨previous, rest, -, hrest, rfl⟩ := monthsBack_succ h
    rw [List.length_cons, ih hrest]

/-- **The months of the loop, oldest first.** -/
theorem consecutive_monthsBack {n : ℕ} {d : CivilDate} {months : List CivilDate} (hd : d.day = 1)
    (h : monthsBack n d = some months) : Consecutive months.reverse := by
  have key : (∀ m ∈ months, m.day = 1) ∧ months.IsChain fun m previous => previous.monthEnd = m.ordinal := by
    induction n generalizing d months with
    | zero =>
      cases h
      exact ⟨by simp, List.isChain_nil⟩
    | succ n ih =>
      obtain ⟨previous, rest, hprevious, hrest, rfl⟩ := monthsBack_succ h
      obtain ⟨hday, hend⟩ := previousMonth_ends hd hprevious
      obtain ⟨hdays, hchain⟩ := ih hday hrest
      refine ⟨List.forall_mem_cons.2 ⟨hd, hdays⟩, ?_⟩
      cases n with
      | zero =>
        cases hrest
        exact List.isChain_singleton d
      | succ n =>
        obtain ⟨_, rest', -, -, rfl⟩ := monthsBack_succ hrest
        exact List.isChain_cons_cons.2 ⟨hend, hchain⟩
  exact ⟨fun m hm => key.1 m (List.mem_reverse.1 hm), List.isChain_reverse.2 key.2⟩

/-- a month has at most 31 days -/
theorem exists_monthsBack {n : ℕ} {d : CivilDate} (hd : d.day = 1) (h : 31 * n < d.ordinal) :
    ∃ months, monthsBack n d = some months := by
  induction n generalizing d with
  | zero => exact ⟨[], rfl⟩
  | succ n ih =>
    obtain ⟨previous, hprevious⟩ := previousMonth_isSome (d := d) (by omega)
    obtain ⟨hday, hend⟩ := previousMonth_ends hd hprevious
    have hlength := daysInMonth_le previous.year previous.month
    rw [monthEnd, startOfMonth_of_day hday] at hend
    obtain ⟨rest, hrest⟩ := ih hday (by omega)
    exact ⟨d :: rest, by rw [monthsBack, hprevious, Option.bind_eq_bind, Option.bind_some, hrest]; rfl⟩

theorem Consecutive.first_le {m first : CivilDate} {months : List CivilDate} (h : Consecutive (first :: months))
    (hm : m ∈ first :: months) : first.ordinal ≤ m.ordinal := by
  induction months generalizing first with
  | nil => rw [List.mem_singleton.1 hm]
  | cons next months ih =>
    obtain ⟨hdays, hchain⟩ := h
    obtain ⟨hend, hchain⟩ := List.isChain_cons_cons.1 hchain
    rcases List.mem_cons.1 hm with rfl | hm
    · exact le_refl _
    · have hnext := ih ⟨fun m hm => hdays m (List.mem_cons_of_mem _ hm), hchain⟩ hm
      rw [monthEnd, startOfMonth_of_day (hdays first List.mem_cons_self)] at hend
      omega

/-- **What changes in each month adds up to what changes overall.** -/
theorem sum_months {G : Type*} [AddCommGroup G] (f : ℕ → G) {m : CivilDate} {months : List CivilDate}
    (h : Consecutive (m :: months)) :
    ((m :: months).map fun m => f m.monthEnd - f m.ordinal).sum =
      f ((m :: months).getLast (List.cons_ne_nil m months)).monthEnd - f m.ordinal := by
  induction months generalizing m with
  | nil => simp
  | cons next months ih =>
    obtain ⟨hdays, hchain⟩ := h
    obtain ⟨hend, hchain⟩ := List.isChain_cons_cons.1 hchain
    have hrest := ih ⟨fun m hm => hdays m (List.mem_cons_of_mem _ hm), hchain⟩
    rw [List.map_cons, List.sum_cons, hrest, hend, List.getLast_cons (List.cons_ne_nil next months)]
    abel

end CivilDate

end Vault67
