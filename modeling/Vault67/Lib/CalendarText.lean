/-
Dates as texts and as day numbers, and back.

- `fromIsoFormat_isoFormat`: `date.fromisoformat` reads what `date.isoformat` writes;
- `fromOrdinal`: `date.fromordinal`. `ordinal_fromOrdinal`: every number from 1 to `maxOrdinal` is the number of a day.
-/
import Mathlib.Tactic
import Vault67.Lib.Digits

namespace Vault67.CivilDate

/-! ## The date of three numbers -/

theorem of?_self (d : CivilDate) : of? d.year d.month d.day = some d := by
  simp only [of?, Int.toNat_natCast]
  rw [dif_pos d.year_range, dif_pos d.month_range, dif_pos d.day_range]

theorem of?_eq_some {year month day : ℤ} {d : CivilDate} (h : of? year month day = some d) :
    d.year = year ∧ d.month = month ∧ d.day = day := by
  unfold of? at h
  split_ifs at h with hy hm hd
  cases h
  dsimp only
  omega

theorem daysInMonth_le (year month : ℕ) : daysInMonth year month ≤ 31 := by
  unfold daysInMonth
  split_ifs <;> norm_num

theorem year_lt (d : CivilDate) : d.year < 10 ^ 4 := by
  have := d.year_range
  omega

theorem month_lt (d : CivilDate) : d.month < 10 ^ 2 := by
  have := d.month_range
  omega

theorem day_lt (d : CivilDate) : d.day < 10 ^ 2 := by
  have := d.day_range
  have := daysInMonth_le d.year d.month
  omega

/-! ## ISO dates -/

theorem utf8Size_of_isDigit {c : Char} (h : c.isDigit) : c.utf8Size = 1 := by
  rw [Char.utf8Size_eq_one_iff]
  have := (Text.isDigit_iff.1 h).2
  rw [UInt32.le_iff_toNat_le]
  exact this.trans (by decide)

theorem sum_utf8Size_padded {width n : ℕ} (h : n < 10 ^ width) : ((padded width n).map Char.utf8Size).sum = width := by
  have hones : (padded width n).map Char.utf8Size = List.replicate width 1 := by
    refine List.eq_replicate_iff.2 ⟨by rw [List.length_map, length_padded h], fun m hm => ?_⟩
    obtain ⟨c, hc, rfl⟩ := List.mem_map.1 hm
    exact utf8Size_of_isDigit (padded_isDigit width n c hc)
  rw [hones, List.sum_replicate, smul_eq_mul, mul_one]

/-- three numbers with hyphens -/
theorem fromIsoFormat_padded {year month day : ℕ} (hyear : year < 10 ^ 4) (hmonth : month < 10 ^ 2) (hday : day < 10 ^ 2) :
    fromIsoFormat (padded 4 year ++ '-' :: (padded 2 month ++ '-' :: padded 2 day)) = of? year month day := by
  generalize hiso : padded 4 year ++ '-' :: (padded 2 month ++ '-' :: padded 2 day) = text
  have hsize : (text.map Char.utf8Size).sum = 10 := by
    rw [← hiso, List.map_append, List.map_cons, List.map_append, List.map_cons, List.sum_append, List.sum_cons,
      List.sum_append, List.sum_cons, sum_utf8Size_padded hyear, sum_utf8Size_padded hmonth, sum_utf8Size_padded hday]
    rfl
  -- the month does not begin with the W of a week date
  obtain ⟨c, cs, hc⟩ : ∃ c cs, padded 2 month = c :: cs := List.exists_cons_of_length_eq_add_one (length_padded hmonth)
  have hw : c ≠ 'W' := Text.ne_of_isDigit (padded_isDigit 2 month c (by rw [hc]; exact List.mem_cons_self)) rfl
  have hread := digits_padded hmonth ('-' :: padded 2 day)
  have hlast := digits_padded hday []
  rw [List.append_nil] at hlast
  rw [fromIsoFormat, hsize, if_pos (by decide), ← hiso, digits_padded hyear]
  simp only [Option.bind_eq_bind, Option.bind_some, List.head?_cons, List.tail_cons, decide_true, if_true]
  rw [hc] at hread ⊢
  split
  · rename_i rest hrest
    exact absurd (List.head_eq_of_cons_eq hrest) hw
  · rw [hread, Option.bind_some, separator, if_pos rfl, List.head?_cons, if_pos rfl, Option.bind_some, List.tail_cons, hlast,
      Option.bind_some]

theorem isoFormat_eq (d : CivilDate) :
    d.isoFormat = padded 4 d.year ++ '-' :: (padded 2 d.month ++ '-' :: padded 2 d.day) := by
  rw [isoFormat, List.append_assoc, List.cons_append]

/-- **An ISO date reads as the date it writes.** -/
theorem fromIsoFormat_isoFormat (d : CivilDate) : fromIsoFormat d.isoFormat = some d := by
  rw [isoFormat_eq, fromIsoFormat_padded d.year_lt d.month_lt d.day_lt]
  exact of?_self d

/-! ## Day numbers -/

/-- `date.max.toordinal()` -/
def maxOrdinal : ℕ := 3652059

/-- `date.fromordinal(n)`; the year is one of three -/
def fromOrdinal (n : ℕ) : Option CivilDate :=
  let year := n * 400 / 146097
  ofOrdinal [year, year + 1, year + 2] n

theorem ordinal_ofOrdinal {years : List ℕ} {n : ℤ} {d : CivilDate} (h : ofOrdinal years n = some d) : (d.ordinal : ℤ) = n := by
  obtain ⟨year, -, hyear⟩ := List.exists_of_findSome?_eq_some h
  obtain ⟨month, -, hmonth⟩ := List.exists_of_findSome?_eq_some hyear
  obtain ⟨hy, hm, hd⟩ := of?_eq_some hmonth
  have hy : d.year = year := by exact_mod_cast hy
  have hm : d.month = month := by exact_mod_cast hm
  rw [ordinal, hy, hm]
  push_cast
  omega

theorem ofOrdinal_isSome {years : List ℕ} {n : ℤ} {d : CivilDate} (hyear : d.year ∈ years) (h : (d.ordinal : ℤ) = n) :
    (ofOrdinal years n).isSome := by
  refine List.findSome?_isSome_iff.2 ⟨d.year, hyear, List.findSome?_isSome_iff.2 ⟨d.month, ?_, ?_⟩⟩
  · have := d.month_range
    exact List.mem_range'_1.2 (by omega)
  · have hday : n - daysBeforeYear d.year - daysBeforeMonth d.year d.month = d.day := by
      rw [← h, ordinal]
      push_cast
      omega
    rw [hday, of?_self]
    rfl

theorem daysBeforeYear_succ {year : ℕ} (h : 1 ≤ year) :
    daysBeforeYear (year + 1) = daysBeforeYear year + if isLeap year then 366 else 365 := by
  obtain ⟨m, rfl⟩ : ∃ m, year = m + 1 := ⟨year - 1, by omega⟩
  have hle : m / 100 ≤ m / 4 := Nat.div_le_div_left (by norm_num) (by norm_num)
  have h100 : 100 ∣ m + 1 → 4 ∣ m + 1 := Nat.dvd_trans (by norm_num)
  have h400 : 400 ∣ m + 1 → 100 ∣ m + 1 := Nat.dvd_trans (by norm_num)
  have hleap : isLeap (m + 1) = decide (4 ∣ m + 1 ∧ (¬100 ∣ m + 1 ∨ 400 ∣ m + 1)) := by
    simp only [isLeap, Nat.dvd_iff_mod_eq_zero]
  rw [hleap, daysBeforeYear, daysBeforeYear, Nat.add_sub_cancel, Nat.add_sub_cancel, Nat.succ_div, Nat.succ_div,
    Nat.succ_div]
  by_cases h1 : 4 ∣ m + 1
  · by_cases h2 : 100 ∣ m + 1
    · by_cases h3 : 400 ∣ m + 1
      · simp only [h1, h2, h3, if_true, not_true_eq_false, or_true, and_true, decide_true]
        omega
      · simp only [h1, h2, h3, if_true, if_false, not_true_eq_false, or_false, and_false, decide_false, Bool.false_eq_true]
        omega
    · simp only [h1, h2, mt h400 h2, if_true, if_false, not_false_eq_true, true_or, and_true, decide_true]
      omega
  · simp only [h1, mt h100 h1, mt h400 (mt h100 h1), if_false, false_and, decide_false, Bool.false_eq_true]
    omega

theorem daysBeforeMonth_succ {year month : ℕ} (h : 1 ≤ month) :
    daysBeforeMonth year (month + 1) = daysBeforeMonth year month + daysInMonth year month := by
  obtain ⟨m, rfl⟩ : ∃ m, month = m + 1 := ⟨month - 1, by omega⟩
  simp only [daysBeforeMonth, Nat.add_sub_cancel, List.range'_concat, List.map_append, List.sum_append]
  simp [Nat.add_comm]

theorem daysBeforeMonth_thirteen (year : ℕ) : daysBeforeMonth year 13 = if isLeap year then 366 else 365 := by
  cases h : isLeap year <;> simp [daysBeforeMonth, daysInMonth, List.range', h]

/-- between two values of a sequence that starts below n there is a step across n -/
theorem exists_step {f : ℕ → ℕ} {a b n : ℕ} (hab : a ≤ b) (hlow : f a < n) (hhigh : n ≤ f b) :
    ∃ k, a ≤ k ∧ k < b ∧ f k < n ∧ n ≤ f (k + 1) := by
  induction b, hab using Nat.le_induction with
  | base => exact absurd hhigh (not_le.2 hlow)
  | succ b hab ih =>
    by_cases hb : n ≤ f b
    · obtain ⟨k, hk, hkb, hkn⟩ := ih hb
      exact ⟨k, hk, by omega, hkn⟩
    · exact ⟨b, hab, by omega, not_le.1 hb, hhigh⟩

/-- every day number up to the last is the number of a day -/
theorem exists_ordinal {n : ℕ} (hpos : 1 ≤ n) (hmax : n ≤ maxOrdinal) : ∃ d : CivilDate, d.ordinal = n := by
  obtain ⟨year, hy, hylt, hlow, hhigh⟩ :=
    exists_step (f := daysBeforeYear) (a := 1) (b := 10000) (by norm_num) hpos hmax
  rw [daysBeforeYear_succ hy, ← daysBeforeMonth_thirteen] at hhigh
  obtain ⟨month, hm, hmlt, hmlow, hmhigh⟩ := exists_step (f := fun month => daysBeforeYear year + daysBeforeMonth year month)
    (a := 1) (b := 13) (by norm_num) hlow hhigh
  rw [daysBeforeMonth_succ hm] at hmhigh
  refine ⟨⟨year, month, n - (daysBeforeYear year + daysBeforeMonth year month), by omega, by omega, by omega⟩, ?_⟩
  rw [ordinal]
  dsimp only at hmlow ⊢
  omega

theorem daysBeforeMonth_le (year month : ℕ) : daysBeforeMonth year month ≤ 31 * (month - 1) := by
  have hle := List.sum_le_card_nsmul ((List.range' 1 (month - 1)).map (daysInMonth year)) 31 (by
    intro days hdays
    obtain ⟨m, -, rfl⟩ := List.mem_map.1 hdays
    exact daysInMonth_le year m)
  rw [List.length_map, List.length_range', smul_eq_mul] at hle
  rw [daysBeforeMonth, Nat.mul_comm]
  exact hle

/-- the year of a day is one of the three -/
theorem year_mem (d : CivilDate) :
    d.year ∈ [d.ordinal * 400 / 146097, d.ordinal * 400 / 146097 + 1, d.ordinal * 400 / 146097 + 2] := by
  have hyear := d.year_range
  have hmonth := d.month_range
  have hday := d.day_range
  have hdays := daysInMonth_le d.year d.month
  have hbefore := daysBeforeMonth_le d.year d.month
  obtain ⟨m, hm⟩ : ∃ m, d.year = m + 1 := ⟨d.year - 1, by omega⟩
  have hordinal : d.ordinal = m * 365 + m / 4 - m / 100 + m / 400 + daysBeforeMonth d.year d.month + d.day := by
    rw [ordinal, daysBeforeYear, hm, Nat.add_sub_cancel]
  have hlow : 146097 * m < (d.ordinal + 2) * 400 := by omega
  have hhigh : d.ordinal * 400 < 146097 * (m + 2) := by omega
  simp only [List.mem_cons, List.not_mem_nil, or_false]
  omega

/-- **Every day has its number, and every number its day.** -/
theorem ordinal_fromOrdinal {n : ℕ} (hpos : 1 ≤ n) (hmax : n ≤ maxOrdinal) :
    ∃ d, fromOrdinal n = some d ∧ d.ordinal = n := by
  obtain ⟨e, rfl⟩ := exists_ordinal hpos hmax
  obtain ⟨d, hd⟩ := Option.isSome_iff_exists.1 (ofOrdinal_isSome (year_mem e) rfl)
  exact ⟨d, hd, by exact_mod_cast ordinal_ofOrdinal hd⟩

end Vault67.CivilDate
