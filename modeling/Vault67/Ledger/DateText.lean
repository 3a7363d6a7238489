/-
The dates that the importer reads.

The message promises DD/MM/YYYY and YYYY-MM-DD. `int` and `date.fromisoformat` read more than that.

- `strftime_of_widths`, `isoFormat_of_widths`: digits in the widths of a notation are what the notation writes.
- `date_grammar_iff`: a text is read as promised exactly when it is not `Loose`.
- `twoDigitYear_loose`: a year in two digits is.
-/
import Mathlib.Tactic
import Vault67.Ledger.Exports

namespace Vault67.Ledger

open CivilDate Fallible Text

/-! ## Model -/

/-- the texts that the message promises for a date -/
def Documented (text : List Char) (d : CivilDate) : Prop := text = strftime true d ∨ text = d.isoFormat

/-- the date of a documented text is returned, and any other text is refused -/
structure DateContract (value : List Char) (rowNumber : String) : Prop where
  accepts : ∀ d, Documented (strip value) d → parseDate value rowNumber = .ok d
  rejects : (¬∃ d, Documented (strip value) d) → ∃ message, parseDate value rowNumber = .error (.csvImport message)

/-- ASCII digits in the given widths -/
def Widths (widths : List ℕ) (parts : List (List Char)) : Prop :=
  parts.map List.length = widths ∧ ∀ part ∈ parts, ∀ c ∈ part, c.isDigit

/-- three integers that are a date or too large for one, not written DD/MM/YYYY -/
def LooseSlash (text : List Char) : Prop :=
  '/' ∈ text ∧ ∃ d m y day month year, text.splitOn '/' = [d, m, y] ∧ ¬Widths [2, 2, 4] [d, m, y] ∧
    int d = some day ∧ int m = some month ∧ int y = some year ∧
      ((CivilDate.of? year month day).isSome ∨ ¬(FitsInt year ∧ FitsInt month ∧ FitsInt day))

/-- a date in ISO format, not written YYYY-MM-DD -/
def LooseIso (text : List Char) : Prop :=
  '/' ∉ text ∧ (fromIsoFormat text).isSome ∧ ¬Widths [4, 2, 2] (text.splitOn '-')

def Loose (text : List Char) : Prop := LooseSlash text ∨ LooseIso text

/-! ## Widths -/

theorem widths_three {widths : List ℕ} {parts : List (List Char)} {i j k : ℕ} (hw : widths = [i, j, k])
    (h : Widths widths parts) : ∃ a b c, parts = [padded i a, padded j b, padded k c] ∧ a < 10 ^ i ∧ b < 10 ^ j ∧
      c < 10 ^ k := by
  obtain ⟨hlength, hdigits⟩ := h
  rw [hw] at hlength
  match parts, hlength, hdigits with
  | [x, y, z], hlength, hdigits =>
    simp only [List.map_cons, List.map_nil, List.cons.injEq, and_true] at hlength
    obtain ⟨rfl, rfl, rfl⟩ := hlength
    obtain ⟨hx, hx'⟩ := padded_number (hdigits x (by simp))
    obtain ⟨hy, hy'⟩ := padded_number (hdigits y (by simp))
    obtain ⟨hz, hz'⟩ := padded_number (hdigits z (by simp))
    exact ⟨_, _, _, by rw [hx', hy', hz'], hx, hy, hz⟩

theorem widths_padded {i j k a b c : ℕ} (ha : a < 10 ^ i) (hb : b < 10 ^ j) (hc : c < 10 ^ k) :
    Widths [i, j, k] [padded i a, padded j b, padded k c] := by
  refine ⟨by simp [length_padded ha, length_padded hb, length_padded hc], ?_⟩
  intro part hpart
  simp only [List.mem_cons, List.not_mem_nil, or_false] at hpart
  rcases hpart with rfl | rfl | rfl
  · exact padded_isDigit _ _
  · exact padded_isDigit _ _
  · exact padded_isDigit _ _

/-! ## Documented texts -/

theorem int_padded {width n : ℕ} (hpos : 0 < width) (hwidth : width ≤ 4) (h : n < 10 ^ width) :
    int (padded width n) = some ↑n := intOf_eq_ok.1 (intOf_padded hpos (by omega) h)

theorem slash_not_mem_isoFormat (d : CivilDate) : '/' ∉ d.isoFormat := by
  intro h
  rcases mem_isoFormat h with heq | hdigit
  · exact absurd heq (by decide)
  · exact absurd hdigit (by decide)

theorem splitOn_isoFormat (d : CivilDate) :
    d.isoFormat.splitOn '-' = [padded 4 d.year, padded 2 d.month, padded 2 d.day] := by
  rw [isoFormat_eq, List.splitOn_append_cons_self_of_not_mem (not_mem_of_isDigit (padded_isDigit 4 d.year) rfl),
    List.splitOn_append_cons_self_of_not_mem (not_mem_of_isDigit (padded_isDigit 2 d.month) rfl),
    List.splitOn_eq_singleton (not_mem_of_isDigit (padded_isDigit 2 d.day) rfl)]

/-- two, two and four digits that are a date -/
theorem strftime_of_widths {text : List Char} {parts : List (List Char)} (hsplit : text.splitOn '/' = parts)
    (hwidths : Widths [2, 2, 4] parts) : ∃ day month year : ℕ, parts.map int = [some ↑day, some ↑month, some ↑year] ∧
      FitsInt year ∧ FitsInt month ∧ FitsInt day ∧
        ∀ d, CivilDate.of? year month day = some d → text = strftime true d := by
  obtain ⟨day, month, year, rfl, hday, hmonth, hyear⟩ := widths_three rfl hwidths
  have hfits : FitsInt year ∧ FitsInt month ∧ FitsInt day := by
    unfold FitsInt
    omega
  refine ⟨day, month, year, ?_, hfits.1, hfits.2.1, hfits.2.2, ?_⟩
  · simp [int_padded (by norm_num : 0 < 2) (by norm_num) hday, int_padded (by norm_num : 0 < 2) (by norm_num) hmonth,
      int_padded (by norm_num : 0 < 4) (by norm_num) hyear]
  · intro d hd
    obtain ⟨hy, hm, hdd⟩ := of?_eq_some hd
    have hjoin : ['/'].intercalate (text.splitOn '/') = text := List.intercalate_splitOn '/'
    rw [← hjoin, hsplit, strftime]
    have hy : d.year = year := by exact_mod_cast hy
    have hm : d.month = month := by exact_mod_cast hm
    have hdd : d.day = day := by exact_mod_cast hdd
    simp [hy, hm, hdd]

/-- four, two and two digits that are a date -/
theorem isoFormat_of_widths {text : List Char} {d : CivilDate} (hwidths : Widths [4, 2, 2] (text.splitOn '-'))
    (h : fromIsoFormat text = some d) : text = d.isoFormat := by
  obtain ⟨year, month, day, hsplit, hyear, hmonth, hday⟩ := widths_three rfl hwidths
  have htext : text = padded 4 year ++ '-' :: (padded 2 month ++ '-' :: padded 2 day) := by
    have hjoin : ['-'].intercalate (text.splitOn '-') = text := List.intercalate_splitOn '-'
    rw [← hjoin, hsplit]
    simp
  rw [htext, fromIsoFormat_padded hyear hmonth hday] at h
  obtain ⟨hy, hm, hdd⟩ := of?_eq_some h
  have hy : d.year = year := by exact_mod_cast hy
  have hm : d.month = month := by exact_mod_cast hm
  have hdd : d.day = day := by exact_mod_cast hdd
  rw [isoFormat_eq, hy, hm, hdd, htext]

/-! ## The parser -/

/-- the text is read, or something other than ValueError is raised -/
def readDate (text : List Char) : Except Raised CivilDate :=
  if '/' ∈ text then slashDate text else (fromIsoFormat text).elim (.error .value) .ok

theorem readDate_documented {text : List Char} {d : CivilDate} (h : Documented text d) : readDate text = .ok d := by
  unfold readDate
  rcases h with rfl | rfl
  · rw [if_pos (slash_mem_strftime true d), slashDate_strftime]
  · rw [if_neg (slash_not_mem_isoFormat d), fromIsoFormat_isoFormat]
    rfl

theorem date_eq_value {year month day : ℤ} :
    date year month day = .error .value ↔ (FitsInt year ∧ FitsInt month ∧ FitsInt day) ∧ CivilDate.of? year month day = none := by
  unfold date
  by_cases hfits : FitsInt year ∧ FitsInt month ∧ FitsInt day
  · rw [if_neg (not_not.2 hfits)]
    cases CivilDate.of? year month day <;> simp [hfits]
  · simp [hfits]

/-- three integers that are a date, or too large for one -/
theorem slashDate_ne_value {text : List Char} : slashDate text ≠ .error .value ↔
    ∃ d m y day month year, text.splitOn '/' = [d, m, y] ∧ int d = some day ∧ int m = some month ∧ int y = some year ∧
      ((CivilDate.of? year month day).isSome ∨ ¬(FitsInt year ∧ FitsInt month ∧ FitsInt day)) := by
  have hread : ∀ {year month day : ℤ}, date year month day ≠ .error .value ↔
      (CivilDate.of? year month day).isSome ∨ ¬(FitsInt year ∧ FitsInt month ∧ FitsInt day) := by
    intro year month day
    rw [Ne, date_eq_value, not_and_or, or_comm, Option.isSome_iff_ne_none]
  refine ⟨?_, ?_⟩
  · intro h
    unfold slashDate at h
    split at h
    · rename_i d m y hparts
      cases hy : int y with
      | none => simp [intOf, hy, bind, Except.bind] at h
      | some year =>
        cases hm : int m with
        | none => simp [intOf, hy, hm, bind, Except.bind] at h
        | some month =>
          cases hd : int d with
          | none => simp [intOf, hy, hm, hd, bind, Except.bind] at h
          | some day =>
            refine ⟨d, m, y, day, month, year, hparts, hd, hm, hy, hread.1 ?_⟩
            simpa [intOf, hy, hm, hd, bind, Except.bind] using h
    · exact absurd rfl h
  · intro h
    obtain ⟨d, m, y, day, month, year, hparts, hd, hm, hy, hdate⟩ := h
    rw [slashDate, hparts]
    simpa [intOf, hy, hm, hd, bind, Except.bind] using hread.2 hdate

/-- a text without slashes is documented when its parts have the widths of the ISO format -/
theorem documented_of_iso {text : List Char} (h : '/' ∉ text) {d : CivilDate} (hd : fromIsoFormat text = some d) :
    (∃ d, Documented text d) ↔ Widths [4, 2, 2] (text.splitOn '-') := by
  refine ⟨?_, ?_⟩
  · intro hdocumented
    obtain ⟨e, rfl | rfl⟩ := hdocumented
    · exact absurd (slash_mem_strftime true e) h
    · rw [splitOn_isoFormat]
      exact widths_padded e.year_lt e.month_lt e.day_lt
  · exact fun hwidths => ⟨d, .inr (isoFormat_of_widths hwidths hd)⟩

/-- a text with slashes is documented when its parts have the widths of DD/MM/YYYY -/
theorem documented_of_slash {text d m y : List Char} {day month year : ℤ} (hparts : text.splitOn '/' = [d, m, y])
    (hslash : '/' ∈ text) (hd : int d = some day) (hm : int m = some month) (hy : int y = some year)
    (hdate : (CivilDate.of? year month day).isSome ∨ ¬(FitsInt year ∧ FitsInt month ∧ FitsInt day)) :
    (∃ d, Documented text d) ↔ Widths [2, 2, 4] [d, m, y] := by
  refine ⟨?_, ?_⟩
  · intro hdocumented
    obtain ⟨e, rfl | rfl⟩ := hdocumented
    · rw [← hparts, splitOn_strftime]
      exact widths_padded e.day_lt e.month_lt e.year_lt
    · exact absurd hslash (slash_not_mem_isoFormat e)
  · intro hwidths
    obtain ⟨day', month', year', hints, hfy, hfm, hfd, hread⟩ := strftime_of_widths hparts hwidths
    simp only [List.map_cons, List.map_nil, hd, hm, hy, List.cons.injEq, Option.some.injEq, and_true] at hints
    obtain ⟨rfl, rfl, rfl⟩ := hints
    obtain ⟨e, he⟩ := Option.isSome_iff_exists.1 (hdate.resolve_right (not_not.2 ⟨hfy, hfm, hfd⟩))
    exact ⟨e, .inl (hread e he)⟩

/-- **A loose text** is read, or overflows, though no documented form of a date is what it looks like. -/
theorem loose_iff {text : List Char} : Loose text ↔ readDate text ≠ .error .value ∧ ¬∃ d, Documented text d := by
  by_cases hslash : '/' ∈ text
  · have hiso : ¬LooseIso text := fun h => h.1 hslash
    rw [Loose, or_iff_left hiso, readDate, if_pos hslash, slashDate_ne_value]
    refine ⟨?_, ?_⟩
    · intro h
      obtain ⟨-, d, m, y, day, month, year, hparts, hwidths, hd, hm, hy, hdate⟩ := h
      exact ⟨⟨d, m, y, day, month, year, hparts, hd, hm, hy, hdate⟩,
        (documented_of_slash hparts hslash hd hm hy hdate).not.2 hwidths⟩
    · intro h
      obtain ⟨⟨d, m, y, day, month, year, hparts, hd, hm, hy, hdate⟩, hdocumented⟩ := h
      exact ⟨hslash, d, m, y, day, month, year, hparts, (documented_of_slash hparts hslash hd hm hy hdate).not.1 hdocumented,
        hd, hm, hy, hdate⟩
  · have hloose : ¬LooseSlash text := fun h => hslash h.1
    rw [Loose, or_iff_right hloose, readDate, if_neg hslash, LooseIso]
    cases hd : fromIsoFormat text with
    | none => simp
    | some d => simp [hslash, documented_of_iso hslash hd]

/-- the message is added by the parser -/
theorem readDate_ne_csvImport (text : List Char) : ¬Raises (fun e => ∃ message, e = .csvImport message) (readDate text) := by
  have hint : ∀ text, ¬Raises (fun e => ∃ message, e = .csvImport message) (intOf text) := by
    intro text
    simp [intOf]
  have hdate : ∀ year month day, ¬Raises (fun e => ∃ message, e = .csvImport message) (date year month day) := by
    intro year month day
    unfold date
    split_ifs <;> simp
  unfold readDate slashDate
  split_ifs
  · split
    · simp [raises_bind, hint, hdate]
    · simp
  · simp

/-- **A text is read as promised exactly when it is not loose.** For every string the parser accepts the documented dates
with the day they mean and refuses all others, except for the loose texts. -/
theorem date_grammar_iff (value : List Char) (rowNumber : String) :
    DateContract value rowNumber ↔ ¬Loose (strip value) := by
  have hparse : parseDate value rowNumber = if readDate (strip value) = .error .value then
      .error (.csvImport s!"Row {rowNumber}: Transaction Date must use DD/MM/YYYY or YYYY-MM-DD.")
      else readDate (strip value) := rfl
  rw [loose_iff, not_and, not_not]
  refine ⟨?_, ?_⟩
  · intro h hread
    by_contra hdocumented
    obtain ⟨message, hmessage⟩ := h.rejects hdocumented
    rw [hparse, if_neg hread] at hmessage
    exact readDate_ne_csvImport _ ⟨_, hmessage, message, rfl⟩
  · intro h
    refine ⟨?_, ?_⟩
    · intro d hd
      rw [hparse, readDate_documented hd]
      exact if_neg nofun
    · intro hdocumented
      have hread : readDate (strip value) = .error .value := not_not.1 (mt h hdocumented)
      exact ⟨_, hparse.trans (if_pos hread)⟩

/-- **A year in two digits** is read as one of the first century, where the import page asks for DD/MM/YYYY. -/
theorem twoDigitYear_loose :
    (∃ d, parseDate "01/02/26".toList "2" = .ok d ∧ d.year = 26) ∧ ¬DateContract "01/02/26".toList "2" := by
  obtain ⟨d, hd, hyear⟩ := exists_ok_of_check (x := parseDate "01/02/26".toList "2") (p := fun d => d.year = 26)
    (by decide +kernel)
  refine ⟨⟨d, hd, hyear⟩, fun h => ?_⟩
  have hwidths : ¬Widths [2, 2, 4] ["01".toList, "02".toList, "26".toList] := fun hw => absurd hw.1 (by decide)
  refine (date_grammar_iff _ _).1 h (.inl ⟨by decide, "01".toList, "02".toList, "26".toList, 1, 2, 26, by decide, hwidths,
    by decide +kernel, by decide +kernel, by decide +kernel, .inl (by decide +kernel)⟩)

end Vault67.Ledger
