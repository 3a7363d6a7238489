/-
`ledger/exports.py`: the transactions of an account as a CSV file.

- `parseDate_strftime`: the importer reads a date as the one that was written;
- `parseAmount_fixed`: it takes the commas of an amount for thousands and reads the number;
- `valueDate_isoFormat`: the notes it writes have the value date.
-/
import Mathlib.Tactic
import Vault67.Ledger.AmountText
import Vault67.Lib.CalendarText
import Vault67.Lib.OrderBy

namespace Vault67.Ledger

open CivilDate Fallible OrderBy Rounding Text

/-! ## Model -/

/-- the quote of a CSV field -/
def quote : Char := Char.ofNat 34

/-- a field that has to be quoted -/
def needsQuotes (field : List Char) : Bool := field.any (· ∈ [';', quote, '\r', '\n'])

/-- a field as `csv.writer` writes it: quoted where it has to be, its own quotes doubled -/
def csvField (field : List Char) : List Char :=
  if needsQuotes field then quote :: field.flatMap (fun c => if c = quote then [quote, quote] else [c]) ++ [quote]
  else field

/-- `writer.writerow(row)` with the delimiter ; -/
def writerow (row : List (List Char)) : List Char := [';'].intercalate (row.map csvField) ++ ['\r', '\n']

/-- `_spreadsheet_safe` -/
def spreadsheetSafe (value : List Char) : List Char :=
  if (value.dropWhile isSpace).head? ∈ [some '=', some '+', some '-', some '@'] then Char.ofNat 39 :: value else value

def valueDateLabel : List Char := "Value date: ".toList

/-- `_value_date` -/
def valueDate (notes : List Char) : Option CivilDate :=
  ((splitlines notes).find? valueDateLabel.isPrefixOf).bind fun line =>
    fromIsoFormat (strip (line.drop valueDateLabel.length))

/-- `d.strftime("%d/%m/%Y")`; it depends on the platform whether the year has leading zeros -/
def strftime (padYear : Bool) (d : CivilDate) : List Char :=
  padded 2 d.day ++ '/' :: (padded 2 d.month ++ '/' :: if padYear then padded 4 d.year else Nat.toDigits 10 d.year)

/-- `amount.quantize(Decimal("0.01"))` -/
def quantizeCents (amount : ℚ) : Except Error Decimal :=
  let cents := halfEven (amount * 100)
  if 10 ^ decimalContext.prec ≤ cents.natAbs then .error .decimal else .ok ⟨amount < 0, cents.natAbs, -2⟩

/-- the date with a day number -/
def civil (date : Date) : CivilDate := (fromOrdinal date).getD ⟨1, 1, 1, by decide, by decide, by decide⟩

/-- transaction date, primary key -/
def exportKey (e : TransactionEntry) : ℕ ×ₗ ℕ := toLex (e.transaction.transactionDate, e.pk)

/-- the entries of the account, the latest first -/
def exportedEntries (db : Db) (account : ℕ) : List TransactionEntry :=
  orderBy (fun e => OrderDual.toDual (exportKey e)) (db.entries.filter fun e => e.account = account)

def exportHeader : List (List Char) :=
  ["Transaction Date".toList, "Value Date".toList, "Description".toList, "Amount".toList]

/-- the body of the loop over the entries -/
def exportRow (padYear : Bool) (e : TransactionEntry) : Except Error (List (List Char)) := do
  let amount ← quantizeCents e.amount
  .ok [strftime padYear (civil e.transaction.transactionDate),
    (valueDate e.transaction.notes.toList).elim [] (strftime padYear),
    spreadsheetSafe e.transaction.description.toList, amount.fixed]

/-- every row that is written -/
def exportTable (padYear : Bool) (db : Db) (account : ℕ) : Except Error (List (List (List Char))) := do
  let rows ← (exportedEntries db account).mapM (exportRow padYear)
  .ok (exportHeader :: rows)

/-- `export_account_transactions` -/
def exportAccountTransactions (padYear : Bool) (db : Db) (account : ℕ) : Except Error (List Char) := do
  let table ← exportTable padYear db account
  .ok (table.flatMap writerow)

/-! ## Dates -/

theorem parseDate_slash {value : List Char} {rowNumber : String} {d : CivilDate} (hslash : '/' ∈ strip value)
    (h : slashDate (strip value) = .ok d) : parseDate value rowNumber = .ok d := by
  unfold parseDate
  dsimp only
  rw [if_pos hslash, h]
  rfl

theorem date_self (d : CivilDate) : date d.year d.month d.day = .ok d := by
  have hyear := d.year_lt
  have hmonth := d.month_lt
  have hday := d.day_lt
  have hfits : FitsInt d.year ∧ FitsInt d.month ∧ FitsInt d.day := by
    unfold FitsInt
    omega
  rw [date, if_neg (not_not.2 hfits), of?_self]
  rfl

theorem intOf_digits {cs : List Char} (hne : cs ≠ []) (hdigits : ∀ c ∈ cs, c.isDigit) (hlength : cs.length ≤ 4300) :
    intOf cs = .ok (number cs) := by
  rw [intOf, int_of_digits hne hdigits hlength]
  rfl

theorem intOf_padded {width n : ℕ} (hpos : 0 < width) (hwidth : width ≤ 4300) (h : n < 10 ^ width) :
    intOf (padded width n) = .ok n := by
  have hlength := length_padded h
  have hne : padded width n ≠ [] := List.ne_nil_of_length_pos (by omega)
  rw [intOf_digits hne (padded_isDigit width n) (by omega), number_padded h]

/-- the year, with leading zeros or without -/
theorem intOf_year (padYear : Bool) (d : CivilDate) :
    intOf (if padYear then padded 4 d.year else Nat.toDigits 10 d.year) = .ok d.year := by
  cases padYear with
  | true => exact intOf_padded (by norm_num) (by norm_num) d.year_lt
  | false =>
    have hlength : (Nat.toDigits 10 d.year).length ≤ 4 := (Nat.length_toDigits_le_iff (by norm_num) (by norm_num)).2 d.year_lt
    have hread := intOf_digits (Nat.toDigits_ne_nil (b := 10) (n := d.year)) (toDigits_isDigit d.year) (by omega)
    rw [number_toDigits] at hread
    exact hread

theorem year_isDigit (padYear : Bool) (d : CivilDate) :
    ∀ c ∈ if padYear then padded 4 d.year else Nat.toDigits 10 d.year, c.isDigit := by
  cases padYear
  · exact toDigits_isDigit d.year
  · exact padded_isDigit 4 d.year

theorem mem_strftime {padYear : Bool} {d : CivilDate} {c : Char} (h : c ∈ strftime padYear d) : c = '/' ∨ c.isDigit := by
  rcases List.mem_append.1 h with hday | hrest
  · exact .inr (padded_isDigit _ _ c hday)
  · rcases List.mem_cons.1 hrest with rfl | hrest
    · exact .inl rfl
    · rcases List.mem_append.1 hrest with hmonth | hrest
      · exact .inr (padded_isDigit _ _ c hmonth)
      · rcases List.mem_cons.1 hrest with rfl | hyear
        · exact .inl rfl
        · exact .inr (year_isDigit padYear d c hyear)

theorem strip_strftime (padYear : Bool) (d : CivilDate) : strip (strftime padYear d) = strftime padYear d := by
  apply stripOf_eq_self
  intro c hc
  rcases mem_strftime hc with rfl | hdigit
  · decide
  · exact isSpace_of_isDigit hdigit

theorem splitOn_strftime (padYear : Bool) (d : CivilDate) : (strftime padYear d).splitOn '/' =
    [padded 2 d.day, padded 2 d.month, if padYear then padded 4 d.year else Nat.toDigits 10 d.year] := by
  rw [strftime, List.splitOn_append_cons_self_of_not_mem (not_mem_of_isDigit (padded_isDigit 2 d.day) rfl),
    List.splitOn_append_cons_self_of_not_mem (not_mem_of_isDigit (padded_isDigit 2 d.month) rfl),
    List.splitOn_eq_singleton (not_mem_of_isDigit (year_isDigit padYear d) rfl)]

theorem slash_mem_strftime (padYear : Bool) (d : CivilDate) : '/' ∈ strftime padYear d :=
  List.mem_append_right _ List.mem_cons_self

theorem slashDate_strftime (padYear : Bool) (d : CivilDate) : slashDate (strftime padYear d) = .ok d := by
  rw [slashDate, splitOn_strftime]
  dsimp only
  rw [intOf_year, intOf_padded (by norm_num) (by norm_num) d.month_lt, intOf_padded (by norm_num) (by norm_num) d.day_lt]
  simp only [bind_eq_ok, Except.ok.injEq, exists_eq_left']
  exact date_self d

/-- **A date reads back.** What `strftime` writes for a date, with or without a padded year, the importer reads as this
date. -/
theorem parseDate_strftime (padYear : Bool) (d : CivilDate) (rowNumber : String) :
    parseDate (strftime padYear d) rowNumber = .ok d := by
  refine parseDate_slash ?_ ?_
  · rw [strip_strftime]
    exact slash_mem_strftime padYear d
  · rw [strip_strftime]
    exact slashDate_strftime padYear d

/-! ## Amounts -/

theorem mem_fixed {x : Decimal} {c : Char} (h : c ∈ x.fixed) : c = ',' ∨ c = '-' ∨ c = '.' ∨ c.isDigit := by
  by_cases hcomma : c = ','
  · exact .inl hcomma
  · refine .inr (Decimal.mem_ungrouped (x := x) ?_)
    rw [← Decimal.remove_fixed]
    exact List.mem_filter.2 ⟨h, by simpa using hcomma⟩

theorem isSpace_of_mem_fixed {x : Decimal} {c : Char} (h : c ∈ x.fixed) : isSpace c = false := by
  rcases mem_fixed h with rfl | rfl | rfl | hdigit
  · decide
  · decide
  · decide
  · exact isSpace_of_isDigit hdigit

/-- there are no blanks to remove -/
theorem remove_blank_fixed (x : Decimal) {c : Char} (hc : isSpace c = true) : remove c x.fixed = x.fixed := by
  apply remove_eq_self
  intro h
  rw [isSpace_of_mem_fixed h] at hc
  cases hc

/-- the characters of a grouped whole number -/
theorem mem_groups {cs : List Char} (h : ∀ c ∈ cs, c.isDigit) : ∀ c ∈ groups cs, c.isDigit ∨ c = ',' := by
  intro c hc
  by_cases hcomma : c = ','
  · exact .inr hcomma
  · have hmem : c ∈ remove ',' (groups cs) := List.mem_filter.2 ⟨hc, by simpa using hcomma⟩
    rw [remove_groups (not_mem_of_isDigit h rfl)] at hmem
    exact .inl (h c hmem)

/-- the importer takes the commas of the export for what they are -/
theorem normaliseAmount_fixed (x : Decimal) : normaliseAmount x.fixed = remove ',' x.fixed := by
  have hstrip : strip x.fixed = x.fixed := stripOf_eq_self fun _ => isSpace_of_mem_fixed
  have htext : remove ' ' (remove nbsp (strip x.fixed)) =
      signed x.negative (groups (Nat.toDigits 10 (x.cents / 100))) '.' (padded 2 (x.cents % 100)) := by
    rw [hstrip, remove_blank_fixed x (c := nbsp) (by decide), remove_blank_fixed x (c := ' ') (by decide), Decimal.fixed_eq]
    rfl
  have hdigits := toDigits_isDigit (x.cents / 100)
  rw [normaliseAmount_point htext (mem_groups hdigits) (padded_isDigit _ _), Decimal.remove_fixed,
    ← filter_digits_of_mem rfl (mem_groups hdigits), remove_groups (not_mem_of_isDigit hdigits rfl)]
  rfl

theorem cents_mk (negative : Bool) (n : ℕ) : (⟨negative, n, -2⟩ : Decimal).cents = n := by
  have hvalue : |(⟨negative, n, -2⟩ : Decimal).value| * 100 = ((n : ℤ) : ℚ) := by
    rw [Decimal.abs_value_eq]
    norm_num [mul_assoc]
  rw [Decimal.cents, hvalue, halfEven_intCast, Int.toNat_natCast]

/-- **An amount reads back.** What the export writes for an amount in cents, the importer reads as these cents. -/
theorem parseAmount_fixed {negative : Bool} {n : ℕ} (hne : n ≠ 0) (hlt : n < 10 ^ 18) (rowNumber : String) :
    parseAmount (⟨negative, n, -2⟩ : Decimal).fixed rowNumber = .ok ⟨negative, n, -2⟩ := by
  have hread : Numeral.parse (normaliseAmount (⟨negative, n, -2⟩ : Decimal).fixed) = some (.finite ⟨negative, n, -2⟩) := by
    rw [normaliseAmount_fixed, Decimal.parse_fixed (by rw [cents_mk]; omega), cents_mk]
  exact parseAmount_cents hread hne hlt rowNumber

theorem value_cents {amount : ℚ} {n : ℤ} (h : amount * 100 = n) :
    (⟨amount < 0, n.natAbs, -2⟩ : Decimal).value = amount := by
  apply value_of_cents
  rw [Nat.cast_natAbs, Int.cast_abs, ← h, abs_mul]
  norm_num

/-- an amount in cents is not rounded, and reads back -/
theorem quantizeCents_reads {amount : ℚ} (hplaces : HasPlaces 2 amount) (hlt : |amount| < 10 ^ 16) (hne : amount ≠ 0) :
    ∃ x, quantizeCents amount = .ok x ∧ x.value = amount ∧ ∀ rowNumber, parseAmount x.fixed rowNumber = .ok x := by
  obtain ⟨n, hn⟩ := hasPlaces_iff.1 hplaces
  have hcents : amount * 100 = n := by
    rw [← hn]
    norm_num
  have hbound : n.natAbs < 10 ^ 18 := by
    have habs : |(n : ℚ)| < 10 ^ 18 := by
      rw [← hcents, abs_mul]
      norm_num
      linarith
    have hint : |n| < 10 ^ 18 := by exact_mod_cast habs
    rw [Int.abs_eq_natAbs] at hint
    exact_mod_cast hint
  have hpos : n.natAbs ≠ 0 := by
    rw [Int.natAbs_ne_zero]
    rintro rfl
    exact hne (by simpa using hcents)
  refine ⟨⟨amount < 0, n.natAbs, -2⟩, ?_, value_cents hcents, parseAmount_fixed hpos hbound⟩
  unfold quantizeCents
  dsimp only
  rw [hcents, halfEven_intCast]
  exact if_neg (not_le.2 (hbound.trans (by decide)))

/-! ## Value dates -/

theorem mem_isoFormat {d : CivilDate} {c : Char} (h : c ∈ d.isoFormat) : c = '-' ∨ c.isDigit := by
  simp only [isoFormat, List.mem_append, List.mem_cons] at h
  rcases h with (hyear | rfl | hmonth) | rfl | hday
  · exact .inr (padded_isDigit _ _ c hyear)
  · exact .inl rfl
  · exact .inr (padded_isDigit _ _ c hmonth)
  · exact .inl rfl
  · exact .inr (padded_isDigit _ _ c hday)

theorem isBreak_of_isDigit {c : Char} (h : c.isDigit) : isBreak c = false := by
  have := isDigit_iff.1 h
  simp only [isBreak, decide_eq_false_iff_not, List.mem_cons, List.not_mem_nil, or_false]
  omega

/-- **The notes of the importer carry the value date**, as the export looks for it. -/
theorem valueDate_isoFormat (d : CivilDate) : valueDate (valueDateLabel ++ d.isoFormat) = some d := by
  have hline : splitlines (valueDateLabel ++ d.isoFormat) = [valueDateLabel ++ d.isoFormat] := by
    apply splitlines_of_isBreak (List.append_ne_nil_of_left_ne_nil (by decide +kernel) _)
    intro c hc
    rcases List.mem_append.1 hc with hlabel | hiso
    · have hall : valueDateLabel.all (fun c => !isBreak c) = true := by decide +kernel
      simpa using List.all_eq_true.1 hall c hlabel
    · rcases mem_isoFormat hiso with rfl | hdigit
      · decide
      · exact isBreak_of_isDigit hdigit
  have hlabel : valueDateLabel.isPrefixOf (valueDateLabel ++ d.isoFormat) = true :=
    List.isPrefixOf_iff_prefix.2 (List.prefix_append _ _)
  have hstrip : strip d.isoFormat = d.isoFormat := by
    apply stripOf_eq_self
    intro c hc
    rcases mem_isoFormat hc with rfl | hdigit
    · decide
    · exact isSpace_of_isDigit hdigit
  rw [valueDate, hline, List.find?_cons_of_pos hlabel, Option.bind_some, List.drop_left, hstrip, fromIsoFormat_isoFormat]

theorem valueDate_nil : valueDate [] = none := rfl

end Vault67.Ledger
