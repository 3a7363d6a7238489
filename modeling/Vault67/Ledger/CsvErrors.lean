/-
What can leave the CSV parser.

`TransactionImportView.form_valid` turns a `CsvImportError` into a form error and lets everything else through, so a file
is handled when the parser returns rows or raises `CsvImportError`.

- `huge_year_escapes`: the date of a row can be written with integers too large for a date: OverflowError.
- `csv_handled_iff`: a file is handled exactly when no row overflows before the first row that is refused, and the reader
  does not raise csv.Error before that either.

A date overflows when an integer of it does not fit a C int; an amount does when it has at most four decimals and its
absolute value, rounded to the context, has its first digit above the largest place.
-/
import Mathlib.Tactic
import Vault67.Ledger.Csv

namespace Vault67.Ledger

open Fallible Text

/-- the import view makes no form error of it -/
def Raised.Unhandled (e : Raised) : Prop := ¬∃ message, e = .csvImport message

/-- rows, at least one, or CsvImportError -/
def Handled : Except Raised (List ImportedRow) → Prop
  | .ok rows => rows ≠ []
  | .error e => ∃ message, e = .csvImport message

@[simp] theorem unhandled_csvImport (message : String) : ¬(Raised.csvImport message).Unhandled := fun h => h ⟨message, rfl⟩

@[simp] theorem unhandled_overflow : Raised.overflow.Unhandled := nofun

@[simp] theorem unhandled_decimalOverflow : Raised.decimalOverflow.Unhandled := nofun

/-! ## Fields -/

/-- three integers, one of which is no C int -/
def DateOverflows (value : List Char) : Prop :=
  '/' ∈ strip value ∧ ∃ d m y day month year, (strip value).splitOn '/' = [d, m, y] ∧ int d = some day ∧
    int m = some month ∧ int y = some year ∧ ¬(FitsInt year ∧ FitsInt month ∧ FitsInt day)

/-- a date that exists -/
def DateReads (value : List Char) : Prop := ∃ d, parseDate value "" = .ok d

/-- a number with at most four decimals whose absolute value is too large for the context -/
def AmountOverflows (value : List Char) : Prop :=
  ∃ x, Numeral.parse (normaliseAmount value) = some (.finite x) ∧ x.coefficient ≠ 0 ∧ -4 ≤ x.exponent ∧
    10 ^ ((decimalContext.emax : ℤ) + 1) ≤ |(decimalContext.round x.abs).value|

/-- a number that fits the column -/
def AmountReads (value : List Char) : Prop := ∃ x, parseAmount value "" = .ok x

/-- what is left of an exception that `_parse_date` does not catch -/
def Uncaught (e : Raised) : Prop := e ≠ .value ∧ e.Unhandled

@[simp] theorem not_uncaught_value : ¬Uncaught .value := fun h => h.1 rfl

theorem uncaught_date {year month day : ℤ} :
    Raises Uncaught (date year month day) ↔ ¬(FitsInt year ∧ FitsInt month ∧ FitsInt day) := by
  unfold date
  by_cases hfit : FitsInt year ∧ FitsInt month ∧ FitsInt day
  · simp [hfit]
  · simp [hfit, Uncaught]

theorem not_uncaught_intOf (text : List Char) : ¬Raises Uncaught (intOf text) := by
  simp [intOf]

theorem intOf_eq_ok {text : List Char} {n : ℤ} : intOf text = .ok n ↔ int text = some n := elim_eq_ok

theorem uncaught_slashDate {value : List Char} :
    Raises Uncaught (slashDate value) ↔ ∃ d m y day month year, value.splitOn '/' = [d, m, y] ∧ int d = some day ∧
      int m = some month ∧ int y = some year ∧ ¬(FitsInt year ∧ FitsInt month ∧ FitsInt day) := by
  unfold slashDate
  split
  · rename_i d m y hparts
    simp only [raises_bind, not_uncaught_intOf, false_or, intOf_eq_ok, uncaught_date]
    refine ⟨?_, ?_⟩
    · intro h
      obtain ⟨year, hy, month, hm, day, hd, hfit⟩ := h
      exact ⟨d, m, y, day, month, year, hparts, hd, hm, hy, hfit⟩
    · intro h
      obtain ⟨d', m', y', day, month, year, hparts', hd, hm, hy, hfit⟩ := h
      rw [hparts] at hparts'
      cases hparts'
      exact ⟨year, hy, month, hm, day, hd, hfit⟩
  · rename_i hparts
    apply iff_of_false (fun h => not_uncaught_value (raises_error.1 h))
    intro h
    obtain ⟨d, m, y, -, -, -, hparts', -⟩ := h
    exact hparts d m y hparts'

theorem unhandled_parseDate {value : List Char} {rowNumber : String} :
    Raises Raised.Unhandled (parseDate value rowNumber) ↔ DateOverflows value := by
  dsimp only [parseDate, DateOverflows]
  rw [raises_catch (unhandled_csvImport _)]
  change Raises Uncaught _ ↔ _
  split_ifs with hslash
  · rw [uncaught_slashDate]
    exact (and_iff_right hslash).symm
  · simp [hslash]

/-- the row number is read by messages only -/
theorem dateReads_iff {value : List Char} (rowNumber : String) :
    (∃ d, parseDate value rowNumber = .ok d) ↔ DateReads value := by
  unfold DateReads parseDate
  dsimp only
  split_ifs <;> simp

theorem unhandled_tooLong {x : Decimal} :
    Raises Raised.Unhandled (tooLong x) ↔
      -4 ≤ x.exponent ∧ 10 ^ ((decimalContext.emax : ℤ) + 1) ≤ |(decimalContext.round x.abs).value| := by
  unfold tooLong
  rw [← Context.overflows_iff, ← Context.result_eq_none]
  split_ifs with h
  · simp [h]
  · cases decimalContext.result x.abs <;> simp [not_lt.1 h]

theorem unhandled_parseAmount {value : List Char} {rowNumber : String} :
    Raises Raised.Unhandled (parseAmount value rowNumber) ↔ AmountOverflows value := by
  unfold parseAmount AmountOverflows
  cases hn : Numeral.parse (normaliseAmount value) with
  | none => simp
  | some numeral =>
    cases numeral with
    | infinity negative => simp
    | nan negative signaling payload => simp
    | finite x =>
      simp only [Option.some.injEq, Numeral.finite.injEq, exists_eq_left']
      rw [raises_ite_error (unhandled_csvImport _), raises_bind]
      apply and_congr_right
      intro _
      rw [unhandled_tooLong]
      apply or_iff_left
      intro h
      obtain ⟨long, -, h⟩ := h
      cases long <;> simp at h

theorem amountReads_iff {value : List Char} (rowNumber : String) :
    (∃ x, parseAmount value rowNumber = .ok x) ↔ AmountReads value := by
  unfold AmountReads parseAmount
  cases Numeral.parse (normaliseAmount value) with
  | none => simp
  | some numeral =>
    cases numeral with
    | infinity negative => simp
    | nan negative signaling payload => simp
    | finite x =>
      simp only [ite_error_eq_ok, bind_eq_ok]

/-! ## Rows -/

/-- the row is blank, or has a description and reads -/
def RowReads (columns : Columns) (row : DictRow) : Prop :=
  ¬row.Extra ∧ (row.Blank ∨
    (strip (row.text columns.description) ≠ [] ∧ (strip (row.text columns.description)).length ≤ 255 ∧
      DateReads (row.text columns.transactionDate) ∧ AmountReads (row.text columns.amount) ∧
        ∀ h ∈ columns.valueDate, strip (row.text h) = [] ∨ DateReads (row.text h)))

/-- the row is not refused before a field of it overflows -/
def RowOverflows (columns : Columns) (row : DictRow) : Prop :=
  ¬row.Extra ∧ ¬row.Blank ∧ strip (row.text columns.description) ≠ [] ∧
    (strip (row.text columns.description)).length ≤ 255 ∧
      (DateOverflows (row.text columns.transactionDate) ∨
        DateReads (row.text columns.transactionDate) ∧
          (AmountOverflows (row.text columns.amount) ∨
            AmountReads (row.text columns.amount) ∧ ∃ h ∈ columns.valueDate, DateOverflows (row.text h)))

theorem unhandled_valueDateNotes {columns : Columns} {row : DictRow} {rowNumber : String} :
    Raises Raised.Unhandled (valueDateNotes columns row rowNumber) ↔
      ∃ h ∈ columns.valueDate, DateOverflows (row.text h) := by
  unfold valueDateNotes
  cases columns.valueDate with
  | none => simp
  | some header =>
    dsimp only
    split_ifs with hblank
    · simp [DateOverflows, hblank]
    · simp [raises_bind, unhandled_parseDate]

theorem valueDateNotes_reads {columns : Columns} {row : DictRow} (rowNumber : String) :
    (∃ notes, valueDateNotes columns row rowNumber = .ok notes) ↔
      ∀ h ∈ columns.valueDate, strip (row.text h) = [] ∨ DateReads (row.text h) := by
  unfold valueDateNotes
  cases columns.valueDate with
  | none => simp
  | some header =>
    dsimp only
    split_ifs with hblank
    · simp [hblank]
    · simp only [bind_eq_ok, ← dateReads_iff rowNumber]
      simp [hblank]

theorem unhandled_parseRow {columns : Columns} {row : DictRow} {rowNumber : String} :
    Raises Raised.Unhandled (parseRow columns row rowNumber) ↔ RowOverflows columns row := by
  unfold parseRow RowOverflows
  rw [raises_ite_error (unhandled_csvImport _)]
  apply and_congr_right
  intro _
  by_cases hblank : row.Blank
  · simp [hblank]
  · dsimp only
    rw [if_neg hblank, raises_ite_error (unhandled_csvImport _), raises_ite_error (unhandled_csvImport _), not_lt,
      and_iff_right hblank]
    simp only [raises_bind, unhandled_parseDate, unhandled_parseAmount, unhandled_valueDateNotes, not_raises_ok, and_false,
      exists_false, or_false, exists_and_right, dateReads_iff rowNumber, amountReads_iff rowNumber]

theorem parseRow_reads {columns : Columns} {row : DictRow} {rowNumber : String} :
    (∃ r, parseRow columns row rowNumber = .ok r) ↔ RowReads columns row := by
  simp only [parseRow_ok_iff, exists_and_left]
  refine and_congr_right fun _ => ⟨fun h => ?_, fun h => ?_⟩
  · obtain ⟨r, ⟨hblank, -⟩ | ⟨-, parsed, -, hread⟩⟩ := h
    · exact .inl hblank
    · obtain ⟨d, hd, -⟩ := hread.date
      obtain ⟨x, hx, -⟩ := hread.amount
      exact .inr ⟨hread.description_ne, hread.description_length, (dateReads_iff rowNumber).1 ⟨d, hd⟩,
        (amountReads_iff rowNumber).1 ⟨x, hx⟩, (valueDateNotes_reads rowNumber).1 ⟨_, hread.notes⟩⟩
  · by_cases hblank : row.Blank
    · exact ⟨none, .inl ⟨hblank, rfl⟩⟩
    · obtain ⟨hne, hlength, hdate, hamount, hvalueDate⟩ := h.resolve_left hblank
      obtain ⟨d, hd⟩ := (dateReads_iff rowNumber).2 hdate
      obtain ⟨x, hx⟩ := (amountReads_iff rowNumber).2 hamount
      obtain ⟨notes, hnotes⟩ := (valueDateNotes_reads rowNumber).2 hvalueDate
      exact ⟨_, .inr ⟨hblank, ⟨d.ordinal, String.ofList (strip (row.text columns.description)), x.value, _, notes, "", none,
        rfl⟩, rfl, rfl, hne, hlength, ⟨d, hd, rfl⟩, ⟨x, hx, rfl⟩, hnotes, rfl, rfl⟩⟩

/-! ## Files -/

/-- a row overflows and every row before it reads, or every row reads and the reader raises csv.Error at the end -/
def RowsEscape (columns : Columns) (rows : List DictRow) (raises : Bool) : Prop :=
  (∃ before row after, rows = before ++ row :: after ∧ (∀ r ∈ before, RowReads columns r) ∧ RowOverflows columns row) ∨
    (∀ r ∈ rows, RowReads columns r) ∧ raises

theorem unhandled_numberedRows {columns : Columns} {rows : List DictRow} (n : ℕ) :
    Raises Raised.Unhandled ((rows.zipIdx n).mapM fun (raw, rowNumber) => parseRow columns raw (toString rowNumber)) ↔
      ∃ before row after, rows = before ++ row :: after ∧ (∀ r ∈ before, RowReads columns r) ∧
        RowOverflows columns row := by
  rw [raises_mapM]
  refine ⟨?_, ?_⟩
  · intro h
    obtain ⟨before, ⟨row, m⟩, after, hrows, hbefore, hrow⟩ := h
    refine ⟨before.map Prod.fst, row, after.map Prod.fst, ?_, fun r hr => ?_, unhandled_parseRow.1 hrow⟩
    · simpa using congrArg (List.map Prod.fst) hrows
    · obtain ⟨p, hp, rfl⟩ := List.mem_map.1 hr
      exact parseRow_reads.1 (hbefore p hp)
  · intro h
    obtain ⟨before, row, after, rfl, hbefore, hrow⟩ := h
    refine ⟨before.zipIdx n, (row, n + before.length), after.zipIdx (n + before.length + 1), ?_, fun p hp => ?_,
      unhandled_parseRow.2 hrow⟩
    · rw [List.zipIdx_append, List.zipIdx_cons]
    · exact parseRow_reads.2 (hbefore p.1 (List.fst_mem_of_mem_zipIdx hp))

theorem numberedRows_read {columns : Columns} {rows : List DictRow} (n : ℕ) :
    (∃ parsed, ((rows.zipIdx n).mapM fun (raw, rowNumber) => parseRow columns raw (toString rowNumber)) = .ok parsed) ↔
      ∀ r ∈ rows, RowReads columns r := by
  rw [exists_mapM_ok_iff]
  refine ⟨fun h r hr => ?_, fun h p hp => parseRow_reads.2 (h p.1 (List.fst_mem_of_mem_zipIdx hp))⟩
  obtain ⟨p, hp, rfl⟩ := List.mem_map.1 (List.zipIdx_map_fst n rows ▸ hr)
  exact parseRow_reads.1 (h p hp)

theorem unhandled_parseRows {columns : Columns} {rows : List DictRow} {raises : Bool} :
    Raises Raised.Unhandled (parseRows columns rows raises) ↔ RowsEscape columns rows raises := by
  unfold parseRows RowsEscape
  rw [raises_bind, unhandled_numberedRows, ← numberedRows_read 2]
  refine or_congr_right ⟨fun h => ?_, fun h => ?_⟩
  · obtain ⟨parsed, hparsed, h⟩ := h
    refine ⟨⟨parsed, hparsed⟩, ?_⟩
    by_contra hraises
    rw [if_neg hraises, raises_ite_error (unhandled_csvImport _)] at h
    exact not_raises_ok _ _ h.2
  · obtain ⟨⟨parsed, hparsed⟩, hraises⟩ := h
    refine ⟨parsed, hparsed, ?_⟩
    rw [if_pos hraises]
    exact raises_error.2 nofun

theorem parseRows_ne_nil {columns : Columns} {rows : List DictRow} {raises : Bool} {parsed : List ImportedRow}
    (h : parseRows columns rows raises = .ok parsed) : parsed ≠ [] := by
  simp only [parseRows, bind_eq_ok, ite_error_eq_ok] at h
  obtain ⟨all, -, -, hne, h⟩ := h
  cases h
  exact hne

/-- the file is decoded, and its records escape -/
def CsvEscapes (csv : CsvModule) (file : ByteArray) : Prop :=
  ∃ content, decodeUtf8Sig file = some content ∧ strip content ≠ [] ∧
    match csv.read content with
    | ([], raises) => raises
    | (fieldnames :: records, raises) =>
      ∃ columns, columnsOf fieldnames = .ok columns ∧ RowsEscape columns (dictRows fieldnames records) raises

theorem unhandled_columnsOf (fieldnames : List (List Char)) :
    ¬Raises Raised.Unhandled (columnsOf fieldnames) := by
  unfold columnsOf
  split <;> simp

theorem unhandled_parseTransactionCsv (csv : CsvModule) (file : ByteArray) :
    Raises Raised.Unhandled (parseTransactionCsv csv file) ↔ CsvEscapes csv file := by
  unfold parseTransactionCsv CsvEscapes
  cases decodeUtf8Sig file with
  | none => simp
  | some content =>
    simp only [Option.some.injEq, exists_eq_left']
    rw [raises_ite_error (unhandled_csvImport _)]
    apply and_congr_right
    intro _
    obtain ⟨records, raises⟩ := csv.read content
    cases records with
    | nil => cases raises <;> simp [Raised.Unhandled]
    | cons fieldnames records =>
      dsimp only
      rw [raises_ite_error (unhandled_csvImport _), raises_bind]
      simp only [unhandled_columnsOf, false_or, unhandled_parseRows]
      apply and_iff_right_of_imp
      intro h hnil
      obtain ⟨columns, hcolumns, -⟩ := h
      rw [hnil] at hcolumns
      cases hcolumns

theorem parseTransactionCsv_ne_nil {csv : CsvModule} {file : ByteArray} {rows : List ImportedRow}
    (h : parseTransactionCsv csv file = .ok rows) : rows ≠ [] := by
  unfold parseTransactionCsv at h
  split at h
  · cases h
  · rw [ite_error_eq_ok] at h
    obtain ⟨-, h⟩ := h
    split at h
    · cases h
    · rw [ite_error_eq_ok, bind_eq_ok] at h
      obtain ⟨-, columns, -, h⟩ := h
      exact parseRows_ne_nil h

/-- **A file is handled exactly when it does not escape.** For every csv reader and every content, the parser returns rows or
raises its own error, unless a text of the file escapes from a conversion that is not caught. -/
theorem csv_handled_iff (csv : CsvModule) (file : ByteArray) :
    Handled (parseTransactionCsv csv file) ↔ ¬CsvEscapes csv file := by
  rw [← unhandled_parseTransactionCsv]
  cases h : parseTransactionCsv csv file with
  | ok rows => exact iff_of_true (parseTransactionCsv_ne_nil h) (not_raises_ok _ rows)
  | error e =>
    rw [raises_error]
    exact not_not.symm

/-- one row, dated in a year too large for a C int -/
def hugeYear : ByteArray := "Transaction Date,Description,Amount\n1/1/99999999999,x,1\n".toUTF8

/-- OverflowError leaves the parser -/
theorem huge_year_escapes :
    parseTransactionCsv commaCsv hugeYear = .error .overflow ∧ ¬Handled (parseTransactionCsv commaCsv hugeYear) := by
  have h : parseTransactionCsv commaCsv hugeYear = .error .overflow := eq_error_of_check (by decide +kernel)
  refine ⟨h, ?_⟩
  rw [h]
  exact nofun

end Vault67.Ledger
