/-
`ledger/imports.py`: reading a CSV statement.

The csv module of Python is a parameter: a dialect is guessed from a sample or not, and a reader yields records and may
raise csv.Error after the last of them. `DictReader`, the decoding and the field parsers are as in the source.

`parseTransactionCsv` returns what leaves the parser, the rows or an exception. An exception carries its message where
the code builds one.
-/
import Mathlib.Tactic
import Vault67.Ledger.Imports
import Vault67.Lib.Calendar
import Vault67.Lib.Decimal
import Vault67.Lib.Fallible

namespace Vault67.Ledger

open Fallible Text

/-- an exception on its way out of a parser -/
inductive Raised where
  | csvImport (message : String)
  | pdfImport (message : String)
  /-- csv.Error -/
  | csv
  /-- ValueError -/
  | value
  /-- OverflowError -/
  | overflow
  /-- decimal.Overflow -/
  | decimalOverflow
  /-- an exception of the PDF library that the parser does not catch -/
  | pdf
deriving DecidableEq, Repr

/-- the csv module of Python, and how it reads a text -/
structure CsvModule where
  Dialect : Type
  excel : Dialect
  /-- `Sniffer().sniff(sample, delimiters)`, none when it raises csv.Error -/
  sniff : List Char → List Char → Option Dialect
  /-- the records of `reader(StringIO(text), dialect)`, and whether it raises csv.Error after the last one -/
  reader : Dialect → List Char → List (List (List Char)) × Bool

/-- the csv module on a text without quotes, carriage returns and blank lines -/
def commaCsv : CsvModule where
  Dialect := Unit
  excel := ()
  sniff _ _ := some ()
  reader _ text := (((text.splitOn '\n').filter (· ≠ [])).map (·.splitOn ','), false)

/-! ## Fields -/

/-- `_normalise_header` -/
def normaliseHeader (value : List Char) : List Char :=
  [' '].intercalate (words (casefold (String.ofList (strip value))))

/-- a number that fits a C int -/
def FitsInt (n : ℤ) : Prop := -2 ^ 31 ≤ n ∧ n < 2 ^ 31

instance (n : ℤ) : Decidable (FitsInt n) := inferInstanceAs (Decidable (_ ∧ _))

/-- `date(year, month, day)` -/
def date (year month day : ℤ) : Except Raised CivilDate :=
  if ¬(FitsInt year ∧ FitsInt month ∧ FitsInt day) then .error .overflow
  else (CivilDate.of? year month day).elim (.error .value) .ok

/-- `int(text)` -/
def intOf (text : List Char) : Except Raised ℤ := (int text).elim (.error .value) .ok

/-- the three parts of `value.split("/")` as a date -/
def slashDate (value : List Char) : Except Raised CivilDate :=
  match value.splitOn '/' with
  | [day, month, year] => do
    let year ← intOf year
    let month ← intOf month
    let day ← intOf day
    date year month day
  | _ => .error .value

/-- `_parse_date` -/
def parseDate (value : List Char) (rowNumber : String) : Except Raised CivilDate :=
  let value := strip value
  let parsed :=
    if '/' ∈ value then slashDate value else (CivilDate.fromIsoFormat value).elim (.error .value) .ok
  if parsed = .error .value then
    .error (.csvImport s!"Row {rowNumber}: Transaction Date must use DD/MM/YYYY or YYYY-MM-DD.")
  else parsed

/-- the context of every operation on amounts -/
def decimalContext : Context := ⟨28, 999999, by decide⟩

/-- an amount as it is written, with a decimal point -/
def normaliseAmount (value : List Char) : List Char :=
  let value := remove ' ' (remove (Char.ofNat 0xA0) (strip value))
  if ',' ∈ value ∧ '.' ∈ value then
    if rfind '.' value < rfind ',' value then replace ',' '.' (remove '.' value) else remove ',' value
  else if ',' ∈ value then replace ',' '.' value
  else value

/-- `amount.as_tuple().exponent < -4 or abs(amount) >= Decimal(10000000000000000)` -/
def tooLong (amount : Decimal) : Except Raised Bool :=
  if amount.exponent < -4 then .ok true
  else (decimalContext.result amount.abs).elim (.error .decimalOverflow) fun x => .ok (10 ^ 16 ≤ x.value)

/-- an amount that is not too long fits the column, and its absolute value is exact -/
theorem tooLong_eq_false {x : Decimal} (h : tooLong x = .ok false) :
    -4 ≤ x.exponent ∧ |x.value| < 10 ^ 16 ∧ (decimalContext.round x.abs).value = |x.value| := by
  unfold tooLong at h
  by_cases hexponent : x.exponent < -4
  · rw [if_pos hexponent] at h
    cases h
  have hplaces : -4 ≤ x.exponent := not_lt.1 hexponent
  rw [if_neg hexponent] at h
  cases hr : decimalContext.result x.abs with
  | none =>
    rw [hr] at h
    cases h
  | some y =>
    rw [hr] at h
    obtain ⟨-, rfl⟩ := Context.result_eq_some.1 hr
    have hlt : (decimalContext.round x.abs).value < 10 ^ 16 := by simpa using Except.ok.inj h
    have hexact : (decimalContext.round x.abs).value = |x.value| := by
      rw [← Decimal.abs_value]
      refine Context.round_value_iff.2 (Context.exact_of_round_lt (hplaces.trans' (by decide)) ?_)
      rw [abs_of_nonneg (Context.round_abs_nonneg x)]
      exact hlt.trans_le (zpow_natCast (10 : ℚ) 16 ▸ zpow_le_zpow_right₀ (by norm_num) (by
        show ((16 : ℕ) : ℤ) ≤ 28 + x.exponent
        omega))
    exact ⟨hplaces, hexact ▸ hlt, hexact⟩

/-- `_parse_amount` -/
def parseAmount (value : List Char) (rowNumber : String) : Except Raised Decimal :=
  match Numeral.parse (normaliseAmount value) with
  | none => .error (.csvImport s!"Row {rowNumber}: Amount is not a valid number.")
  | some (.finite amount) =>
    if amount.coefficient = 0 then .error (.csvImport s!"Row {rowNumber}: Amount must not be zero.")
    else do
      if ← tooLong amount then
        .error (.csvImport s!"Row {rowNumber}: Amount has too many digits or decimal places.")
      else .ok amount
  | some _ => .error (.csvImport s!"Row {rowNumber}: Amount must be a finite number.")

/-- an amount that reads is not zero, has at most four decimals and is below the largest the column holds -/
theorem parseAmount_ok {value : List Char} {rowNumber : String} {x : Decimal} (h : parseAmount value rowNumber = .ok x) :
    x.value ≠ 0 ∧ HasPlaces 4 x.value ∧ |x.value| < 10 ^ 16 := by
  unfold parseAmount at h
  split at h
  · cases h
  · rw [ite_error_eq_ok, bind_eq_ok] at h
    obtain ⟨hzero, long, hlong, h⟩ := h
    cases long
    · cases h
      obtain ⟨hplaces, hlt, -⟩ := tooLong_eq_false hlong
      exact ⟨Decimal.value_eq_zero.not.2 hzero, hasPlaces_iff.2 (Decimal.value_mul_pow hplaces), hlt⟩
    · cases h
  · cases h

/-! ## Rows -/

/-- a row of `csv.DictReader` -/
structure DictRow where
  fieldnames : List (List Char)
  values : List (List Char)

namespace DictRow

/-- `row.get(key)`; the last of equal field names counts, and a value that is missing is None -/
def get (row : DictRow) (key : List Char) : Option (List Char) :=
  ((row.fieldnames.mapIdx fun i name => (name, row.values[i]?)).reverse.lookup key).join

/-- `row.get(key) or ""` -/
def text (row : DictRow) (key : List Char) : List Char := (row.get key).getD []

/-- `None in row` -/
def Extra (row : DictRow) : Prop := row.fieldnames.length < row.values.length

/-- `not any((value or "").strip() for value in row.values())` -/
def Blank (row : DictRow) : Prop := ∀ key ∈ row.fieldnames, strip (row.text key) = []

instance (row : DictRow) : Decidable row.Extra := inferInstanceAs (Decidable (_ < _))

instance (row : DictRow) : Decidable row.Blank := inferInstanceAs (Decidable (∀ _ ∈ _, _))

end DictRow

/-- the columns that are read -/
structure Columns where
  transactionDate : List Char
  description : List Char
  amount : List Char
  valueDate : Option (List Char)

/-- `headers.get(name)`; the last of equal headers counts -/
def header (fieldnames : List (List Char)) (name : String) : Option (List Char) :=
  fieldnames.reverse.find? fun h => normaliseHeader h = name.toList

/-- the notes of a row: its value date, when it has one -/
def valueDateNotes (columns : Columns) (raw : DictRow) (rowNumber : String) : Except Raised String :=
  match columns.valueDate with
  | none => .ok ""
  | some header =>
    if strip (raw.text header) = [] then .ok ""
    else do
      let valueDate ← parseDate (raw.text header) rowNumber
      .ok (String.ofList ("Value date: ".toList ++ valueDate.isoFormat))

/-- the body of the loop over the rows; none for a blank row -/
def parseRow (columns : Columns) (raw : DictRow) (rowNumber : String) : Except Raised (Option ImportedRow) :=
  if raw.Extra then .error (.csvImport s!"Row {rowNumber}: Found more values than header columns.")
  else if raw.Blank then .ok none
  else
    let description := strip (raw.text columns.description)
    if description = [] then .error (.csvImport s!"Row {rowNumber}: Description is required.")
    else if 255 < description.length then
      .error (.csvImport s!"Row {rowNumber}: Description must be 255 characters or fewer.")
    else do
      let transactionDate ← parseDate (raw.text columns.transactionDate) rowNumber
      let amount ← parseAmount (raw.text columns.amount) rowNumber
      let notes ← valueDateNotes columns raw rowNumber
      let description := String.ofList description
      .ok (some ⟨transactionDate.ordinal, description, amount.value, transactionTypeOf description amount.value, notes,
        "", none, rfl⟩)

/-- the imported row is what the fields of a record say -/
structure ReadFrom (columns : Columns) (raw : DictRow) (rowNumber : String) (row : ImportedRow) : Prop where
  description : row.description = String.ofList (strip (raw.text columns.description))
  description_ne : strip (raw.text columns.description) ≠ []
  description_length : (strip (raw.text columns.description)).length ≤ 255
  date : ∃ d, parseDate (raw.text columns.transactionDate) rowNumber = .ok d ∧ row.transactionDate = d.ordinal
  amount : ∃ x, parseAmount (raw.text columns.amount) rowNumber = .ok x ∧ row.amount = x.value
  notes : valueDateNotes columns raw rowNumber = .ok row.notes
  reference : row.reference = ""
  currencyCode : row.currencyCode = none

theorem parseRow_ok_iff {columns : Columns} {raw : DictRow} {rowNumber : String} {r : Option ImportedRow} :
    parseRow columns raw rowNumber = .ok r ↔
      ¬raw.Extra ∧ (raw.Blank ∧ r = none ∨ ¬raw.Blank ∧ ∃ row, r = some row ∧ ReadFrom columns raw rowNumber row) := by
  unfold parseRow
  rw [ite_error_eq_ok]
  apply and_congr_right
  intro _
  by_cases hblank : raw.Blank
  · simp [hblank, eq_comm]
  dsimp only
  rw [if_neg hblank, ite_error_eq_ok, ite_error_eq_ok, not_lt]
  simp only [hblank, false_and, false_or, not_false_eq_true, true_and, bind_eq_ok, Except.ok.injEq]
  refine ⟨?_, ?_⟩
  · intro h
    obtain ⟨hne, hlength, d, hd, x, hx, notes, hnotes, rfl⟩ := h
    exact ⟨_, rfl, rfl, hne, hlength, ⟨d, hd, rfl⟩, ⟨x, hx, rfl⟩, hnotes, rfl, rfl⟩
  · intro h
    obtain ⟨row, rfl, hdescription, hne, hlength, ⟨d, hd, hdate⟩, ⟨x, hx, hamount⟩, hnotes, href, hcode⟩ := h
    refine ⟨hne, hlength, d, hd, x, hx, row.notes, hnotes, congrArg some ?_⟩
    exact ImportedRow.eq_of_fields hdate.symm hdescription.symm hamount.symm rfl href.symm hcode.symm

/-! ## Files -/

def required : List String := ["transaction date", "description", "amount"]

/-- the columns of a header row, or the message for the required ones it lacks -/
def columnsOf (fieldnames : List (List Char)) : Except Raised Columns :=
  match header fieldnames "transaction date", header fieldnames "description", header fieldnames "amount" with
  | some transactionDate, some description, some amount =>
    .ok ⟨transactionDate, description, amount, header fieldnames "value date"⟩
  | _, _, _ =>
    let missing := ", ".intercalate ((required.filter fun name => header fieldnames name = none).map title)
    .error (.csvImport s!"Missing required column(s): {missing}.")

/-- the rows of a `DictReader`; an empty record is none -/
def dictRows (fieldnames : List (List Char)) (records : List (List (List Char))) : List DictRow :=
  (records.filter (· ≠ [])).map (DictRow.mk fieldnames)

/-- every row by its number, from 2 on, and then what the reader raises -/
def parseRows (columns : Columns) (rows : List DictRow) (raises : Bool) : Except Raised (List ImportedRow) := do
  let parsed ← (rows.zipIdx 2).mapM fun (raw, rowNumber) => parseRow columns raw (toString rowNumber)
  if raises then .error .csv
  else if parsed.reduceOption = [] then
    .error (.csvImport "The CSV file does not contain any transaction rows.")
  else .ok parsed.reduceOption

/-- a text read with the dialect that is guessed, or else the default one -/
def CsvModule.read (csv : CsvModule) (content : List Char) : List (List (List Char)) × Bool :=
  csv.reader ((csv.sniff (content.take 4096) [';', ',', Char.ofNat 9]).getD csv.excel) content

/-- `parse_transaction_csv` -/
def parseTransactionCsv (csv : CsvModule) (file : ByteArray) : Except Raised (List ImportedRow) :=
  match decodeUtf8Sig file with
  | none => .error (.csvImport "The CSV file must be UTF-8 encoded.")
  | some content =>
    if strip content = [] then .error (.csvImport "The CSV file is empty.")
    else
      match csv.read content with
      | ([], raises) =>
        .error (if raises then .csv else .csvImport "The CSV file does not contain a header row.")
      | (fieldnames :: records, raises) =>
        if fieldnames = [] then .error (.csvImport "The CSV file does not contain a header row.")
        else do
          let columns ← columnsOf fieldnames
          parseRows columns (dictRows fieldnames records) raises

end Vault67.Ledger
