/-
`ledger/imports.py`: reading a PDF statement.

What `pypdf` and `unicodedata.normalize` do with a file is a parameter. The layout is read line by line: a line that is a
transaction row begins a record, the lines after it add to the record, and a line of the statement's frame or the end of
the page ends it. The sign of an amount is that of the change of the running balance.

- `rawPdfTransactions_rows`: there is one record for each line that is a transaction row, in order.
- `pdfRow_ok`: what a record says of its imported row.
-/
import Mathlib.Tactic
import Vault67.Ledger.Csv
import Vault67.Lib.Pattern

namespace Vault67.Ledger

open Fallible Text Pattern

/-! ## Patterns -/

inductive PdfGroup where
  | date | description | amount | currency | balance | reference | related
deriving DecidableEq, Repr

/-- the characters of a number -/
def isNumberChar (c : Char) : Bool := isDigit c || c = ',' || c = '.'

def isUpper (c : Char) : Bool := 'A' ≤ c ∧ c ≤ 'Z'

/-- `\s{n,}` -/
def spaces (n : ℕ) : Token PdfGroup := .rep isSpace n none true

/-- the characters of a text, one after the other -/
def literal (s : String) : List (Token PdfGroup) := s.toList.map fun c => .rep (· = c) 1 (some 1) true

/-- `\d{n}` -/
def digitsOf (n : ℕ) : Token PdfGroup := .rep isDigit n (some n) true

/-- `\d{2}/\d{2}/\d{4}` -/
def datePattern : List (Token PdfGroup) := digitsOf 2 :: literal "/" ++ digitsOf 2 :: literal "/" ++ [digitsOf 4]

/-- `(?P<name>-?[\d,.]+)` -/
def numberPattern (name : PdfGroup) : List (Token PdfGroup) :=
  [.start name, .rep (· = '-') 0 (some 1) true, .rep isNumberChar 1 none true, .stop name]

/-- `(?P<currency>[A-Z]{3})` -/
def currencyPattern : List (Token PdfGroup) := [.start .currency, .rep isUpper 3 (some 3) true, .stop .currency]

/-- `PDF_TRANSACTION_ROW` -/
def pdfTransactionRow : List (Token PdfGroup) :=
  spaces 0 :: .start .date :: datePattern ++ .stop .date :: spaces 2 ::
    .start .description :: .rep (· ≠ '\n') 0 none false :: .stop .description :: spaces 2 ::
    numberPattern .amount ++ spaces 1 :: currencyPattern ++ spaces 2 ::
    numberPattern .balance ++ [spaces 1, .same .currency, spaces 0, .atEnd]

/-- `PDF_REFERENCE_ROW` -/
def pdfReferenceRow : List (Token PdfGroup) :=
  [spaces 0, .start .reference, .rep isDigit 8 none true, .stop .reference, spaces 2, .start .related,
    .rep (fun c => !isSpace c) 1 (some 1) true, .rep (· ≠ '\n') 0 none false, .stop .related, spaces 0, .atEnd]

/-- `PDF_OPENING_BALANCE` -/
def pdfOpeningBalance : List (Token PdfGroup) :=
  literal "Opening Balance" ++ spaces 1 :: datePattern ++ spaces 1 :: numberPattern .balance ++
    spaces 1 :: currencyPattern

/-! ## Text -/

/-- why the PDF library gives no pages or no text -/
inductive PdfFailure where
  /-- the file is encrypted and the empty password does not open it -/
  | password
  /-- PdfReadError, OSError, ValueError, TypeError or KeyError -/
  | unreadable
  /-- any other exception -/
  | other
deriving DecidableEq, Repr

/-- what leaves the parser -/
def PdfFailure.raised : PdfFailure → Raised
  | .password => .pdfImport "Password-protected PDFs are not supported."
  | .unreadable => .pdfImport "The PDF could not be read."
  | .other => .pdf

/-- the PDF library: the pages of a file, each with its text in layout mode, and the NFKC form of a text -/
structure PdfModule where
  pages : ByteArray → Except PdfFailure (List (Except PdfFailure (List Char)))
  normalize : List Char → List Char

/-- `_extract_pdf_text` -/
def extractPdfText (pdf : PdfModule) (file : ByteArray) : Except Raised (List (List Char) × List Char) := do
  let pages ← (pdf.pages file).mapError PdfFailure.raised
  if 100 < pages.length then .error (.pdfImport "The PDF must contain 100 pages or fewer.")
  else do
    let pages ← (pages.mapM (Except.map pdf.normalize)).mapError PdfFailure.raised
    let text := ['\n'].intercalate pages
    if strip text = [] then
      .error (.pdfImport "No text was found in the PDF. Scanned image-only statements are not supported.")
    else if 2000000 < text.length then .error (.pdfImport "The extracted PDF text is too large to import.")
    else .ok (pages, text)

/-! ## Records -/

/-- the groups of a transaction row -/
structure PdfRow where
  date : List Char
  description : List Char
  amount : List Char
  currency : List Char
  balance : List Char
deriving DecidableEq, Repr

/-- a transaction row and what the lines after it add -/
structure PdfRecord extends PdfRow where
  details : List (List Char)
  reference : List Char
  related : List Char
deriving DecidableEq, Repr

/-- `PDF_TRANSACTION_ROW.match(line)` -/
def transactionRow (line : List Char) : Option PdfRow := do
  let g ← matchAt pdfTransactionRow line
  some ⟨← g.get .date, ← g.get .description, ← g.get .amount, ← g.get .currency, ← g.get .balance⟩

/-- the groups of a row are parts of its line -/
theorem transactionRow_within {line : List Char} {row : PdfRow} (h : transactionRow line = some row) :
    row.description <:+: line ∧ row.currency <:+: line := by
  simp only [transactionRow, Option.bind_eq_bind, Option.bind_eq_some_iff, Option.some.injEq] at h
  obtain ⟨g, hmatch, date, -, description, hdescription, amount, -, currency, hcurrency, balance, -, rfl⟩ := h
  exact ⟨matchAt_get_within hmatch hdescription, matchAt_get_within hmatch hcurrency⟩

/-- the lines that are not part of any transaction -/
def frameLines : List String := ["Credit balances", "Generated on:", "DATE/REF", "Opening Balance"]

/-- the reference and the related account of a line -/
def referenceRow (line : List Char) : Option (List Char × List Char) := do
  let g ← matchAt pdfReferenceRow line
  some (← g.get .reference, ← g.get .related)

theorem referenceRow_within {line reference related : List Char} (h : referenceRow line = some (reference, related)) :
    related <:+: line := by
  simp only [referenceRow, Option.bind_eq_bind, Option.bind_eq_some_iff, Option.some.injEq, Prod.mk.injEq] at h
  obtain ⟨g, hmatch, _, -, found, hfound, -, rfl⟩ := h
  exact matchAt_get_within hmatch hfound

/-- a line after the one a record begins with; none when it ends the record -/
def readDetail (current : PdfRecord) (line : List Char) : Option PdfRecord :=
  let stripped := strip line
  if stripped = [] then some current
  else if ∃ start ∈ frameLines, start.toList <+: stripped then none
  else
    match (if current.reference = [] then referenceRow line else none) with
    | some (reference, related) => some { current with reference := reference, related := related }
    | none =>
      some (if line.head?.any isSpace then { current with details := current.details ++ [stripped] } else current)

/-- the body of the loop over the lines: the records so far, and the one that is open -/
def readLine (s : List PdfRecord × Option PdfRecord) (line : List Char) : List PdfRecord × Option PdfRecord :=
  match transactionRow line with
  | some row => (s.1 ++ s.2.toList, some ⟨row, [], [], []⟩)
  | none =>
    match s.2 with
    | none => s
    | some current =>
      match readDetail current line with
      | some current => (s.1, some current)
      | none => (s.1 ++ [current], none)

/-- the records of a page -/
def readPage (records : List PdfRecord) (page : List Char) : List PdfRecord :=
  let (records, current) := (splitlines page).foldl readLine (records, none)
  records ++ current.toList

/-- the labels of the layout -/
def layoutLabels : List String := ["DATE/REF", "TRANSACTION DETAILS", "BALANCE AFTER"]

/-- `_raw_pdf_transactions` -/
def rawPdfTransactions (pages : List (List Char)) : Except Raised (List PdfRecord) :=
  let records := pages.foldl readPage []
  if ¬∃ page ∈ pages, ∀ label ∈ layoutLabels, label.toList <:+: page then
    .error (.pdfImport "This PDF does not use a supported bank-statement layout.")
  else if records = [] then .error (.pdfImport "No transactions were found in the PDF statement.")
  else .ok records

/-- the lines of the pages that are transaction rows -/
def transactionRows (pages : List (List Char)) : List PdfRow :=
  pages.flatMap fun page => (splitlines page).filterMap transactionRow

theorem readDetail_row {current next : PdfRecord} {line : List Char} (h : readDetail current line = some next) :
    next.toPdfRow = current.toPdfRow := by
  unfold readDetail at h
  generalize (if current.reference = [] then referenceRow line else none) = found at h
  dsimp only at h
  split_ifs at h
  · cases h
    rfl
  · cases found <;> cases h <;> rfl
  · cases found <;> cases h <;> rfl

/-- the rows of a state: those of its records, and that of the open one -/
def stateRows (s : List PdfRecord × Option PdfRecord) : List PdfRow := (s.1 ++ s.2.toList).map PdfRecord.toPdfRow

/-- a line adds a row exactly when it is one -/
theorem stateRows_readLine (s : List PdfRecord × Option PdfRecord) (line : List Char) :
    stateRows (readLine s line) = stateRows s ++ (transactionRow line).toList := by
  obtain ⟨records, current⟩ := s
  unfold readLine stateRows
  cases transactionRow line with
  | some row => simp
  | none =>
    cases current with
    | none => simp
    | some current =>
      dsimp only
      cases h : readDetail current line with
      | none => simp
      | some next => simp [readDetail_row h]

theorem stateRows_foldl (s : List PdfRecord × Option PdfRecord) (lines : List (List Char)) :
    stateRows (lines.foldl readLine s) = stateRows s ++ lines.filterMap transactionRow := by
  induction lines generalizing s with
  | nil => simp
  | cons line lines ih =>
    rw [List.foldl_cons, ih, stateRows_readLine, List.append_assoc]
    cases h : transactionRow line <;> simp [h]

theorem rows_readPage (records : List PdfRecord) (page : List Char) :
    (readPage records page).map PdfRecord.toPdfRow =
      records.map PdfRecord.toPdfRow ++ (splitlines page).filterMap transactionRow := by
  have h := stateRows_foldl (records, none) (splitlines page)
  simpa [stateRows, readPage] using h

theorem rows_foldl_readPage (records : List PdfRecord) (pages : List (List Char)) :
    (pages.foldl readPage records).map PdfRecord.toPdfRow =
      records.map PdfRecord.toPdfRow ++ transactionRows pages := by
  induction pages generalizing records with
  | nil => simp [transactionRows]
  | cons page pages ih =>
    rw [List.foldl_cons, ih, rows_readPage, List.append_assoc]
    rfl

/-- **One record for each transaction row, in order.** No line that is a transaction row is skipped, none gives two
records. -/
theorem rawPdfTransactions_rows {pages : List (List Char)} {records : List PdfRecord}
    (h : rawPdfTransactions pages = .ok records) : records.map PdfRecord.toPdfRow = transactionRows pages := by
  simp only [rawPdfTransactions, ite_error_eq_ok] at h
  obtain ⟨-, -, h⟩ := h
  cases h
  exact rows_foldl_readPage [] pages

/-! ## Imported rows -/

/-- the finite number that is printed, commas grouping its digits -/
def printedNumber (value : List Char) : Option Decimal :=
  match Numeral.parse (remove ',' value) with
  | some (.finite x) => some x
  | _ => none

/-- `_parse_pdf_number` -/
def parsePdfNumber (value : List Char) (transactionDate : String) : Except Raised Decimal :=
  (printedNumber value).elim
    (.error (.pdfImport s!"Could not read the amount for the transaction dated {transactionDate}.")) .ok

/-- the result of an operation in the context -/
def inContext (x : Decimal) : Except Raised Decimal := (decimalContext.result x).elim (.error .decimalOverflow) .ok

/-- the amount of a row: as printed on the first row without a balance before it, and else the change of the balance,
which must have the printed magnitude -/
def signedAmount (previous : Option Decimal) (rawAmount balance : Decimal) (date : String) : Except Raised Decimal :=
  match previous with
  | none => .ok rawAmount
  | some previous => do
    let change ← inContext (balance.sub previous)
    let changed ← inContext change.abs
    let printed ← inContext rawAmount.abs
    if changed.value ≠ printed.value then
      .error (.pdfImport s!"The running balance does not reconcile for the transaction dated {date}.")
    else .ok change

theorem inContext_eq_ok {x y : Decimal} (h : inContext x = .ok y) : y = decimalContext.round x :=
  (Context.result_eq_some.1 (elim_eq_ok.1 h)).2.symm

/-- a signed amount has the printed magnitude, and after another balance it is the rounded change -/
theorem signedAmount_ok {previous : Option Decimal} {rawAmount balance amount : Decimal} {date : String}
    (h : signedAmount previous rawAmount balance date = .ok amount)
    (hraw : (decimalContext.round rawAmount.abs).value = |rawAmount.value|) :
    |amount.value| = |rawAmount.value| ∧ ∀ p ∈ previous, amount = decimalContext.round (balance.sub p) := by
  cases previous with
  | none =>
    cases h
    exact ⟨rfl, nofun⟩
  | some p =>
    simp only [signedAmount, bind_eq_ok, ite_error_eq_ok, not_not, Except.ok.injEq] at h
    obtain ⟨change, hchange, changed, hchanged, printed, hprinted, heq, rfl⟩ := h
    have hround := inContext_eq_ok hchange
    refine ⟨?_, fun q hq => ?_⟩
    · rw [inContext_eq_ok hchanged, inContext_eq_ok hprinted, hraw] at heq
      rw [← heq, ← Decimal.abs_value, Context.round_value_eq_iff.2]
      rw [Decimal.abs_value, hround]
      exact (Context.fits_round _).abs
    · cases hq
      exact hround

/-- the description of a record and of the lines after it -/
def PdfRecord.fullDescription (record : PdfRecord) : List Char :=
  strip ([' '].intercalate ((record.description :: record.details).filter (· ≠ [])))

/-- the description that fits the column -/
def shortDescription (description : List Char) : List Char :=
  if 255 < description.length then description.take 252 ++ "...".toList else description

/-- the related account, the balance, and the description when it was cut -/
def PdfRecord.notes (record : PdfRecord) (balance : Decimal) : List Char :=
  ['\n'].intercalate
    ((if record.related = [] then [] else ["Related account: ".toList ++ record.related]) ++
      ["Balance after: ".toList ++ balance.fixed ++ ' ' :: record.currency] ++
      if 255 < record.fullDescription.length then ["Full description: ".toList ++ record.fullDescription] else [])

/-- the body of the loop over the records: the imported row and its balance -/
def pdfRow (previous : Option Decimal) (record : PdfRecord) : Except Raised (ImportedRow × Decimal) := do
  let date := String.ofList record.date
  let rawAmount ← parsePdfNumber record.amount date
  let balance ← parsePdfNumber record.balance date
  if rawAmount.coefficient = 0 then .error (.pdfImport s!"The transaction dated {date} has a zero amount.")
  else do
    if ← tooLong rawAmount then
      .error (.pdfImport s!"The amount for the transaction dated {date} has too many digits or decimal places.")
    else do
      let amount ← signedAmount previous rawAmount balance date
      let description := String.ofList (shortDescription record.fullDescription)
      let transactionDate ← parseDate record.date date
      .ok (⟨transactionDate.ordinal, description, amount.value, transactionTypeOf description amount.value,
        String.ofList (record.notes balance), String.ofList (record.reference.take 100),
        some (String.ofList record.currency), rfl⟩, balance)

/-- the imported row is what a record and the balance before it say -/
structure PrintedOn (previous : Option Decimal) (record : PdfRecord) (balance : Decimal) (row : ImportedRow) : Prop where
  amount : ∃ x, printedNumber record.amount = some x ∧ row.amount ≠ 0 ∧ |row.amount| = |x.value| ∧ -4 ≤ x.exponent ∧
    |x.value| < 10 ^ 16
  printed_balance : printedNumber record.balance = some balance
  change : ∀ p ∈ previous, row.amount = (decimalContext.round (balance.sub p)).value
  date : ∃ d, parseDate record.date (String.ofList record.date) = .ok d ∧ row.transactionDate = d.ordinal
  description : row.description = String.ofList (shortDescription record.fullDescription)
  notes : row.notes = String.ofList (record.notes balance)
  reference : row.reference = String.ofList (record.reference.take 100)
  currencyCode : row.currencyCode = some (String.ofList record.currency)

theorem pdfRow_ok {previous : Option Decimal} {record : PdfRecord} {row : ImportedRow} {balance : Decimal}
    (h : pdfRow previous record = .ok (row, balance)) : PrintedOn previous record balance row := by
  simp only [pdfRow, bind_eq_ok, ite_error_eq_ok] at h
  obtain ⟨rawAmount, hraw, b, hbalance, hzero, long, hlong, hlong', amount, hamount, d, hd, h⟩ := h
  rw [Bool.not_eq_true] at hlong'
  subst hlong'
  cases h
  obtain ⟨hplaces, hlt, hexact⟩ := tooLong_eq_false hlong
  obtain ⟨hmagnitude, hchange⟩ := signedAmount_ok hamount hexact
  refine ⟨⟨rawAmount, elim_eq_ok.1 hraw, ?_, hmagnitude, hplaces, hlt⟩, elim_eq_ok.1 hbalance,
    fun p hp => congrArg Decimal.value (hchange p hp), ⟨d, hd, rfl⟩, rfl, rfl, rfl, rfl⟩
  show amount.value ≠ 0
  rw [← abs_pos, hmagnitude, abs_pos]
  exact Decimal.value_eq_zero.not.2 hzero

/-- the loop over the records; the balance of each row is the one before the next -/
def pdfRows (previous : Option Decimal) : List PdfRecord → Except Raised (List ImportedRow)
  | [] => .ok []
  | record :: records => do
    let (row, balance) ← pdfRow previous record
    let rows ← pdfRows (some balance) records
    .ok (row :: rows)

theorem pdfRows_cons_ok {previous : Option Decimal} {record : PdfRecord} {records : List PdfRecord}
    {rows : List ImportedRow} (h : pdfRows previous (record :: records) = .ok rows) :
    ∃ row balance rest, PrintedOn previous record balance row ∧ pdfRows (some balance) records = .ok rest ∧
      rows = row :: rest := by
  simp only [pdfRows, bind_eq_ok] at h
  obtain ⟨⟨row, balance⟩, hrow, rest, hrest, h⟩ := h
  cases h
  exact ⟨row, balance, rest, pdfRow_ok hrow, hrest, rfl⟩

theorem pdfRows_printed {previous : Option Decimal} {records : List PdfRecord} {rows : List ImportedRow}
    (h : pdfRows previous records = .ok rows) :
    List.Forall₂ (fun record row => ∃ previous balance, PrintedOn previous record balance row) records rows := by
  induction records generalizing previous rows with
  | nil =>
    cases h
    exact .nil
  | cons record records ih =>
    obtain ⟨row, balance, rest, hrow, hrest, rfl⟩ := pdfRows_cons_ok h
    exact .cons ⟨previous, balance, hrow⟩ (ih hrest)

/-- `PDF_OPENING_BALANCE.search(text)`: the balance and the currency -/
def openingRow (text : List Char) : Option (List Char × List Char) := do
  let g ← search pdfOpeningBalance text
  some (← g.get .balance, ← g.get .currency)

/-- the opening balance and its currency, when the text has one -/
def openingBalance (text : List Char) : Except Raised (Option (Decimal × String)) :=
  match openingRow text with
  | none => .ok none
  | some (balance, currency) => do
    let balance ← parsePdfNumber balance "opening balance"
    .ok (some (balance, String.ofList currency))

/-- `parse_transaction_pdf` -/
def parseTransactionPdf (pdf : PdfModule) (file : ByteArray) : Except Raised (List ImportedRow) := do
  let (pages, text) ← extractPdfText pdf file
  let records ← rawPdfTransactions pages
  let opening ← openingBalance text
  let rows ← pdfRows (opening.map Prod.fst) records
  let currencies := rows.map ImportedRow.currencyCode ++ opening.toList.map fun o => some o.2
  if currencies.dedup.length ≠ 1 then
    .error (.pdfImport "The PDF contains transactions in multiple currencies.")
  else .ok rows

theorem parseTransactionPdf_ok {pdf : PdfModule} {file : ByteArray} {rows : List ImportedRow}
    (h : parseTransactionPdf pdf file = .ok rows) :
    ∃ pages text records opening, extractPdfText pdf file = .ok (pages, text) ∧
      rawPdfTransactions pages = .ok records ∧ openingBalance text = .ok opening ∧
        pdfRows (opening.map Prod.fst) records = .ok rows := by
  simp only [parseTransactionPdf, bind_eq_ok, ite_error_eq_ok] at h
  obtain ⟨⟨pages, text⟩, hextract, records, hrecords, opening, hopening, parsed, hparsed, -, h⟩ := h
  cases h
  exact ⟨pages, text, records, opening, hextract, hrecords, hopening, hparsed⟩

end Vault67.Ledger
