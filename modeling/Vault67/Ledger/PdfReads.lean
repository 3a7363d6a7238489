/-
Which PDF statements are read.

- `pdfRows_read`: the rows are read exactly when their numbers and dates are, their amounts fit the column, and every
  change of the balance has, rounded to the context, the printed magnitude.
- `parseTransactionPdf_reads`: the whole parser.
-/
import Mathlib.Tactic
import Vault67.Ledger.CsvErrors
import Vault67.Ledger.Pdf
import Vault67.Lib.Rows

namespace Vault67.Ledger

open Fallible Text

/-! ## Numbers -/

theorem fits_of_fits_column {x : Decimal} (hplaces : -4 ≤ x.exponent) (hlt : |x.value| < 10 ^ 16) :
    decimalContext.Fits x.value := by
  obtain ⟨n, hn⟩ := Decimal.value_mul_pow (k := 4) hplaces
  have hvalue : x.value = n * 10 ^ (-4 : ℤ) := by
    rw [← hn]
    ring
  refine ⟨n, -4, ?_, by decide, hvalue⟩
  have hbound : |(n : ℚ)| < 10 ^ 28 := by
    rw [← hn, abs_mul]
    norm_num at hlt ⊢
    linarith
  exact_mod_cast hbound

/-- a number that is below the largest of the column is no overflow -/
theorem result_of_lt {x : Decimal} (h : |(decimalContext.round x).value| < 10 ^ 16) :
    decimalContext.result x = some (decimalContext.round x) := by
  refine Context.result_eq_some.2 ⟨fun hoverflow => ?_, rfl⟩
  refine absurd (Context.overflows_iff.1 hoverflow) (not_le.2 (h.trans ?_))
  rw [← zpow_natCast]
  exact zpow_lt_zpow_right₀ (by norm_num) (by decide)

theorem round_abs_of_fits {x : Decimal} (h : decimalContext.Fits x.value) :
    (decimalContext.round x.abs).value = |x.value| := by
  rw [← Decimal.abs_value, Context.round_value_eq_iff, Decimal.abs_value]
  exact h.abs

theorem tooLong_eq_false_iff {x : Decimal} : tooLong x = .ok false ↔ -4 ≤ x.exponent ∧ |x.value| < 10 ^ 16 := by
  refine ⟨fun h => ⟨(tooLong_eq_false h).1, (tooLong_eq_false h).2.1⟩, fun h => ?_⟩
  obtain ⟨hplaces, hlt⟩ := h
  have hround := round_abs_of_fits (fits_of_fits_column hplaces hlt)
  have hresult : decimalContext.result x.abs = some (decimalContext.round x.abs) :=
    result_of_lt (by rwa [hround, abs_abs])
  unfold tooLong
  rw [if_neg (not_lt.2 hplaces), hresult, Option.elim_some, hround, decide_eq_false (not_le.2 hlt)]

theorem inContext_of_lt {x : Decimal} (h : |(decimalContext.round x).value| < 10 ^ 16) :
    inContext x = .ok (decimalContext.round x) :=
  elim_eq_ok.2 (result_of_lt h)

/-- an amount is signed when there is no balance before it, or the rounded change has its magnitude -/
theorem signedAmount_reads {previous : Option Decimal} {rawAmount balance : Decimal} {date : String}
    (hplaces : -4 ≤ rawAmount.exponent) (hlt : |rawAmount.value| < 10 ^ 16) :
    (∃ amount, signedAmount previous rawAmount balance date = .ok amount) ↔
      ∀ p ∈ previous, |(decimalContext.round (balance.sub p)).value| = |rawAmount.value| := by
  have hraw := round_abs_of_fits (fits_of_fits_column hplaces hlt)
  refine ⟨?_, ?_⟩
  · intro h p hp
    obtain ⟨amount, hamount⟩ := h
    obtain ⟨hmagnitude, hchange⟩ := signedAmount_ok hamount hraw
    rw [← hchange p hp]
    exact hmagnitude
  · intro h
    cases previous with
    | none => exact ⟨rawAmount, rfl⟩
    | some p =>
      have hmagnitude := h p rfl
      have hchanged := round_abs_of_fits (Context.fits_round (c := decimalContext) (balance.sub p))
      simp only [signedAmount, bind_eq_ok, ite_error_eq_ok, not_not]
      refine ⟨_, _, inContext_of_lt (hmagnitude ▸ hlt), _, inContext_of_lt ?_, _, inContext_of_lt ?_, ?_, rfl⟩
      · rwa [hchanged, abs_abs, hmagnitude]
      · rwa [hraw, abs_abs]
      · rw [hchanged, hraw, hmagnitude]

/-! ## Rows -/

/-- the row reads after a balance, and has this one -/
structure RowReadsPdf (previous : Option Decimal) (row : PdfRow) (balance : Decimal) : Prop where
  printed_balance : printedNumber row.balance = some balance
  amount : ∃ x, printedNumber row.amount = some x ∧ x.coefficient ≠ 0 ∧ -4 ≤ x.exponent ∧ |x.value| < 10 ^ 16 ∧
    ∀ p ∈ previous, |(decimalContext.round (balance.sub p)).value| = |x.value|
  date : DateReads row.date

theorem pdfRow_reads {previous : Option Decimal} {record : PdfRecord} {balance : Decimal} :
    (∃ row, pdfRow previous record = .ok (row, balance)) ↔ RowReadsPdf previous record.toPdfRow balance := by
  refine ⟨?_, ?_⟩
  · intro h
    obtain ⟨row, h⟩ := h
    simp only [pdfRow, bind_eq_ok, ite_error_eq_ok, Bool.not_eq_true] at h
    obtain ⟨x, hx, b, hbalance, hzero, long, hlong, rfl, amount, hamount, d, hd, h⟩ := h
    cases h
    obtain ⟨hplaces, hlt⟩ := tooLong_eq_false_iff.1 hlong
    exact ⟨elim_eq_ok.1 hbalance, ⟨x, elim_eq_ok.1 hx, hzero, hplaces, hlt,
      (signedAmount_reads hplaces hlt).1 ⟨amount, hamount⟩⟩, (dateReads_iff _).1 ⟨d, hd⟩⟩
  · intro h
    obtain ⟨hbalance, ⟨x, hx, hzero, hplaces, hlt, hchange⟩, hdate⟩ := h
    have hsigned : ∃ amount, signedAmount previous x balance (String.ofList record.date) = .ok amount :=
      (signedAmount_reads hplaces hlt).2 hchange
    obtain ⟨amount, hamount⟩ := hsigned
    obtain ⟨d, hd⟩ := (dateReads_iff (String.ofList record.date)).2 hdate
    simp only [pdfRow, bind_eq_ok, ite_error_eq_ok, Bool.not_eq_true]
    exact ⟨_, x, elim_eq_ok.2 hx, balance, elim_eq_ok.2 hbalance, hzero, false, tooLong_eq_false_iff.2 ⟨hplaces, hlt⟩,
      rfl, amount, hamount, d, hd, rfl⟩

/-- the rows read one after the other, from a balance on -/
def RowsRead : Option Decimal → List PdfRow → Prop
  | _, [] => True
  | previous, row :: rows => ∃ balance, RowReadsPdf previous row balance ∧ RowsRead (some balance) rows

theorem pdfRows_read {previous : Option Decimal} {records : List PdfRecord} :
    (∃ rows, pdfRows previous records = .ok rows) ↔ RowsRead previous (records.map PdfRecord.toPdfRow) := by
  induction records generalizing previous with
  | nil => exact iff_of_true ⟨[], rfl⟩ trivial
  | cons record records ih =>
    simp only [List.map_cons, RowsRead, ← ih, ← pdfRow_reads, pdfRows, bind_eq_ok]
    refine ⟨?_, ?_⟩
    · intro h
      obtain ⟨rows, ⟨row, balance⟩, hrow, rest, hrest, -⟩ := h
      exact ⟨balance, ⟨row, hrow⟩, rest, hrest⟩
    · intro h
      obtain ⟨balance, ⟨row, hrow⟩, rest, hrest⟩ := h
      exact ⟨row :: rest, (row, balance), hrow, rest, hrest, rfl⟩

/-! ## Files -/

/-- the opening balance that is printed -/
def openingNumber (text : List Char) : Option Decimal := (openingRow text).bind fun r => printedNumber r.1

theorem openingBalance_reads {text : List Char} :
    (∃ opening, openingBalance text = .ok opening) ↔ ∀ r ∈ openingRow text, printedNumber r.1 ≠ none := by
  unfold openingBalance
  cases openingRow text with
  | none => simp
  | some r =>
    simp only [bind_eq_ok, parsePdfNumber, elim_eq_ok, Option.mem_some_iff, forall_eq']
    cases printedNumber r.1 <;> simp

theorem openingBalance_fields {text : List Char} {opening : Option (Decimal × String)}
    (h : openingBalance text = .ok opening) : opening.map Prod.fst = openingNumber text ∧
      opening.map Prod.snd = (openingRow text).map fun r => String.ofList r.2 := by
  unfold openingBalance at h
  unfold openingNumber
  cases hrow : openingRow text with
  | none =>
    rw [hrow] at h
    cases h
    exact ⟨rfl, rfl⟩
  | some r =>
    rw [hrow] at h
    obtain ⟨balance, hbalance, h⟩ := bind_eq_ok.1 h
    cases h
    exact ⟨(elim_eq_ok.1 hbalance).symm, rfl⟩

/-- the currencies of the rows, and that of the opening balance -/
def printedCurrencies (pages : List (List Char)) (text : List Char) : List (List Char) :=
  (transactionRows pages).map PdfRow.currency ++ (openingRow text).toList.map Prod.snd

/-- a statement of the supported layout, in one currency, whose rows read -/
structure StatementReads (pages : List (List Char)) (text currency : List Char) : Prop where
  layout : ∃ page ∈ pages, ∀ label ∈ layoutLabels, label.toList <:+: page
  rows_ne : transactionRows pages ≠ []
  opening : ∀ r ∈ openingRow text, printedNumber r.1 ≠ none
  rows : RowsRead (openingNumber text) (transactionRows pages)
  currency : ∀ c ∈ printedCurrencies pages text, c = currency

theorem rawPdfTransactions_eq_ok {pages : List (List Char)} {records : List PdfRecord} :
    rawPdfTransactions pages = .ok records ↔
      (∃ page ∈ pages, ∀ label ∈ layoutLabels, label.toList <:+: page) ∧ transactionRows pages ≠ [] ∧
        pages.foldl readPage [] = records := by
  have hrows : pages.foldl readPage [] = [] ↔ transactionRows pages = [] := by
    rw [← List.map_eq_nil_iff (f := PdfRecord.toPdfRow), rows_foldl_readPage]
    rfl
  simp only [rawPdfTransactions, ite_error_eq_ok, not_not, hrows, Except.ok.injEq, ne_eq]

theorem currencyCodes_printed {records : List PdfRecord} {rows : List ImportedRow}
    (h : List.Forall₂ (fun record row => ∃ previous balance, PrintedOn previous record balance row) records rows) :
    rows.map ImportedRow.currencyCode =
      (records.map PdfRecord.toPdfRow).map fun row => some (String.ofList row.currency) := by
  induction h with
  | nil => rfl
  | cons hrow _ ih =>
    obtain ⟨previous, balance, hprinted⟩ := hrow
    simp [hprinted.currencyCode, ih]

/-- the currencies that are compared are the printed ones -/
theorem currencies_eq {pages : List (List Char)} {text : List Char} {records : List PdfRecord}
    {opening : Option (Decimal × String)} {rows : List ImportedRow}
    (hrecords : rawPdfTransactions pages = .ok records) (hopening : openingBalance text = .ok opening)
    (hrows : pdfRows (opening.map Prod.fst) records = .ok rows) :
    rows.map ImportedRow.currencyCode ++ opening.toList.map (fun o => some o.2) =
      (printedCurrencies pages text).map fun c => some (String.ofList c) := by
  have hsnd := congrArg (fun o => o.toList.map some) (openingBalance_fields hopening).2
  rw [currencyCodes_printed (pdfRows_printed hrows), rawPdfTransactions_rows hrecords, printedCurrencies,
    List.map_append, List.map_map, List.map_map]
  congr 1
  simpa [Option.toList_map, Function.comp_def] using hsnd

theorem some_ofList_injective : Function.Injective fun c : List Char => some (String.ofList c) :=
  fun _ _ h => String.ofList_injective (Option.some_injective _ h)

/-- the check of the currencies -/
theorem one_currency_iff {pages : List (List Char)} {text : List Char} (hne : transactionRows pages ≠ []) :
    ((printedCurrencies pages text).map fun c => some (String.ofList c)).dedup.length = 1 ↔
      ∃ currency, ∀ c ∈ printedCurrencies pages text, c = currency := by
  rw [List.dedup_map_of_injective some_ofList_injective, List.length_map]
  exact Rows.dedup_length_eq_one (by simp [printedCurrencies, hne])

/-- **A file is read exactly when its text is extracted and is a statement that reads**: its rows, its opening balance
and one currency. -/
theorem parseTransactionPdf_reads {pdf : PdfModule} {file : ByteArray} :
    (∃ rows, parseTransactionPdf pdf file = .ok rows) ↔
      ∃ pages text currency, extractPdfText pdf file = .ok (pages, text) ∧ StatementReads pages text currency := by
  simp only [parseTransactionPdf, bind_eq_ok, ite_error_eq_ok, not_not]
  refine ⟨?_, ?_⟩
  · intro h
    obtain ⟨rows, ⟨pages, text⟩, hextract, records, hrecords, opening, hopening, parsed, hparsed, hcurrencies, -⟩ := h
    obtain ⟨hlayout, hne, -⟩ := rawPdfTransactions_eq_ok.1 hrecords
    rw [currencies_eq hrecords hopening hparsed, one_currency_iff hne] at hcurrencies
    obtain ⟨currency, hcurrency⟩ := hcurrencies
    refine ⟨pages, text, currency, hextract, hlayout, hne, openingBalance_reads.1 ⟨opening, hopening⟩, ?_, hcurrency⟩
    rw [← (openingBalance_fields hopening).1, ← rawPdfTransactions_rows hrecords]
    exact pdfRows_read.1 ⟨parsed, hparsed⟩
  · intro h
    obtain ⟨pages, text, currency, hextract, hreads⟩ := h
    have hrecords := rawPdfTransactions_eq_ok.2 ⟨hreads.layout, hreads.rows_ne, rfl⟩
    obtain ⟨opening, hopening⟩ := openingBalance_reads.2 hreads.opening
    have hread := hreads.rows
    rw [← (openingBalance_fields hopening).1, ← rawPdfTransactions_rows hrecords] at hread
    obtain ⟨rows, hrows⟩ := pdfRows_read.2 hread
    refine ⟨rows, (pages, text), hextract, _, hrecords, opening, hopening, rows, hrows, ?_, rfl⟩
    rw [currencies_eq hrecords hopening hrows]
    exact (one_currency_iff hreads.rows_ne).2 ⟨currency, hreads.currency⟩

end Vault67.Ledger
