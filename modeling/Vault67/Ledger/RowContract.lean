/-
What the columns ask of an imported row.

`create` does not validate, so both parsers have to. The CSV parser requires a description; the PDF parser joins what it
finds, and that may be nothing.

- `strip_strip_ne_nil`, `nonblank_intercalate`: blank texts.
- `nonblank_fullDescription`: a PDF row is described by its row line or by a detail.
- `ReadFrom.rowContract`, `PrintedOn.contract_iff`: the rows of both parsers.
- `rowContract_iff`: so exactly the PDF rows without either break the contract.
-/
import Mathlib.Tactic
import Vault67.Ledger.PdfBlocks
import Vault67.Ledger.Statements

namespace Vault67.Ledger

open Fallible Text

/-! ## Model -/

/-- the fields of Transaction and TransactionEntry accept the row -/
structure RowContract (row : ImportedRow) : Prop where
  description_ne : strip row.description.toList ≠ []
  description_length : row.description.length ≤ 255
  reference_length : row.reference.length ≤ 100
  amount_ne : row.amount ≠ 0
  amount_lt : |row.amount| < 10 ^ 16
  amount_places : HasPlaces 4 row.amount
  type_mem : row.transactionType ∈ [TransactionType.interest, .tax, .fee, .deposit, .withdrawal]

/-- every row that the file gives -/
def KeepsContract (lib : Libraries) (file : Upload) : Prop :=
  ∀ rows, parseFile lib file = .ok rows → ∀ row ∈ rows, RowContract row

/-- the row line or an indented line of its block says what the row is -/
def Described (b : PdfRow × List (List Char)) : Prop :=
  strip b.1.description ≠ [] ∨ ∃ line ∈ b.2.eraseP (fun line => IsReference line), strip line ≠ [] ∧ line.head?.any isSpace

/-- every row of a statement that reads is described -/
def StatementDescribed (lib : Libraries) (file : Upload) : Prop :=
  file.IsPdf → ∀ pages text currency, extractPdfText lib.pdf file.content = .ok (pages, text) →
    StatementReads pages text currency → ∀ b ∈ pageBlocks pages, Described b

/-! ## Descriptions -/

theorem indented_nonblank {block : List (List Char)} : ∀ detail ∈ indented block, strip detail ≠ [] := by
  intro detail h
  obtain ⟨line, hline, rfl⟩ := List.mem_map.1 h
  have hline := of_decide_eq_true (List.mem_filter.1 hline).2
  exact strip_strip_ne_nil.2 hline.1

/-- a row is described by its row line or by a detail -/
theorem nonblank_fullDescription (b : PdfRow × List (List Char)) :
    strip (recordOf b.1 b.2).fullDescription ≠ [] ↔ Described b := by
  have hfilter : ∀ parts : List (List Char),
      (∃ part ∈ parts.filter (· ≠ []), strip part ≠ []) ↔ ∃ part ∈ parts, strip part ≠ [] := by
    intro parts
    refine ⟨?_, ?_⟩
    · intro h
      obtain ⟨part, hpart, hne⟩ := h
      exact ⟨part, (List.mem_filter.1 hpart).1, hne⟩
    · intro h
      obtain ⟨part, hpart, hne⟩ := h
      have hpart_ne : part ≠ [] := by
        rintro rfl
        exact hne rfl
      exact ⟨part, List.mem_filter.2 ⟨hpart, by simpa using hpart_ne⟩, hne⟩
  have hdetails : (∃ detail ∈ (recordOf b.1 b.2).details, strip detail ≠ []) ↔
      ∃ line ∈ b.2.eraseP (fun line => IsReference line), strip line ≠ [] ∧ line.head?.any isSpace := by
    refine ⟨?_, ?_⟩
    · intro h
      obtain ⟨detail, hdetail, -⟩ := h
      obtain ⟨line, hline, -⟩ := List.mem_map.1 hdetail
      obtain ⟨hmem, hline⟩ := List.mem_filter.1 hline
      exact ⟨line, hmem, of_decide_eq_true hline⟩
    · intro h
      obtain ⟨line, hmem, hline⟩ := h
      have hdetail : strip line ∈ (recordOf b.1 b.2).details :=
        List.mem_map_of_mem (List.mem_filter.2 ⟨hmem, decide_eq_true hline⟩)
      exact ⟨strip line, hdetail, indented_nonblank _ hdetail⟩
  rw [PdfRecord.fullDescription, strip_strip_ne_nil, nonblank_intercalate, hfilter, List.exists_mem_cons_iff, hdetails]
  rfl

/-- a cut description ends in points -/
theorem nonblank_shortDescription {text : List Char} :
    strip (shortDescription (strip text)) ≠ [] ↔ strip (strip text) ≠ [] := by
  unfold shortDescription
  split_ifs with hlong
  · apply iff_of_true
    · exact strip_ne_nil_iff.2 ⟨'.', List.mem_append_right _ (by decide), by decide⟩
    · exact strip_strip_ne_nil.2 (List.ne_nil_of_length_pos (by omega))
  · rfl

/-! ## Rows -/

theorem Storable.rowContract {row : ImportedRow} (h : Storable row) (hne : strip row.description.toList ≠ []) :
    RowContract row :=
  ⟨hne, h.description, h.reference, h.amount_ne, h.amount_lt, h.amount, row.type_mem⟩

/-- a CSV row always keeps the contract -/
theorem ReadFrom.rowContract {columns : Columns} {raw : DictRow} {rowNumber : String} {row : ImportedRow}
    (h : ReadFrom columns raw rowNumber row) : RowContract row := by
  apply h.storable.rowContract
  rw [h.description, String.toList_ofList]
  exact strip_strip_ne_nil.2 h.description_ne

/-- a PDF row keeps it when it is described -/
theorem PrintedOn.contract_iff {previous : Option Decimal} {b : PdfRow × List (List Char)} {balance : Decimal}
    {row : ImportedRow} (h : PrintedOn previous (recordOf b.1 b.2) balance row) : RowContract row ↔ Described b := by
  have hdescription : strip row.description.toList ≠ [] ↔ Described b := by
    rw [h.description, String.toList_ofList, ← nonblank_fullDescription]
    exact nonblank_shortDescription
  exact ⟨fun hcontract => hdescription.1 hcontract.description_ne, fun hb => h.storable.rowContract (hdescription.2 hb)⟩

/-- the rows of a statement, each with its block -/
theorem parseTransactionPdf_blocks {pdf : PdfModule} {file : ByteArray} {rows : List ImportedRow}
    (h : parseTransactionPdf pdf file = .ok rows) : ∃ pages text, extractPdfText pdf file = .ok (pages, text) ∧
      List.Forall₂ (fun b row => ∃ previous balance, PrintedOn previous (recordOf b.1 b.2) balance row) (pageBlocks pages)
        rows := by
  obtain ⟨pages, text, records, opening, hextract, hrecords, -, hrows⟩ := parseTransactionPdf_ok h
  have hprinted := pdfRows_printed hrows
  rw [(scanner_exact hrecords).1, List.forall₂_map_left_iff] at hprinted
  exact ⟨pages, text, hextract, hprinted⟩

/-! ## The contract -/

/-- **The contract of an imported row** holds of every file and library except for rows of a PDF without a description and
without a detail. -/
theorem rowContract_iff (lib : Libraries) (file : Upload) : KeepsContract lib file ↔ StatementDescribed lib file := by
  by_cases hpdf : file.IsPdf
  · have hfile : parseFile lib file = parseTransactionPdf lib.pdf file.content := if_pos hpdf
    refine ⟨?_, ?_⟩
    · intro h _ pages text currency hextract hreads b hb
      obtain ⟨rows, hparse⟩ := parseTransactionPdf_reads.2 ⟨pages, text, currency, hextract, hreads⟩
      obtain ⟨pages', text', hextract', hrows⟩ := parseTransactionPdf_blocks hparse
      cases hextract.symm.trans hextract'
      obtain ⟨row, hrow, previous, balance, hprinted⟩ := Rows.exists_of_mem_left hrows hb
      exact hprinted.contract_iff.1 (h rows (hfile.trans hparse) row hrow)
    · intro h rows hparse row hrow
      rw [hfile] at hparse
      obtain ⟨pages, text, currency, hextract, hreads⟩ := parseTransactionPdf_reads.1 ⟨rows, hparse⟩
      obtain ⟨pages', text', hextract', hrows⟩ := parseTransactionPdf_blocks hparse
      cases hextract.symm.trans hextract'
      obtain ⟨b, hb, previous, balance, hprinted⟩ := Rows.exists_of_mem_right hrows hrow
      exact hprinted.contract_iff.2 (h hpdf pages text currency hextract hreads b hb)
  · have hfile : parseFile lib file = parseTransactionCsv lib.csv file.content := if_neg hpdf
    refine ⟨fun _ h => absurd h hpdf, ?_⟩
    intro _ rows hparse row hrow
    obtain ⟨text, fieldnames, records, raises, columns, -, -, -, hrows⟩ := parseTransactionCsv_rows (hfile ▸ hparse)
    obtain ⟨raw, -, rowNumber, hread⟩ := Rows.exists_of_mem_right hrows hrow
    exact hread.rowContract

/-- a row without any text but its amounts -/
def blankPage : List Char :=
  ("DATE/REF  TRANSACTION DETAILS  BALANCE AFTER\n" ++ "02/01/2026      1.00 EUR  1.00 EUR").toList

def blankLibraries : Libraries := ⟨commaCsv, ⟨fun _ => .ok [.ok blankPage], id⟩⟩

/-- **The row is imported without a description.** A row of blanks and no detail is what the contract excludes. -/
theorem blankPage_undescribed :
    (∃ rows, parseFile blankLibraries longStatement = .ok rows ∧ rows.map ImportedRow.description = [""]) ∧
      ¬KeepsContract blankLibraries longStatement := by
  obtain ⟨rows, hrows, hdescription⟩ := exists_ok_of_check (x := parseFile blankLibraries longStatement)
    (p := fun rows => rows.map ImportedRow.description = [""]) (by decide +kernel)
  refine ⟨⟨rows, hrows, hdescription⟩, fun h => ?_⟩
  have hmem : "" ∈ rows.map ImportedRow.description := by
    rw [hdescription]
    exact List.mem_singleton.2 rfl
  obtain ⟨row, hrow, hempty⟩ := List.mem_map.1 hmem
  refine (h rows hrows row hrow).description_ne ?_
  rw [hempty]
  rfl

end Vault67.Ledger
