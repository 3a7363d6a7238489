/-
The blocks of a PDF statement.

The block of a transaction row is the lines after it, up to the next row, the next line of the statement's frame or the end
of the page. `recordOf row block` says what the record of a row is, without the loop.

- `referenceRow_ok`: a reference row has a reference, and is not blank.
- `readDetail_recordOf`: one more line is one more line of the block.
- `foldl_readLine`: the loop over the lines of a page.
- `scanner_exact`: so the records are those of the blocks of all pages, in order.
-/
import Mathlib.Tactic
import Vault67.Ledger.Pdf

namespace Vault67.Ledger

open Fallible Text Pattern

/-! ## Blocks -/

/-- a line that ends a record -/
def OfFrame (line : List Char) : Prop := ∃ start ∈ frameLines, start.toList <+: strip line

instance (line : List Char) : Decidable (OfFrame line) := inferInstanceAs (Decidable (∃ start ∈ frameLines, _))

/-- the lines up to the next row or line of the frame -/
def blockOf (lines : List (List Char)) : List (List Char) :=
  lines.takeWhile fun line => transactionRow line = none ∧ ¬OfFrame line

/-- the rows of some lines, each with its block -/
def blocks : List (List Char) → List (PdfRow × List (List Char))
  | [] => []
  | line :: rest => ((transactionRow line).map fun row => (row, blockOf rest)).toList ++ blocks rest

def IsReference (line : List Char) : Prop := referenceRow line ≠ none

instance (line : List Char) : Decidable (IsReference line) := inferInstanceAs (Decidable (_ ≠ _))

/-- the text of the indented lines that are not blank -/
def indented (block : List (List Char)) : List (List Char) :=
  (block.filter fun line => strip line ≠ [] ∧ line.head?.any isSpace).map strip

/-- the record of a row: the first reference row of its block gives the reference, the other lines the details -/
def recordOf (row : PdfRow) (block : List (List Char)) : PdfRecord :=
  let reference := (block.findSome? referenceRow).getD ([], [])
  ⟨row, indented (block.eraseP fun line => IsReference line), reference.1, reference.2⟩

theorem blocks_fst (lines : List (List Char)) : (blocks lines).map Prod.fst = lines.filterMap transactionRow := by
  induction lines with
  | nil => rfl
  | cons line lines ih =>
    rw [blocks, List.map_append, ih]
    cases h : transactionRow line <;> simp [h]

/-- a row and its block are lines of the page -/
theorem mem_blocks {lines : List (List Char)} {b : PdfRow × List (List Char)} (h : b ∈ blocks lines) :
    (∃ line ∈ lines, transactionRow line = some b.1) ∧ ∀ line ∈ b.2, line ∈ lines := by
  induction lines with
  | nil => cases h
  | cons line lines ih =>
    rcases List.mem_append.1 h with h | h
    · obtain ⟨row, hrow, rfl⟩ := Option.map_eq_some_iff.1 (Option.mem_toList.1 h)
      exact ⟨⟨line, List.mem_cons_self, hrow⟩,
        fun other hother => List.mem_cons_of_mem line ((List.takeWhile_prefix _).subset hother)⟩
    · obtain ⟨⟨other, hother, hrow⟩, hblock⟩ := ih h
      exact ⟨⟨other, List.mem_cons_of_mem line hother, hrow⟩, fun l hl => List.mem_cons_of_mem line (hblock l hl)⟩

/-! ## Reference rows -/

/-- a reference row has a reference of digits, so it is not blank -/
theorem referenceRow_ok {line reference related : List Char} (h : referenceRow line = some (reference, related)) :
    reference ≠ [] ∧ strip line ≠ [] := by
  unfold referenceRow at h
  simp only [Option.bind_eq_bind, Option.bind_eq_some_iff, Option.some.injEq, Prod.mk.injEq] at h
  obtain ⟨g, hmatch, found, hfound, _, _, rfl, _⟩ := h
  obtain ⟨n, -, hrest⟩ := List.exists_of_findSome?_eq_some hmatch
  obtain ⟨text, htext, hlength, hpre, hdigits⟩ :=
    matchFrom_rep_get (by simp [spaces] : Token.stop PdfGroup.reference ∉ _) hrest
  rw [hfound, Option.some.injEq] at htext
  subst htext
  have hne : found ≠ [] := by
    rintro rfl
    simp at hlength
  obtain ⟨c, hc⟩ := List.exists_mem_of_ne_nil _ hne
  refine ⟨hne, fun hblank => ?_⟩
  have hspace := strip_eq_nil_iff.1 hblank c (List.mem_of_mem_drop (hpre.subset hc))
  rw [isSpace_of_digit (hdigits c hc)] at hspace
  cases hspace

/-! ## One line -/

/-- a block with no reference row yet -/
theorem recordOf_reference {row : PdfRow} {block : List (List Char)} :
    (recordOf row block).reference = [] ↔ ∀ line ∈ block, ¬IsReference line := by
  have hnone : block.findSome? referenceRow = none ↔ ∀ line ∈ block, ¬IsReference line := by
    simp [IsReference, List.findSome?_eq_none_iff]
  rw [← hnone, recordOf]
  cases h : block.findSome? referenceRow with
  | none => simp
  | some found =>
    obtain ⟨line, -, hline⟩ := List.exists_of_findSome?_eq_some h
    simp [(referenceRow_ok hline).1]

theorem indented_concat (block : List (List Char)) (line : List Char) :
    indented (block ++ [line]) =
      indented block ++ if strip line ≠ [] ∧ line.head?.any isSpace then [strip line] else [] := by
  unfold indented
  rw [List.filter_append, List.map_append]
  by_cases h : strip line ≠ [] ∧ line.head?.any isSpace
  · rw [if_pos h, List.filter_cons_of_pos (by simpa using h)]
    rfl
  · rw [if_neg h, List.filter_cons_of_neg (by simpa using h)]
    rfl

/-- no reference row is erased -/
theorem eraseP_isReference {block : List (List Char)} (h : ∀ line ∈ block, ¬IsReference line) :
    block.eraseP (fun line => IsReference line) = block :=
  List.eraseP_of_forall_not (by simpa using h)

theorem not_isReference_of_blank {line : List Char} (h : strip line = []) : ¬IsReference line := by
  intro hreference
  obtain ⟨found, hfound⟩ := Option.ne_none_iff_exists'.1 hreference
  exact (referenceRow_ok hfound).2 h

/-- a line that is no reference row, or comes after one, adds to the details -/
theorem recordOf_concat_detail {row : PdfRow} {block : List (List Char)} {line : List Char}
    (h : ¬IsReference line ∨ (recordOf row block).reference ≠ []) :
    recordOf row (block ++ [line]) = { recordOf row block with
      details := (recordOf row block).details ++ if strip line ≠ [] ∧ line.head?.any isSpace then [strip line] else [] } := by
  rw [Ne, recordOf_reference] at h
  by_cases hblock : ∀ line ∈ block, ¬IsReference line
  · -- no line of the block, nor this one, is a reference row
    have hline := h.resolve_right (not_not.2 hblock)
    have hnone : block.findSome? referenceRow = none := by
      simpa [IsReference, List.findSome?_eq_none_iff] using hblock
    have hrow : referenceRow line = none := by simpa [IsReference] using hline
    have hboth : ∀ other ∈ block ++ [line], ¬IsReference other := by
      intro other hother
      rcases List.mem_append.1 hother with hother | hother
      · exact hblock other hother
      · rwa [List.mem_singleton.1 hother]
    simp only [recordOf, eraseP_isReference hblock, eraseP_isReference hboth, indented_concat, List.findSome?_append,
      hnone, Option.none_or, List.findSome?_singleton, hrow]
  · obtain ⟨first, hmem, hfirst⟩ : ∃ first ∈ block, IsReference first := by simpa using hblock
    obtain ⟨found, hfound⟩ : ∃ found, block.findSome? referenceRow = some found := by
      rw [← Option.isSome_iff_exists, List.findSome?_isSome_iff]
      exact ⟨first, hmem, Option.isSome_iff_ne_none.2 hfirst⟩
    have herase : (block ++ [line]).eraseP (fun line => IsReference line) =
        block.eraseP (fun line => IsReference line) ++ [line] := List.eraseP_append_left (by simpa using hfirst) _ hmem
    simp only [recordOf, herase, indented_concat, List.findSome?_append, hfound, Option.some_or]

/-- the first reference row of a block -/
theorem recordOf_concat_reference {row : PdfRow} {block : List (List Char)} {line reference related : List Char}
    (hblock : (recordOf row block).reference = []) (h : referenceRow line = some (reference, related)) :
    recordOf row (block ++ [line]) = { recordOf row block with reference := reference, related := related } := by
  rw [recordOf_reference] at hblock
  have hnone : block.findSome? referenceRow = none := by
    simpa [IsReference, List.findSome?_eq_none_iff] using hblock
  have hline : IsReference line := by simp [IsReference, h]
  have herase : (block ++ [line]).eraseP (fun line => IsReference line) = block := by
    rw [List.eraseP_append_right _ (by simpa using hblock), List.eraseP_cons_of_pos (by simpa using hline),
      List.append_nil]
  simp only [recordOf, herase, eraseP_isReference hblock, List.findSome?_append, hnone, Option.none_or,
    List.findSome?_singleton, h, Option.getD_some]

/-- **One more line.** After a row, the loop has the record of the row and of the lines so far, and a line of the frame
ends it. -/
theorem readDetail_recordOf (row : PdfRow) (block : List (List Char)) (line : List Char) :
    readDetail (recordOf row block) line = if OfFrame line then none else some (recordOf row (block ++ [line])) := by
  unfold readDetail
  by_cases hblank : strip line = []
  · have hframe : ¬OfFrame line := by
      unfold OfFrame
      rw [hblank]
      decide
    rw [if_neg hframe, recordOf_concat_detail (.inl (not_isReference_of_blank hblank))]
    simp [hblank]
  · simp only [hblank, if_false]
    by_cases hframe : OfFrame line
    · rw [if_pos hframe]
      exact if_pos hframe
    · rw [if_neg hframe]
      refine (if_neg hframe).trans ?_
      have hdetail : ∀ record : PdfRecord,
          some (if line.head?.any isSpace then { record with details := record.details ++ [strip line] } else record) =
            some { record with
              details := record.details ++ if strip line ≠ [] ∧ line.head?.any isSpace then [strip line] else [] } := by
        intro record
        by_cases hspace : line.head?.any isSpace
        · rw [if_pos hspace, if_pos ⟨hblank, hspace⟩]
        · rw [if_neg hspace, if_neg fun h => hspace h.2, List.append_nil]
      by_cases hreference : (recordOf row block).reference = []
      · rw [if_pos hreference]
        cases hrow : referenceRow line with
        | some found => rw [recordOf_concat_reference hreference hrow]
        | none =>
          rw [recordOf_concat_detail (.inl (by simpa [IsReference] using hrow))]
          exact hdetail _
      · rw [if_neg hreference, recordOf_concat_detail (.inr hreference)]
        exact hdetail _

/-! ## The loop -/

/-- the records of a state, the open one included -/
def closed (s : List PdfRecord × Option PdfRecord) : List PdfRecord := s.1 ++ s.2.toList

/-- the records of some lines -/
def recordsOf (lines : List (List Char)) : List PdfRecord := (blocks lines).map fun b => recordOf b.1 b.2

/-- **The loop over the lines.** An open record goes on to the end of its block, and every later row of the lines opens
a record of its own. -/
theorem foldl_readLine (lines : List (List Char)) (records : List PdfRecord) :
    closed (lines.foldl readLine (records, none)) = records ++ recordsOf lines ∧
      ∀ row block, closed (lines.foldl readLine (records, some (recordOf row block))) =
        records ++ recordOf row (block ++ blockOf lines) :: recordsOf lines := by
  induction lines generalizing records with
  | nil => simp [closed, recordsOf, blocks, blockOf]
  | cons line lines ih =>
    simp only [List.foldl_cons, readLine]
    cases hrow : transactionRow line with
    | some next =>
      have hblock : blockOf (line :: lines) = [] := by simp [blockOf, hrow]
      have hrecords : recordsOf (line :: lines) = recordOf next (blockOf lines) :: recordsOf lines := by
        simp [recordsOf, blocks, hrow]
      have hnew : (⟨next, [], [], []⟩ : PdfRecord) = recordOf next [] := rfl
      dsimp only
      rw [hblock, hrecords, hnew]
      refine ⟨?_, ?_⟩
      · simpa using (ih records).2 next []
      · intro row block
        simpa using (ih (records ++ [recordOf row block])).2 next []
    | none =>
      have hrecords : recordsOf (line :: lines) = recordsOf lines := by simp [recordsOf, blocks, hrow]
      rw [hrecords]
      refine ⟨(ih records).1, ?_⟩
      intro row block
      dsimp only
      rw [readDetail_recordOf]
      by_cases hframe : OfFrame line
      · have hblock : blockOf (line :: lines) = [] := by simp [blockOf, hframe]
        rw [if_pos hframe, hblock, List.append_nil]
        simpa using (ih (records ++ [recordOf row block])).1
      · have hblock : blockOf (line :: lines) = line :: blockOf lines := by simp [blockOf, hframe, hrow]
        rw [if_neg hframe, hblock]
        simpa using (ih records).2 row (block ++ [line])

theorem foldl_readPage (pages : List (List Char)) (records : List PdfRecord) :
    pages.foldl readPage records = records ++ pages.flatMap fun page => recordsOf (splitlines page) := by
  induction pages generalizing records with
  | nil => simp
  | cons page pages ih =>
    have hpage : readPage records page = records ++ recordsOf (splitlines page) :=
      (foldl_readLine (splitlines page) records).1
    rw [List.foldl_cons, ih, hpage, List.append_assoc]
    rfl

/-- the rows of all pages, each with its block -/
def pageBlocks (pages : List (List Char)) : List (PdfRow × List (List Char)) :=
  pages.flatMap fun page => blocks (splitlines page)

/-- **Nothing is lost, and nothing is read twice.** The records are those of the transaction rows of all pages, in order,
each with the details and the reference of its own block. -/
theorem scanner_exact {pages : List (List Char)} {records : List PdfRecord} (h : rawPdfTransactions pages = .ok records) :
    records = (pageBlocks pages).map (fun b => recordOf b.1 b.2) ∧
      (pageBlocks pages).map Prod.fst = transactionRows pages := by
  simp only [rawPdfTransactions, ite_error_eq_ok] at h
  obtain ⟨-, -, h⟩ := h
  cases h
  refine ⟨?_, ?_⟩
  · rw [foldl_readPage, pageBlocks, List.map_flatMap]
    rfl
  · rw [pageBlocks, List.map_flatMap, transactionRows]
    exact congrArg pages.flatMap (funext fun page => blocks_fst _)

/-- two rows, the first with a reference and a detail -/
def detailedPage : List Char :=
  ("DATE/REF  TRANSACTION DETAILS  BALANCE AFTER\n02/01/2026  Deposit  1.00 EUR  1.00 EUR\n  12345678  Savings\n" ++
    "  January\n\n03/01/2026  Fee  0.50 EUR  0.50 EUR\nGenerated on: 04/01/2026\n  footer").toList

theorem scanner_exact_detailedPage :
    ∃ records, rawPdfTransactions [detailedPage] = .ok records ∧
      records = (pageBlocks [detailedPage]).map (fun b => recordOf b.1 b.2) ∧
        (pageBlocks [detailedPage]).map Prod.fst = transactionRows [detailedPage] := by
  obtain ⟨records, h⟩ := exists_ok_of_isOk (x := rawPdfTransactions [detailedPage]) (by decide +kernel)
  exact ⟨records, h, scanner_exact h⟩

end Vault67.Ledger
