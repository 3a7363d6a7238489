/-
Long descriptions of a PDF statement.

A description is cut to 255 characters, and the row is typed by what is left of it. The notes keep the whole text.

- `unbroken_of_record`: the texts of a record have no line breaks, so the lines of its notes can be told apart.
- `completeText_notes`: the whole text can be read back from the description and the notes.
- `typed_alike_iff`: a text and a part of it are typed alike exactly when the part has a keyword of the first kind.
- `meaning_kept_iff`: exactly which rows are typed as their whole text; `lateInterest_mistyped` is one that is not.
-/
import Mathlib.Tactic
import Vault67.Ledger.PdfBlocks
import Vault67.Lib.DecimalText
import Vault67.Lib.Rows
import Vault67.Lib.Words

namespace Vault67.Ledger

open Fallible Text Pattern

/-! ## Model -/

/-- the keywords of `_transaction_type`, by the type they give, in its order -/
def keywordKinds : List (TransactionType × List String) :=
  [(.interest, ["interest"]), (.tax, ["tax"]), (.fee, ["fee", "charge"])]

/-- a keyword of the kind occurs in the text, in whatever case -/
def HasKind (text : String) (kind : TransactionType × List String) : Prop :=
  ∃ keyword ∈ kind.2, mentions (casefold text) keyword

instance (text : String) (kind : TransactionType × List String) : Decidable (HasKind text kind) :=
  inferInstanceAs (Decidable (∃ keyword ∈ kind.2, _))

/-- for every keyword of the text, the part has one of the same kind or of an earlier one -/
def KeepsKinds (text part : String) : Prop :=
  ∀ kinds ∈ keywordKinds.inits, (∃ kind ∈ kinds, HasKind text kind) → ∃ kind ∈ kinds, HasKind part kind

/-- the text is short enough, or its beginning keeps the kinds -/
def KeywordsKept (text : List Char) : Prop :=
  text.length ≤ 255 ∨ KeepsKinds (String.ofList text) (String.ofList (text.take 252))

instance (text : List Char) : Decidable (KeywordsKept text) :=
  inferInstanceAs (Decidable (_ ∨ ∀ kinds ∈ keywordKinds.inits, _))

/-- what stands in the notes before a text that was cut -/
def fullLabel : List Char := "Full description: ".toList

/-- the whole text of a row: in the notes if it was cut, and else its description -/
def completeText (description notes : String) : List Char :=
  ((notes.toList.splitOn '\n').findSome? fun line => line.dropPrefix? fullLabel).getD description.toList

/-- the row is typed as the whole text of its record, and keeps it -/
structure MeaningKept (record : PdfRecord) (row : ImportedRow) : Prop where
  type : row.transactionType = transactionTypeOf (String.ofList record.fullDescription) row.amount
  text : completeText row.description row.notes = record.fullDescription

/-! ## Keywords -/

theorem transactionTypeOf_eq (text : String) (amount : ℚ) :
    transactionTypeOf text amount = ((keywordKinds.find? fun kind => HasKind text kind).map Prod.fst).getD
      (if 0 < amount then .deposit else .withdrawal) := by
  by_cases hinterest : mentions (casefold text) "interest"
  · simp [transactionTypeOf, keywordKinds, HasKind, hinterest]
  by_cases htax : mentions (casefold text) "tax"
  · simp [transactionTypeOf, keywordKinds, HasKind, hinterest, htax]
  by_cases hfee : mentions (casefold text) "fee" ∨ mentions (casefold text) "charge"
  · simp [transactionTypeOf, keywordKinds, HasKind, hinterest, htax, hfee]
  · simp [transactionTypeOf, keywordKinds, HasKind, hinterest, htax, hfee]

/-- the type tells the kind -/
theorem transactionTypeOf_eq_iff (text part : String) (amount : ℚ) :
    transactionTypeOf part amount = transactionTypeOf text amount ↔
      (keywordKinds.find? fun kind => HasKind part kind) = keywordKinds.find? fun kind => HasKind text kind := by
  have hinj : ∀ kind ∈ keywordKinds, ∀ other ∈ keywordKinds, kind.1 = other.1 → kind = other := by decide
  have hsign : ∀ kind ∈ keywordKinds, kind.1 ≠ if 0 < amount then .deposit else .withdrawal := by
    split_ifs <;> decide
  rw [transactionTypeOf_eq, transactionTypeOf_eq]
  cases hpart : keywordKinds.find? fun kind => HasKind part kind with
  | none =>
    cases htext : keywordKinds.find? fun kind => HasKind text kind with
    | none => simp
    | some kind => simpa using (hsign kind (List.mem_of_find?_eq_some htext)).symm
  | some other =>
    have hother := List.mem_of_find?_eq_some hpart
    cases htext : keywordKinds.find? fun kind => HasKind text kind with
    | none => simpa using hsign other hother
    | some kind =>
      have hkind := List.mem_of_find?_eq_some htext
      simp only [Option.map_some, Option.getD_some, Option.some.injEq]
      exact ⟨hinj other hother kind hkind, congrArg Prod.fst⟩

theorem casefold_append (text rest : List Char) :
    casefold (String.ofList (text ++ rest)) = casefold (String.ofList text) ++ casefold (String.ofList rest) := by
  simp [casefold]

theorem HasKind.append {text : List Char} {kind : TransactionType × List String} (h : HasKind (String.ofList text) kind)
    (rest : List Char) : HasKind (String.ofList (text ++ rest)) kind := by
  obtain ⟨keyword, hkeyword, hin⟩ := h
  refine ⟨keyword, hkeyword, ?_⟩
  rw [mentions, casefold_append]
  exact List.infix_append_of_infix_left hin

/-- the points after a text add no keyword -/
theorem hasKind_points {text : List Char} {kind : TransactionType × List String} (h : kind ∈ keywordKinds) :
    HasKind (String.ofList (text ++ "...".toList)) kind ↔ HasKind (String.ofList text) kind := by
  have hletters : ∀ kind ∈ keywordKinds, ∀ keyword ∈ kind.2, keyword.toList ≠ [] ∧ '.' ∉ keyword.toList := by decide
  refine ⟨?_, fun htext => htext.append _⟩
  rintro ⟨keyword, hkeyword, hin⟩
  obtain ⟨hne, hpoint⟩ := hletters kind h keyword hkeyword
  have hpoints : casefold (String.ofList "...".toList) = ['.', '.', '.'] ++ [] := by decide
  rw [mentions, casefold_append, hpoints, Words.infix_of_separator hne (by simp) (by simpa using hpoint)] at hin
  refine ⟨keyword, hkeyword, hin.resolve_right fun hnil => hne (List.infix_nil.1 hnil)⟩

/-- **A text and its beginning are typed alike** exactly when the beginning keeps the kinds of keywords that decide the
type. -/
theorem typed_alike_iff (text rest : List Char) (amount : ℚ) :
    transactionTypeOf (String.ofList text) amount = transactionTypeOf (String.ofList (text ++ rest)) amount ↔
      KeepsKinds (String.ofList (text ++ rest)) (String.ofList text) := by
  have hpart : ∀ kind ∈ keywordKinds, decide (HasKind (String.ofList text) kind) = true →
      decide (HasKind (String.ofList (text ++ rest)) kind) = true :=
    fun kind _ hkind => decide_eq_true ((of_decide_eq_true hkind).append rest)
  rw [transactionTypeOf_eq_iff, Words.find?_eq_iff hpart]
  simp only [KeepsKinds, List.mem_inits, decide_eq_true_eq]

theorem transactionTypeOf_points (text : List Char) (amount : ℚ) :
    transactionTypeOf (String.ofList (text ++ "...".toList)) amount = transactionTypeOf (String.ofList text) amount := by
  have hkeeps : KeepsKinds (String.ofList (text ++ "...".toList)) (String.ofList text) := by
    rintro kinds hkinds ⟨kind, hkind, hhas⟩
    exact ⟨kind, hkind, (hasKind_points (((List.mem_inits _ _).1 hkinds).subset hkind)).1 hhas⟩
  exact ((typed_alike_iff text _ amount).2 hkeeps).symm

theorem type_shortDescription_iff (text : List Char) (amount : ℚ) :
    transactionTypeOf (String.ofList (shortDescription text)) amount = transactionTypeOf (String.ofList text) amount ↔
      KeywordsKept text := by
  unfold shortDescription KeywordsKept
  split_ifs with hlong
  · have halike := typed_alike_iff (text.take 252) (text.drop 252) amount
    rw [List.take_append_drop] at halike
    rw [transactionTypeOf_points, halike, or_iff_right (not_le.2 hlong)]
  · exact iff_of_true rfl (.inl (not_lt.1 hlong))

/-! ## Notes -/

/-- the texts in the notes of a record have no line breaks -/
structure Unbroken (record : PdfRecord) : Prop where
  related : '\n' ∉ record.related
  currency : '\n' ∉ record.currency
  description : '\n' ∉ record.fullDescription

theorem newline_not_mem_fixed (x : Decimal) : '\n' ∉ x.fixed := by
  intro h
  have hungrouped : '\n' ∈ x.ungrouped := by
    rw [← Decimal.remove_fixed]
    exact List.mem_filter.2 ⟨h, by decide⟩
  rcases Decimal.mem_ungrouped hungrouped with heq | heq | hdigit
  · exact absurd heq (by decide)
  · exact absurd heq (by decide)
  · exact absurd hdigit (by decide)

/-- the texts of a record are taken from lines of the pages -/
theorem unbroken_of_record {pages : List (List Char)} {records : List PdfRecord} {record : PdfRecord}
    (h : rawPdfTransactions pages = .ok records) (hrecord : record ∈ records) : Unbroken record := by
  rw [(scanner_exact h).1] at hrecord
  obtain ⟨b, hb, rfl⟩ := List.mem_map.1 hrecord
  obtain ⟨page, -, hb⟩ := List.mem_flatMap.1 hb
  obtain ⟨⟨line, hline, hrow⟩, hblock⟩ := mem_blocks hb
  have hbreak : ∀ line ∈ splitlines page, '\n' ∉ line := by
    intro line hline hmem
    exact absurd (splitlines_isBreak hline _ hmem) (by decide)
  obtain ⟨hdescription, hcurrency⟩ := transactionRow_within hrow
  refine ⟨?_, fun hmem => hbreak line hline (hcurrency.subset hmem), ?_⟩
  · intro hmem
    simp only [recordOf] at hmem
    cases hfound : b.2.findSome? referenceRow with
    | none =>
      rw [hfound] at hmem
      cases hmem
    | some found =>
      obtain ⟨other, hother, hreference⟩ := List.exists_of_findSome?_eq_some hfound
      rw [hfound] at hmem
      exact hbreak other (hblock other hother) ((referenceRow_within hreference).subset hmem)
  · intro hmem
    rcases mem_intercalate ((strip_sublist _).subset hmem) with heq | ⟨part, hpart, hmem⟩
    · exact absurd heq (by decide)
    · rcases List.mem_cons.1 (List.mem_filter.1 hpart).1 with rfl | hdetail
      · exact hbreak line hline (hdescription.subset hmem)
      · obtain ⟨other, hother, rfl⟩ := List.mem_map.1 hdetail
        have hother := List.eraseP_subset (List.mem_filter.1 hother).1
        exact hbreak other (hblock other hother) ((strip_sublist other).subset hmem)

/-- reading back skips the lines without the label -/
theorem completeText_lines {description : String} {first rest : List (List Char)}
    (hbreak : ∀ line ∈ first ++ rest, '\n' ∉ line) (hne : first ++ rest ≠ [])
    (hfirst : ∀ line ∈ first, line.dropPrefix? fullLabel = none) :
    completeText description (String.ofList (['\n'].intercalate (first ++ rest))) =
      (rest.findSome? fun line => line.dropPrefix? fullLabel).getD description.toList := by
  rw [completeText, String.toList_ofList, List.splitOn_intercalate '\n' hbreak hne, List.findSome?_append,
    List.findSome?_eq_none_iff.2 hfirst, Option.none_or]

theorem dropPrefix?_of_ne {c : Char} {cs : List Char} (h : c ≠ 'F') : (c :: cs).dropPrefix? fullLabel = none := by
  have hlabel : fullLabel = 'F' :: "ull description: ".toList := by decide
  rw [hlabel, List.dropPrefix?, if_neg (by simpa using h)]

theorem related_label (related : List Char) : ("Related account: ".toList ++ related).dropPrefix? fullLabel = none := by
  have hlabel : "Related account: ".toList = 'R' :: "elated account: ".toList := by decide
  rw [hlabel]
  exact dropPrefix?_of_ne (by decide)

theorem balance_label (text : List Char) : ("Balance after: ".toList ++ text).dropPrefix? fullLabel = none := by
  have hlabel : "Balance after: ".toList = 'B' :: "alance after: ".toList := by decide
  rw [hlabel]
  exact dropPrefix?_of_ne (by decide)

theorem full_label (text : List Char) : ("Full description: ".toList ++ text).dropPrefix? fullLabel = some text := by
  unfold fullLabel
  generalize "Full description: ".toList = label
  exact List.dropPrefix?_append_of_beq text (beq_self_eq_true label)

/-- a label has no line break -/
theorem newline_not_mem_append {label text : List Char} (hlabel : label.all (· ≠ '\n') = true) (h : '\n' ∉ text) :
    '\n' ∉ label ++ text := by
  rw [List.mem_append, not_or]
  exact ⟨fun hmem => of_decide_eq_true (List.all_eq_true.1 hlabel _ hmem) rfl, h⟩

/-- **The whole text can be read back.** When the record is not broken inside a line, the short description and the
notes hold its full description together. -/
theorem completeText_notes {record : PdfRecord} (h : Unbroken record) (balance : Decimal) :
    completeText (String.ofList (shortDescription record.fullDescription)) (String.ofList (record.notes balance)) =
      record.fullDescription := by
  rw [PdfRecord.notes, completeText_lines]
  · by_cases hlong : 255 < record.fullDescription.length
    · rw [if_pos hlong, List.findSome?_singleton, full_label, Option.getD_some]
    · rw [if_neg hlong, shortDescription, if_neg hlong, String.toList_ofList]
      rfl
  · have hrelated : '\n' ∉ "Related account: ".toList ++ record.related :=
      newline_not_mem_append (by decide) h.related
    have hbalance : '\n' ∉ "Balance after: ".toList ++ balance.fixed ++ ' ' :: record.currency := by
      rw [List.append_assoc]
      refine newline_not_mem_append (by decide) ?_
      rw [List.mem_append, List.mem_cons, not_or, not_or]
      exact ⟨newline_not_mem_fixed balance, by decide, h.currency⟩
    have hfull : '\n' ∉ "Full description: ".toList ++ record.fullDescription :=
      newline_not_mem_append (by decide) h.description
    intro line hline
    rcases List.mem_append.1 hline with hline | hline
    · rcases List.mem_append.1 hline with hline | hline
      · split_ifs at hline
        · cases hline
        · rwa [List.mem_singleton.1 hline]
      · rwa [List.mem_singleton.1 hline]
    · split_ifs at hline
      · rwa [List.mem_singleton.1 hline]
      · cases hline
  · simp only [List.append_assoc, List.singleton_append]
    exact List.append_ne_nil_of_right_ne_nil _ (List.cons_ne_nil _ _)
  · intro line hline
    rcases List.mem_append.1 hline with hline | hline
    · split_ifs at hline
      · cases hline
      · rw [List.mem_singleton.1 hline]
        exact related_label _
    · rw [List.mem_singleton.1 hline, List.append_assoc]
      exact balance_label _

/-! ## Interest named at the end -/

/-- a text that names interest where it is cut -/
def lateInterest : List Char := "Account ".toList ++ (List.replicate 240 '-' ++ " interest".toList)

/-- a credit with this text -/
def latePage : List Char :=
  "DATE/REF  TRANSACTION DETAILS  BALANCE AFTER\n02/01/2026  Account  1.00 EUR  1.00 EUR\n  ".toList ++
    (List.replicate 240 '-' ++ "\n  interest".toList)

/-- every PDF has that one page -/
def lateModule : PdfModule := ⟨fun _ => .ok [.ok latePage], id⟩

/-- a keyword without hyphens lies on one side of them -/
theorem mentions_hyphens {keyword : String} (hkeyword : keyword.toList ≠ [] ∧ '-' ∉ keyword.toList) (before after : List Char)
    {n : ℕ} (hn : n ≠ 0) :
    mentions (casefold (String.ofList (before ++ (List.replicate n '-' ++ after)))) keyword ↔
      mentions (casefold (String.ofList before)) keyword ∨ mentions (casefold (String.ofList after)) keyword := by
  have hhyphen : foldChar '-' = ['-'] := by decide
  have hhyphens : casefold (String.ofList (List.replicate n '-')) = List.replicate n '-' := by
    simp only [casefold, String.toList_ofList, List.flatMap_replicate, hhyphen, List.flatten_replicate_singleton]
  rw [mentions, casefold_append, casefold_append, hhyphens]
  refine Words.infix_of_separator hkeyword.1 (fun hnil => hn (List.replicate_eq_nil_iff '-' |>.1 hnil)) ?_
  intro c hc
  rw [List.eq_of_mem_replicate hc]
  exact hkeyword.2

theorem lateInterest_lost : ¬KeywordsKept lateInterest := by
  have hlong : ¬lateInterest.length ≤ 255 := by decide +kernel
  have hcut : lateInterest.take 252 = "Account ".toList ++ (List.replicate 240 '-' ++ " int".toList) := by decide +kernel
  have hkeyword : "interest".toList ≠ [] ∧ '-' ∉ "interest".toList := by decide
  rw [KeywordsKept, or_iff_right hlong, hcut]
  intro h
  have hnamed : HasKind (String.ofList lateInterest) (.interest, ["interest"]) :=
    ⟨"interest", List.mem_singleton.2 rfl, (mentions_hyphens hkeyword _ _ (by decide)).2 (.inr (by decide))⟩
  obtain ⟨kind, hkind, keyword, hmem, hmentions⟩ := h [(.interest, ["interest"])] (by decide) ⟨_, List.mem_singleton.2 rfl, hnamed⟩
  obtain rfl := List.mem_singleton.1 hkind
  obtain rfl := List.mem_singleton.1 hmem
  rw [mentions_hyphens hkeyword _ _ (by decide)] at hmentions
  exact absurd hmentions (by decide)

theorem latePage_rows : ∃ rows records, parseTransactionPdf lateModule ⟨#[]⟩ = .ok rows ∧
    extractPdfText lateModule ⟨#[]⟩ = .ok ([latePage], latePage) ∧ rawPdfTransactions [latePage] = .ok records ∧
      records.map PdfRecord.fullDescription = [lateInterest] := by
  obtain ⟨rows, hrows⟩ := exists_ok_of_isOk (x := parseTransactionPdf lateModule ⟨#[]⟩) (by decide +kernel)
  obtain ⟨records, hrecords, htext⟩ := exists_ok_of_check (x := rawPdfTransactions [latePage])
    (p := fun records => records.map PdfRecord.fullDescription = [lateInterest]) (by decide +kernel)
  exact ⟨rows, records, hrows, by decide +kernel, hrecords, htext⟩

/-! ## Rows -/

theorem PrintedOn.meaningKept_iff {previous : Option Decimal} {record : PdfRecord} {balance : Decimal} {row : ImportedRow}
    (hrow : PrintedOn previous record balance row) (h : Unbroken record) :
    MeaningKept record row ↔ KeywordsKept record.fullDescription := by
  have htype : row.transactionType = transactionTypeOf (String.ofList record.fullDescription) row.amount ↔
      KeywordsKept record.fullDescription := by
    rw [row.typed, hrow.description]
    exact type_shortDescription_iff _ _
  have htext : completeText row.description row.notes = record.fullDescription := by
    rw [hrow.description, hrow.notes]
    exact completeText_notes h balance
  exact ⟨fun hkept => htype.1 hkept.type, fun hkept => ⟨htype.2 hkept, htext⟩⟩

theorem pdfRows_meaningKept {pages : List (List Char)} {previous : Option Decimal} {records : List PdfRecord}
    {rows : List ImportedRow} (hrecords : rawPdfTransactions pages = .ok records) (hrows : pdfRows previous records = .ok rows) :
    List.Forall₂ (fun record row => completeText row.description row.notes = record.fullDescription ∧
      (MeaningKept record row ↔ KeywordsKept record.fullDescription)) records rows := by
  refine Rows.forall₂_imp ?_ (pdfRows_printed hrows)
  rintro record hrecord row - ⟨previous, balance, hprinted⟩
  have hunbroken := unbroken_of_record hrecords hrecord
  refine ⟨?_, hprinted.meaningKept_iff hunbroken⟩
  rw [hprinted.description, hprinted.notes]
  exact completeText_notes hunbroken balance

/-- **A row is typed as its whole text** exactly when the cut leaves a keyword of the first kind, or none was there; and the
whole text can always be read back from the description and the notes. -/
theorem meaning_kept_iff {pdf : PdfModule} {file : ByteArray} {rows : List ImportedRow}
    (h : parseTransactionPdf pdf file = .ok rows) :
    ∃ pages text records, extractPdfText pdf file = .ok (pages, text) ∧ rawPdfTransactions pages = .ok records ∧
      List.Forall₂ (fun record row => completeText row.description row.notes = record.fullDescription ∧
        (MeaningKept record row ↔ KeywordsKept record.fullDescription)) records rows := by
  obtain ⟨pages, text, records, opening, hextract, hrecords, -, hrows⟩ := parseTransactionPdf_ok h
  exact ⟨pages, text, records, hextract, hrecords, pdfRows_meaningKept hrecords hrows⟩

theorem meaning_kept_iff_latePage :
    ∃ rows, parseTransactionPdf lateModule ⟨#[]⟩ = .ok rows ∧
      ∃ pages text records, extractPdfText lateModule ⟨#[]⟩ = .ok (pages, text) ∧ rawPdfTransactions pages = .ok records ∧
        List.Forall₂ (fun record row => completeText row.description row.notes = record.fullDescription ∧
          (MeaningKept record row ↔ KeywordsKept record.fullDescription)) records rows := by
  obtain ⟨rows, -, hrows, -⟩ := latePage_rows
  exact ⟨rows, hrows, meaning_kept_iff hrows⟩

/-- **The type is lost.** A credit that names interest where its text is cut is not typed as interest. -/
theorem lateInterest_mistyped :
    ¬∀ (pdf : PdfModule) (file : ByteArray) (rows : List ImportedRow), parseTransactionPdf pdf file = .ok rows →
      ∃ pages text records, extractPdfText pdf file = .ok (pages, text) ∧ rawPdfTransactions pages = .ok records ∧
        List.Forall₂ MeaningKept records rows := by
  intro h
  obtain ⟨rows, records, hrows, hextract, hrecords, htext⟩ := latePage_rows
  obtain ⟨pages, text, records', hextract', hrecords', hkept⟩ := h lateModule ⟨#[]⟩ rows hrows
  cases hextract.symm.trans hextract'
  cases hrecords.symm.trans hrecords'
  obtain ⟨record, rfl, hlate⟩ := List.map_eq_singleton_iff.1 htext
  obtain ⟨_, _, _, _, hextract', hrecords', -, hparsed⟩ := parseTransactionPdf_ok hrows
  cases hextract.symm.trans hextract'
  have hexact := pdfRows_meaningKept hrecords' hparsed
  cases hrecords.symm.trans hrecords'
  cases hkept with
  | cons hrow _ =>
    cases hexact with
    | cons hiff _ =>
      rw [hlate] at hiff
      exact lateInterest_lost (hiff.2.1 hrow)

end Vault67.Ledger
