/-
An exported statement, read back by the importer.

- `holds_exportRow`: a written row has its fields under the columns that the importer reads;
- `parseRow_of_holds`: the importer reads the entry from them;
- `export_imports_back`: the whole file.

The csv writer is the one of `Exports`; the csv reader is the parameter of the importer, and it is assumed to recover the
fields that were written.
-/
import Mathlib.Tactic
import Vault67.Ledger.Exports
import Vault67.Ledger.Statements

namespace Vault67.Ledger

open CivilDate Fallible OrderBy Rounding Text

/-! ## Rows -/

def exportColumns : Columns :=
  ⟨"Transaction Date".toList, "Description".toList, "Amount".toList, some "Value Date".toList⟩

theorem columnsOf_exportHeader : columnsOf exportHeader = .ok exportColumns := by
  rfl

/-- an entry that the importer takes back -/
structure Exportable (e : TransactionEntry) : Prop where
  /-- the day number of a date, as every date has one -/
  date : 1 ≤ e.transaction.transactionDate ∧ e.transaction.transactionDate ≤ maxOrdinal
  places : HasPlaces 2 e.amount
  amount_lt : |e.amount| < 10 ^ 16
  description_ne : e.transaction.description ≠ ""
  description_length : e.transaction.description.length ≤ 255
  description_strip : strip e.transaction.description.toList = e.transaction.description.toList
  description_safe : e.transaction.description.toList.head? ∉ [some '=', some '+', some '-', some '@']

/-- a record with what is written of an entry -/
structure Holds (padYear : Bool) (e : TransactionEntry) (columns : Columns) (raw : DictRow) : Prop where
  extra : ¬raw.Extra
  name : columns.description ∈ raw.fieldnames
  date : raw.text columns.transactionDate = strftime padYear (civil e.transaction.transactionDate)
  valueDate : ∃ header, columns.valueDate = some header ∧
    raw.text header = (valueDate e.transaction.notes.toList).elim [] (strftime padYear)
  description : raw.text columns.description = spreadsheetSafe e.transaction.description.toList
  amount : ∃ x, quantizeCents e.amount = .ok x ∧ raw.text columns.amount = x.fixed

/-- the row that is read and the entry that was written -/
structure ReadBack (e : TransactionEntry) (row : ImportedRow) : Prop where
  date : row.transactionDate = e.transaction.transactionDate
  description : row.description = e.transaction.description
  amount : row.amount = e.amount
  valueDate : valueDate row.notes.toList = valueDate e.transaction.notes.toList

theorem exportRow_ok {padYear : Bool} {e : TransactionEntry} {fields : List (List Char)} :
    exportRow padYear e = .ok fields ↔ ∃ x, quantizeCents e.amount = .ok x ∧
      fields = [strftime padYear (civil e.transaction.transactionDate),
        (valueDate e.transaction.notes.toList).elim [] (strftime padYear),
        spreadsheetSafe e.transaction.description.toList, x.fixed] := by
  rw [exportRow, bind_eq_ok]
  refine exists_congr fun x => and_congr_right fun _ => ?_
  rw [Except.ok.injEq, eq_comm]

/-- a written row is found again under the header -/
theorem holds_exportRow {padYear : Bool} {e : TransactionEntry} {fields : List (List Char)}
    (h : exportRow padYear e = .ok fields) : Holds padYear e exportColumns ⟨exportHeader, fields⟩ := by
  obtain ⟨x, hx, rfl⟩ := exportRow_ok.1 h
  refine ⟨?_, ?_, ?_, ?_, ?_, ?_⟩
  · exact lt_irrefl 4
  · exact List.mem_cons_of_mem _ (List.mem_cons_of_mem _ List.mem_cons_self)
  · rfl
  · exact ⟨_, rfl, rfl⟩
  · rfl
  · exact ⟨x, hx, rfl⟩

/-- nothing to strip at the start -/
theorem dropWhile_of_stripOf {p : Char → Bool} {cs : List Char} (h : stripOf p cs = cs) : cs.dropWhile p = cs := by
  have hle : cs.length ≤ (cs.dropWhile p).length := by
    conv_lhs => rw [← h]
    exact (List.rdropWhile_prefix _ _).length_le
  exact (List.dropWhile_suffix p).eq_of_length (le_antisymm (List.dropWhile_suffix p).length_le hle)

theorem spreadsheetSafe_eq_self {value : List Char} (hstrip : strip value = value)
    (hsafe : value.head? ∉ [some '=', some '+', some '-', some '@']) : spreadsheetSafe value = value := by
  unfold spreadsheetSafe
  rw [dropWhile_of_stripOf hstrip]
  exact if_neg hsafe

/-- the notes that are read have the value date that was written -/
theorem valueDateNotes_of_holds {padYear : Bool} {e : TransactionEntry} {columns : Columns} {raw : DictRow}
    (h : Holds padYear e columns raw) (rowNumber : String) :
    ∃ notes, valueDateNotes columns raw rowNumber = .ok notes ∧
      valueDate notes.toList = valueDate e.transaction.notes.toList := by
  obtain ⟨header, hcolumn, hfield⟩ := h.valueDate
  unfold valueDateNotes
  rw [hcolumn]
  dsimp only
  rw [hfield]
  cases valueDate e.transaction.notes.toList with
  | none => exact ⟨"", if_pos rfl, valueDate_nil⟩
  | some d =>
    have hne : strip (strftime padYear d) ≠ [] := by
      rw [strip_strftime, strftime]
      simp
    rw [Option.elim_some, if_neg hne, parseDate_strftime]
    refine ⟨_, rfl, ?_⟩
    rw [String.toList_ofList]
    exact valueDate_isoFormat d

/-- **A row reads back.** When the columns hold what the export wrote for an entry, the parser returns a row with the
entry's date, description, amount and value date. -/
theorem parseRow_of_holds {padYear : Bool} {e : TransactionEntry} {columns : Columns} {raw : DictRow} (he : Exportable e)
    (h : Holds padYear e columns raw) (rowNumber : String) :
    ∃ row, parseRow columns raw rowNumber = .ok (some row) ∧ ReadBack e row := by
  obtain ⟨x, hx, hvalue, hread⟩ := quantizeCents_reads he.places he.amount_lt e.amount_ne
  obtain ⟨d, hd, hordinal⟩ := ordinal_fromOrdinal he.date.1 he.date.2
  obtain ⟨notes, hnotes, hsame⟩ := valueDateNotes_of_holds h rowNumber
  have hne : e.transaction.description.toList ≠ [] := fun hnil => he.description_ne (String.toList_eq_nil_iff.1 hnil)
  have hdate : raw.text columns.transactionDate = strftime padYear d := by
    rw [h.date, civil, hd]
    rfl
  have hamount : raw.text columns.amount = x.fixed := by
    obtain ⟨y, hy, hfield⟩ := h.amount
    cases hx.symm.trans hy
    exact hfield
  have hdescription : strip (raw.text columns.description) = e.transaction.description.toList := by
    rw [h.description, spreadsheetSafe_eq_self he.description_strip he.description_safe, he.description_strip]
  have hblank : ¬raw.Blank := fun hblank => hne (hdescription ▸ hblank _ h.name)
  refine ⟨⟨d.ordinal, String.ofList e.transaction.description.toList, x.value, _, notes, "", none, rfl⟩,
    parseRow_ok_iff.2 ⟨h.extra, .inr ⟨hblank, _, rfl, ?_⟩⟩, hordinal, String.ofList_toList, hvalue, hsame⟩
  refine ⟨?_, ?_, ?_, ?_, ?_, ?_, ?_, ?_⟩
  · exact (congrArg String.ofList hdescription).symm
  · exact hdescription ▸ hne
  · exact hdescription ▸ he.description_length
  · exact ⟨d, hdate ▸ parseDate_strftime padYear d rowNumber, rfl⟩
  · exact ⟨x, hamount ▸ hread rowNumber, rfl⟩
  · exact hnotes
  · rfl
  · rfl

/-! ## Files -/

/-- the csv reader recovers the fields that are written -/
def Recovers (csv : CsvModule) (table : List (List (List Char))) : Prop :=
  csv.read (table.flatMap writerow) = (table, false)

instance (csv : CsvModule) (table : List (List (List Char))) : Decidable (Recovers csv table) :=
  inferInstanceAs (Decidable (_ = _))

theorem exportRows_ok (padYear : Bool) {entries : List TransactionEntry} (h : ∀ e ∈ entries, Exportable e) :
    ∃ table, entries.mapM (exportRow padYear) = .ok table := by
  apply exists_mapM_ok_iff.2
  intro e he
  obtain ⟨x, hx, -⟩ := quantizeCents_reads (h e he).places (h e he).amount_lt e.amount_ne
  exact ⟨_, exportRow_ok.2 ⟨x, hx, rfl⟩⟩

/-- the written rows, each read with the number it has -/
theorem parseRows_exported {padYear : Bool} {entries : List TransactionEntry} {table : List (List (List Char))}
    (hentries : ∀ e ∈ entries, Exportable e) (h : entries.mapM (exportRow padYear) = .ok table) (n : ℕ) :
    ∃ rows : List ImportedRow, (((dictRows exportHeader table).zipIdx n).mapM fun (raw, rowNumber) =>
      parseRow exportColumns raw (toString rowNumber)) = .ok (rows.map some) ∧ List.Forall₂ ReadBack entries rows := by
  rw [mapM_ok_iff] at h
  induction h generalizing n with
  | nil => exact ⟨[], rfl, .nil⟩
  | @cons e fields entries table hrow _ ih =>
    obtain ⟨he, hrest⟩ := List.forall_mem_cons.1 hentries
    obtain ⟨row, hread, hback⟩ := parseRow_of_holds he (holds_exportRow hrow) (toString n)
    obtain ⟨rows, hreads, hbacks⟩ := ih hrest (n + 1)
    have hne : fields ≠ [] := by
      obtain ⟨x, -, rfl⟩ := exportRow_ok.1 hrow
      exact List.cons_ne_nil _ _
    have hdict : dictRows exportHeader (fields :: table) = ⟨exportHeader, fields⟩ :: dictRows exportHeader table := by
      rw [dictRows, List.filter_cons_of_pos (by simpa using hne)]
      rfl
    refine ⟨row :: rows, ?_, .cons hback hbacks⟩
    rw [hdict, List.zipIdx_cons, mapM_ok_iff, List.map_cons]
    exact .cons hread (mapM_ok_iff.1 hreads)

/-- the file begins with the header -/
theorem flatMap_writerow (table : List (List (List Char))) :
    ∃ rest, (exportHeader :: table).flatMap writerow = 'T' :: rest :=
  ⟨_, rfl⟩

/-- **Exported statements import back.** When the entries of an account can be exported and the reader recovers the rows
that are written, the importer accepts the file and gives back date, description, amount and value date of every entry,
in their order. -/
theorem export_imports_back (csv : CsvModule) (padYear : Bool) (db : Db) (account : ℕ)
    (hne : exportedEntries db account ≠ []) (hentries : ∀ e ∈ exportedEntries db account, Exportable e)
    (hcsv : ∀ table, exportTable padYear db account = .ok table → Recovers csv table) :
    ∃ text rows, exportAccountTransactions padYear db account = .ok text ∧
      parseTransactionCsv csv text.utf8Encode = .ok rows ∧
      List.Forall₂ ReadBack (exportedEntries db account) rows := by
  obtain ⟨table, htable⟩ := exportRows_ok padYear hentries
  obtain ⟨rows, hreads, hback⟩ := parseRows_exported hentries htable 2
  have hexport : exportTable padYear db account = .ok (exportHeader :: table) := bind_eq_ok.2 ⟨table, htable, rfl⟩
  have hrecovers := hcsv _ hexport
  obtain ⟨rest, htext⟩ := flatMap_writerow table
  rw [Recovers, htext] at hrecovers
  have hrows : rows ≠ [] := by
    rintro rfl
    exact hne (List.forall₂_nil_right_iff.1 hback)
  have hreduce : (rows.map some).reduceOption = rows := by
    simp [List.reduceOption]
  have hparsed : parseRows exportColumns (dictRows exportHeader table) false = .ok rows := by
    rw [parseRows, hreads]
    refine bind_eq_ok.2 ⟨_, rfl, ?_⟩
    rw [hreduce, if_neg Bool.false_ne_true, if_neg hrows]
  refine ⟨'T' :: rest, rows, bind_eq_ok.2 ⟨_, hexport, congrArg Except.ok htext⟩, ?_, hback⟩
  rw [parseTransactionCsv, decodeUtf8Sig_utf8Encode rfl]
  dsimp only
  have htext_ne : strip ('T' :: rest) ≠ [] := fun h => absurd (strip_eq_nil_iff.1 h 'T' List.mem_cons_self) (by decide)
  rw [if_neg htext_ne, hrecovers]
  dsimp only
  have hheader : exportHeader ≠ [] := List.cons_ne_nil _ _
  rw [if_neg hheader, columnsOf_exportHeader]
  exact hparsed

/-- the csv module on a text without quotes, written with the delimiter ; -/
def semicolonCsv : CsvModule where
  Dialect := Unit
  excel := ()
  sniff _ _ := some ()
  reader _ text := ((((remove '\r' text).splitOn '\n').filter (· ≠ [])).map (·.splitOn ';'), false)

/-- a deposit with a value date, and a fee, of account 5 -/
def exportDb : Db :=
  { euroDb with
    entries := [
      ⟨1, ⟨1, 7, 739842, "Interest payment", .deposit, "", "Value date: 2026-08-15"⟩, 5, 12384329393 / 100, 3, none, none,
        "", by norm_num⟩,
      ⟨2, ⟨2, 7, 739841, "Fee", .withdrawal, "", ""⟩, 5, -21821 / 10, 3, none, none, "", by norm_num⟩] }

theorem export_imports_back_twoEntries :
    ∃ text rows, exportAccountTransactions true exportDb 5 = .ok text ∧
      parseTransactionCsv semicolonCsv text.utf8Encode = .ok rows ∧
      List.Forall₂ ReadBack (exportedEntries exportDb 5) rows := by
  refine export_imports_back semicolonCsv true exportDb 5 (by decide +kernel) (fun e he => ?_) fun table htable => ?_
  · have hmem : e ∈ exportDb.entries := by
      rw [exportedEntries, mem_orderBy] at he
      exact List.mem_of_mem_filter he
    simp only [exportDb, List.mem_cons, List.not_mem_nil, or_false] at hmem
    rcases hmem with rfl | rfl
    · exact ⟨by decide, hasPlaces_iff.2 ⟨12384329393, by norm_num⟩, by norm_num [abs_lt], by decide, by decide,
        by decide, by decide⟩
    · exact ⟨by decide, hasPlaces_iff.2 ⟨-218210, by norm_num⟩, by norm_num [abs_lt], by decide, by decide,
        by decide, by decide⟩
  · obtain ⟨written, hwritten, hrecovers⟩ := exists_ok_of_check (x := exportTable true exportDb 5)
      (p := Recovers semicolonCsv) (by decide +kernel)
    cases htable.symm.trans hwritten
    exact hrecovers

end Vault67.Ledger
