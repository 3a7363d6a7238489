/-
A statement that is exported from one account and imported into another.

`export_account_csv` offers the file for download; the importer takes it back. The name of the file never makes it a PDF.

- `copied_of_import`: the import is accepted, and writes the rows of the file, in its order.
- `statement_moves`: the other account gains, at every date, the balance of the exported one, and no other account changes.
- `statement_copied_twice`: a copy has the rows of each day in reverse, so the copy of a copy is exported byte for byte as
  the first account was.
-/
import Mathlib.Tactic
import Vault67.Lib.StableOrder
import Vault67.Ledger.Book
import Vault67.Ledger.ExportReads
import Vault67.Ledger.Statements

namespace Vault67.Ledger

open Fallible OrderBy Text

/-! ## The file -/

/-- what `export_account_csv` offers for download; slug is `slugify(account.name)`, or the key of the account -/
def download (slug : String) (text : List Char) : Upload := ⟨slug ++ "-transactions.csv", (String.ofList text).toUTF8⟩

theorem download_content (slug : String) (text : List Char) : (download slug text).content = text.utf8Encode :=
  String.toByteArray_ofList

theorem download_not_pdf (slug : String) (text : List Char) : ¬(download slug text).IsPdf := by
  intro hpdf
  have hcsv : ".csv".toList <:+ casefold (slug ++ "-transactions.csv") := by
    rw [casefold, String.toList_append, List.flatMap_append]
    exact List.IsSuffix.trans (by decide) (List.suffix_append _ _)
  have hsame := (List.suffix_of_suffix_length_le hpdf hcsv (by decide)).eq_of_length (by decide)
  exact absurd hsame (by decide)

/-- the written rows are read back; the file begins with the header -/
theorem parse_written {csv : CsvModule} {padYear : Bool} {entries : List TransactionEntry} {table : List (List (List Char))}
    (hne : entries ≠ []) (hentries : ∀ e ∈ entries, Exportable e) (htable : entries.mapM (exportRow padYear) = .ok table)
    (hcsv : Recovers csv (exportHeader :: table)) :
    ∃ rows, parseTransactionCsv csv ((exportHeader :: table).flatMap writerow).utf8Encode = .ok rows ∧
      List.Forall₂ ReadBack entries rows := by
  obtain ⟨rows, hreads, hback⟩ := parseRows_exported hentries htable 2
  obtain ⟨rest, htext⟩ := flatMap_writerow table
  have hrows : rows ≠ [] := by
    rintro rfl
    exact hne (List.forall₂_nil_right_iff.1 hback)
  have hparsed : parseRows exportColumns (dictRows exportHeader table) false = .ok rows := by
    rw [parseRows, hreads]
    refine bind_eq_ok.2 ⟨_, rfl, ?_⟩
    simp [List.reduceOption, hrows]
  have htext_ne : strip ('T' :: rest) ≠ [] := fun h => absurd (strip_eq_nil_iff.1 h 'T' List.mem_cons_self) (by decide)
  have hheader : exportHeader ≠ [] := by simp [exportHeader]
  rw [Recovers, htext] at hcsv
  refine ⟨rows, ?_, hback⟩
  rw [htext, parseTransactionCsv, decodeUtf8Sig_utf8Encode rfl]
  simp only [if_neg htext_ne, hcsv, if_neg hheader, columnsOf_exportHeader]
  exact hparsed

/-- rows of a CSV are storable, and name no currency -/
theorem parseTransactionCsv_storable {csv : CsvModule} {content : ByteArray} {rows : List ImportedRow}
    (h : parseTransactionCsv csv content = .ok rows) : ∀ row ∈ rows, Storable row ∧ row.currencyCode = none := by
  intro row hrow
  obtain ⟨text, fieldnames, records, raises, columns, -, -, -, hrows⟩ := parseTransactionCsv_rows h
  obtain ⟨raw, -, rowNumber, hread⟩ := Rows.exists_of_mem_right hrows hrow
  exact ⟨hread.storable, hread.currencyCode⟩

/-! ## The copy -/

/-- the same row of a statement -/
structure SameRow (e e' : TransactionEntry) : Prop where
  date : e'.transaction.transactionDate = e.transaction.transactionDate
  description : e'.transaction.description = e.transaction.description
  amount : e'.amount = e.amount
  valueDate : valueDate e'.transaction.notes.toList = valueDate e.transaction.notes.toList

theorem SameRow.trans {e e' e'' : TransactionEntry} (h : SameRow e e') (h' : SameRow e' e'') : SameRow e e'' :=
  ⟨h'.date.trans h.date, h'.description.trans h.description, h'.amount.trans h.amount, h'.valueDate.trans h.valueDate⟩

theorem SameRow.exportRow_eq {e e' : TransactionEntry} (h : SameRow e e') (padYear : Bool) :
    exportRow padYear e' = exportRow padYear e := by
  rw [exportRow, exportRow, h.date, h.description, h.amount, h.valueDate]

theorem SameRow.exportable {e e' : TransactionEntry} (h : SameRow e e') (he : Exportable e) : Exportable e' := by
  constructor
  · rw [h.date]
    exact he.date
  · rw [h.amount]
    exact he.places
  · rw [h.amount]
    exact he.amount_lt
  · rw [h.description]
    exact he.description_ne
  · rw [h.description]
    exact he.description_length
  · rw [h.description]
    exact he.description_strip
  · rw [h.description]
    exact he.description_safe

/-- the account has got the rows of these entries, in their order, and nothing else has changed -/
structure Copied (db db' : Db) (account : ℕ) (entries copies : List TransactionEntry) : Prop where
  added : db'.entries = db.entries ++ copies
  chart : chartOfAccounts db' = chartOfAccounts db
  same : List.Forall₂ SameRow entries copies
  on : ∀ e ∈ copies, e.account = account
  numbered : copies.Pairwise fun e e' => e.pk < e'.pk

/-- a posted entry gets the next key -/
theorem create_numbered {db db' : Db} {owner account : ℕ} {amount : ℚ} {date : Date} {description notes reference : String}
    {type : TransactionType}
    (h : create db owner account amount type date description notes reference = .ok db') :
    ∃ t e, db' = db.post t [e] [] ∧ e.pk = db.nextEntry := by
  simp only [create, ite_error_eq_ok, bind_eq_ok] at h
  obtain ⟨-, -, ⟨t, db₁⟩, ht, he⟩ := h
  obtain ⟨-, -, -, -, rfl⟩ := createTransaction_ok ht
  obtain ⟨e, -, hpk, -, -, -, -, -, rfl⟩ := createEntry_ok he
  exact ⟨t, e, Db.addEntry_addTransaction _ _ _, hpk⟩

/-- the rows are posted one after the other, under rising keys -/
theorem createAll_numbered {db db' : Db} {owner account : ℕ} {rows : List ImportedRow} (hrows : ∀ row ∈ rows, Storable row)
    (h : rows.foldlM (fun db row => create db owner account row.amount row.transactionType row.transactionDate
      row.description row.notes row.reference) db = .ok db') :
    ∃ posts, List.Forall₂ (PostedAs owner account) rows posts ∧ db' = postAll db posts ∧
      posts.map (fun p => p.2.pk) = List.range' db.nextEntry posts.length := by
  induction rows generalizing db with
  | nil =>
    cases h
    exact ⟨[], .nil, (postAll_nil _).symm, rfl⟩
  | cons row rows ih =>
    obtain ⟨hrow, hrest⟩ := List.forall_mem_cons.1 hrows
    obtain ⟨db₁, hcreate, h⟩ := foldlM_cons_ok.1 h
    obtain ⟨t, e, hdb, hpk⟩ := create_numbered hcreate
    obtain ⟨p, hp, rfl⟩ := create_posted hrow hcreate
    have hsame : [p.2] = [e] := List.append_cancel_left (congrArg Db.entries hdb)
    obtain ⟨posts, hposts, rfl, hnumbers⟩ := ih hrest h
    refine ⟨p :: posts, .cons hp hposts, postAll_cons db p posts, ?_⟩
    rw [List.map_cons, List.length_cons, List.range'_succ, hnumbers, List.singleton_inj.1 hsame, hpk]
    rfl

/-- the rows of a written file, posted -/
theorem same_of_posted {owner account : ℕ} {entries : List TransactionEntry} {rows : List ImportedRow}
    {posts : List (Transaction × TransactionEntry)} (hback : List.Forall₂ ReadBack entries rows)
    (hposts : List.Forall₂ (PostedAs owner account) rows posts) :
    List.Forall₂ SameRow entries (posts.map Prod.snd) ∧ ∀ e ∈ posts.map Prod.snd, e.account = account := by
  induction hback generalizing posts with
  | nil =>
    cases hposts
    exact ⟨.nil, by simp⟩
  | cons hrow _ ih =>
    obtain _ | ⟨hp, hrest⟩ := hposts
    obtain ⟨hsame, hon⟩ := ih hrest
    refine ⟨.cons ⟨?_, ?_, ?_, ?_⟩ hsame, ?_⟩
    · rw [hp.transaction, hp.date, hrow.date]
    · rw [hp.transaction, hp.description, hrow.description]
    · rw [hp.amount, hrow.amount]
    · rw [hp.transaction, hp.notes, hrow.valueDate]
    · simpa [hp.account] using hon

/-- **The importer takes the file back.** -/
theorem copied_of_import {lib : Libraries} {padYear : Bool} {db : Db} {owner account : ℕ} {entries : List TransactionEntry}
    {table : List (List (List Char))} (slug : String) (howner : (db.account account).owner = owner)
    (haccount : account ∈ db.accountIds) (hne : entries ≠ []) (hentries : ∀ e ∈ entries, Exportable e)
    (htable : entries.mapM (exportRow padYear) = .ok table) (hcsv : Recovers lib.csv (exportHeader :: table)) :
    ∃ db' copies, importFile lib db owner account (download slug ((exportHeader :: table).flatMap writerow)) =
      .ok (entries.length, db') ∧ Copied db db' account entries copies := by
  obtain ⟨rows, hparse, hback⟩ := parse_written hne hentries htable hcsv
  have hstorable := parseTransactionCsv_storable hparse
  have hfile : parseFile lib (download slug ((exportHeader :: table).flatMap writerow)) = .ok rows := by
    rw [parseFile, if_neg (download_not_pdf slug _), download_content, hparse]
  have hcurrency : ¬∃ row ∈ rows, row.wrongCurrency (db.currencyCode (db.account account).currency) := by
    rintro ⟨row, hrow, c, hc, -⟩
    rw [(hstorable row hrow).2] at hc
    cases hc
  obtain ⟨db', hposted⟩ := createAll_accepted (fun row hrow => (hstorable row hrow).1) howner haccount
  obtain ⟨posts, hposts, rfl, hnumbers⟩ := createAll_numbered (fun row hrow => (hstorable row hrow).1) hposted
  obtain ⟨hsame, hon⟩ := same_of_posted hback hposts
  refine ⟨postAll db posts, posts.map Prod.snd, ?_, rfl, rfl, hsame, hon, ?_⟩
  · rw [importFile, if_neg (not_not.2 howner), hfile]
    have himport : importTransactions db owner account rows = .ok (rows.length, postAll db posts) := by
      rw [importTransactions, if_neg (not_not.2 howner)]
      simp only [if_neg hcurrency, hposted]
      rfl
    simp only [bind_eq_ok, mapError_eq_ok]
    refine ⟨rows, rfl, ?_⟩
    rw [himport, hback.length_eq]
  · have hpks : (posts.map Prod.snd).map TransactionEntry.pk = List.range' db.nextEntry posts.length := by
      rw [List.map_map]
      exact hnumbers
    rw [← List.pairwise_map, hpks]
    exact List.pairwise_lt_range'

/-! ## Balances -/

/-- the balances of a book of copies: those of the copied rows, on another account -/
theorem bookBalance_copies {account : ℕ} {entries copies : List TransactionEntry} (hsame : List.Forall₂ SameRow entries copies)
    (hon : ∀ e ∈ copies, e.account = account) (asOfDate : Option Date) :
    bookBalance (copies.map lineOf) account asOfDate =
      ((entries.filter fun e => ∀ d ∈ asOfDate, e.transaction.transactionDate ≤ d).map TransactionEntry.amount).sum := by
  induction hsame with
  | nil => rfl
  | @cons e e' entries copies h _ ih =>
    obtain ⟨he, hrest⟩ := List.forall_mem_cons.1 hon
    have hline : (lineOf e').adds account asOfDate =
        if ∀ d ∈ asOfDate, e.transaction.transactionDate ≤ d then e.amount else 0 := by
      simp [Line.adds, lineOf, he, h.date, h.amount]
    rw [List.map_cons, bookBalance_cons, Pi.add_apply, Pi.add_apply, ih hrest, hline]
    by_cases hdate : ∀ d ∈ asOfDate, e.transaction.transactionDate ≤ d
    · rw [List.filter_cons, if_pos (decide_eq_true hdate), if_pos hdate, List.map_cons, List.sum_cons]
    · rw [if_neg hdate, zero_add, List.filter_cons, if_neg (by simpa using hdate)]

theorem bookBalance_other {account other : ℕ} {copies : List TransactionEntry} (hon : ∀ e ∈ copies, e.account = account)
    (hne : other ≠ account) (asOfDate : Option Date) : bookBalance (copies.map lineOf) other asOfDate = 0 := by
  induction copies with
  | nil => rfl
  | cons e copies ih =>
    obtain ⟨he, hrest⟩ := List.forall_mem_cons.1 hon
    rw [List.map_cons, bookBalance_cons, Pi.add_apply, Pi.add_apply, ih hrest]
    simp [Line.adds, lineOf, he, hne]

/-- the exported entries of an account are its entries -/
theorem exportedEntries_balance (db : Db) (account : ℕ) (asOfDate : Option Date) :
    (((exportedEntries db account).filter fun e => ∀ d ∈ asOfDate, e.transaction.transactionDate ≤ d).map
      TransactionEntry.amount).sum = accountBalance db account asOfDate := by
  rw [exportedEntries, (((orderBy_perm _ _).filter _).map _).sum_eq, List.filter_filter, accountBalance]
  refine congrArg List.sum (congrArg _ (List.filter_congr fun e _ => ?_))
  simp [Bool.and_comm]

theorem Copied.balance {db db' : Db} {account source : ℕ} {copies : List TransactionEntry}
    (h : Copied db db' account (exportedEntries db source) copies) (asOfDate : Option Date) :
    accountBalance db' account asOfDate = accountBalance db account asOfDate + accountBalance db source asOfDate ∧
      ∀ other, other ≠ account → accountBalance db' other asOfDate = accountBalance db other asOfDate := by
  rw [accountBalance_eq_book db', accountBalance_eq_book db, h.added, List.map_append, bookBalance_append,
    ← accountBalance_eq_book]
  refine ⟨?_, fun other hne => ?_⟩
  · rw [Pi.add_apply, Pi.add_apply, bookBalance_copies h.same h.on, exportedEntries_balance]
  · rw [Pi.add_apply, Pi.add_apply, bookBalance_other h.on hne, add_zero]

/-- what the csv reader is relied on for: it recovers the rows of this statement, in any order -/
def RecoversRows (csv : CsvModule) (padYear : Bool) (entries : List TransactionEntry) : Prop :=
  ∀ table rows, entries.mapM (exportRow padYear) = .ok table → rows.Perm table → Recovers csv (exportHeader :: rows)

theorem exportAccountTransactions_eq {padYear : Bool} {db : Db} {account : ℕ} {table : List (List (List Char))}
    (htable : (exportedEntries db account).mapM (exportRow padYear) = .ok table) :
    exportAccountTransactions padYear db account = .ok ((exportHeader :: table).flatMap writerow) := by
  rw [exportAccountTransactions, exportTable, htable]
  rfl

/-- **A statement moves.** What an account exports is accepted for any other account of the user, whose balance then grows at
every date by that of the exported one. The csv reader only has to recover the rows as the export has written them. -/
theorem statement_moves (lib : Libraries) (padYear : Bool) (db : Db) {owner source account : ℕ} (slug : String)
    (howner : (db.account account).owner = owner) (haccount : account ∈ db.accountIds)
    (hne : exportedEntries db source ≠ []) (hentries : ∀ e ∈ exportedEntries db source, Exportable e)
    (hcsv : ∀ table, (exportedEntries db source).mapM (exportRow padYear) = .ok table →
      Recovers lib.csv (exportHeader :: table)) :
    ∃ text db', exportAccountTransactions padYear db source = .ok text ∧
      importFile lib db owner account (download slug text) = .ok ((exportedEntries db source).length, db') ∧
        ∀ asOfDate,
          accountBalance db' account asOfDate = accountBalance db account asOfDate + accountBalance db source asOfDate ∧
            ∀ other, other ≠ account → accountBalance db' other asOfDate = accountBalance db other asOfDate := by
  obtain ⟨table, htable⟩ := exportRows_ok padYear hentries
  obtain ⟨db', copies, himport, hcopied⟩ := copied_of_import slug howner haccount hne hentries htable
    (hcsv table htable)
  exact ⟨_, db', exportAccountTransactions_eq htable, himport, fun asOfDate => hcopied.balance asOfDate⟩

theorem interest_ne_zero : (12384329393 / 100 : ℚ) ≠ 0 := by norm_num

theorem fee_ne_zero : (-21821 / 10 : ℚ) ≠ 0 := by norm_num

theorem salary_ne_zero : (2000 : ℚ) ≠ 0 := by norm_num

/-- two deposits and a fee of account 5, two of them on one day; accounts 6 and 8 of the same user have none -/
def threeEntries : Db :=
  { euroDb with
    accountIds := [5, 6, 8]
    account := fun _ => euroDb.account 5
    entries := [
      ⟨1, ⟨1, 7, 739842, "Interest payment", .deposit, "", "Value date: 2026-08-15"⟩, 5, 12384329393 / 100, 3, none, none,
        "", interest_ne_zero⟩,
      ⟨2, ⟨2, 7, 739841, "Fee", .withdrawal, "", ""⟩, 5, -21821 / 10, 3, none, none, "", fee_ne_zero⟩,
      ⟨3, ⟨3, 7, 739842, "Salary", .income, "", ""⟩, 5, 2000, 3, none, none, "", salary_ne_zero⟩] }

theorem threeEntries_exportable : ∀ e ∈ exportedEntries threeEntries 5, Exportable e := by
  intro e he
  have hmem : e ∈ threeEntries.entries := by
    rw [exportedEntries, mem_orderBy] at he
    exact List.mem_of_mem_filter he
  simp only [threeEntries, List.mem_cons, List.not_mem_nil, or_false] at hmem
  rcases hmem with rfl | rfl | rfl
  · exact ⟨by decide, hasPlaces_iff.2 ⟨12384329393, by norm_num⟩, by norm_num [abs_lt], by decide, by decide, by decide,
      by decide⟩
  · exact ⟨by decide, hasPlaces_iff.2 ⟨-218210, by norm_num⟩, by norm_num [abs_lt], by decide, by decide, by decide,
      by decide⟩
  · exact ⟨by decide, hasPlaces_iff.2 ⟨200000, by norm_num⟩, by norm_num [abs_lt], by decide, by decide, by decide,
      by decide⟩

theorem threeEntries_recovers : RecoversRows semicolonCsv true (exportedEntries threeEntries 5) := by
  intro table rows htable hperm
  obtain ⟨written, hwritten, hrecovers⟩ := exists_ok_of_check (x := (exportedEntries threeEntries 5).mapM (exportRow true))
    (p := fun table => ∀ rows ∈ table.permutations', Recovers semicolonCsv (exportHeader :: rows)) (by decide +kernel)
  cases htable.symm.trans hwritten
  exact hrecovers rows (List.mem_permutations'.2 hperm)

theorem statement_moves_threeEntries :
    ∃ text db', exportAccountTransactions true threeEntries 5 = .ok text ∧
      importFile ⟨semicolonCsv, ⟨fun _ => .ok [], id⟩⟩ threeEntries 7 6 (download "main" text) =
        .ok ((exportedEntries threeEntries 5).length, db') ∧
        ∀ asOfDate,
          accountBalance db' 6 asOfDate = accountBalance threeEntries 6 asOfDate + accountBalance threeEntries 5 asOfDate ∧
            ∀ other, other ≠ 6 → accountBalance db' other asOfDate = accountBalance threeEntries other asOfDate :=
  statement_moves ⟨semicolonCsv, ⟨fun _ => .ok [], id⟩⟩ true threeEntries "main" (by decide) (by decide) (by decide +kernel)
    threeEntries_exportable fun table htable => threeEntries_recovers table table htable (List.Perm.refl _)

/-! ## Copies of copies -/

/-- the latest day first -/
def byDay (entries : List TransactionEntry) : List TransactionEntry :=
  orderBy (fun e => OrderDual.toDual e.transaction.transactionDate) entries

theorem exportedEntries_sorted (db : Db) (account : ℕ) : (exportedEntries db account).Pairwise fun e e' =>
    OrderDual.toDual e.transaction.transactionDate ≤ OrderDual.toDual e'.transaction.transactionDate := by
  refine (orderBy_sorted _ _).imp fun {e e'} h => ?_
  have hle : exportKey e' ≤ exportKey e := h
  rcases Prod.Lex.le_iff.1 hle with hlt | ⟨heq, -⟩
  · exact hlt.le
  · exact heq.le

/-- an account that had no entries exports its copies, those of each day in reverse -/
theorem Copied.exportedEntries_eq {db db' : Db} {account : ℕ} {entries copies : List TransactionEntry}
    (h : Copied db db' account entries copies) (hempty : exportedEntries db account = []) :
    exportedEntries db' account = byDay copies.reverse := by
  have hnone : db.entries.filter (fun e => e.account = account) = [] := by
    have hperm := orderBy_perm (fun e => OrderDual.toDual (exportKey e)) (db.entries.filter fun e => e.account = account)
    rw [← exportedEntries, hempty] at hperm
    exact List.perm_nil.1 hperm.symm
  have hall : copies.filter (fun e => e.account = account) = copies :=
    List.filter_eq_self.2 fun e he => decide_eq_true (h.on e he)
  have hentries : exportedEntries db' account = orderBy (fun e => OrderDual.toDual (exportKey e)) copies := by
    rw [exportedEntries, h.added, List.filter_append, hnone, hall, List.nil_append]
  symm
  refine orderBy_unique (exportedEntries_sorted db' account) fun day => ?_
  rw [hentries, filter_orderBy, List.filter_reverse]
  symm
  -- within a day the keys fall, as the copies are numbered in the order of the file
  refine orderBy_of_perm (List.reverse_perm _) ?_ ?_
  · rw [List.pairwise_reverse]
    refine (h.numbered.filter _).imp_of_mem fun {e e'} he he' hpk => ?_
    have hday : OrderDual.toDual e.transaction.transactionDate = day := of_decide_eq_true (List.mem_filter.1 he).2
    have hday' : OrderDual.toDual e'.transaction.transactionDate = day := of_decide_eq_true (List.mem_filter.1 he').2
    have hsame : e.transaction.transactionDate = e'.transaction.transactionDate :=
      OrderDual.toDual_inj.1 (hday.trans hday'.symm)
    exact Prod.Lex.le_iff.2 (.inr ⟨hsame, hpk.le⟩)
  · intro e he e' he' hkey
    have hnodup : (copies.map TransactionEntry.pk).Nodup := (List.pairwise_map.2 h.numbered).imp fun hlt => hlt.ne
    have hpk : e.pk = e'.pk := congrArg (fun k : ℕ ×ₗ ℕ => (ofLex k).2) (OrderDual.toDual_inj.1 hkey)
    exact List.inj_on_of_nodup_map hnodup (List.mem_of_mem_filter he) (List.mem_of_mem_filter he') hpk

theorem Copied.exportedEntries_other {db db' : Db} {account other : ℕ} {entries copies : List TransactionEntry}
    (h : Copied db db' account entries copies) (hne : other ≠ account) :
    exportedEntries db' other = exportedEntries db other := by
  have hnone : copies.filter (fun e => e.account = other) = [] :=
    List.filter_eq_nil_iff.2 fun e he hother => hne (by rw [← h.on e he, of_decide_eq_true hother])
  rw [exportedEntries, exportedEntries, h.added, List.filter_append, hnone, List.append_nil]

theorem byDay_forall₂ {entries copies : List TransactionEntry} (h : List.Forall₂ SameRow entries copies) :
    List.Forall₂ SameRow (byDay entries.reverse) (byDay copies.reverse) :=
  orderBy_forall₂ (fun _ _ hrow => congrArg OrderDual.toDual hrow.date.symm) (List.rel_reverse h)

theorem forall₂_sameRow_trans {l l' l'' : List TransactionEntry} (h : List.Forall₂ SameRow l l')
    (h' : List.Forall₂ SameRow l' l'') : List.Forall₂ SameRow l l'' := by
  induction h generalizing l'' with
  | nil =>
    cases h'
    exact .nil
  | cons hrow _ ih =>
    obtain _ | ⟨hrow', hrest⟩ := h'
    exact .cons (hrow.trans hrow') (ih hrest)

theorem exportRows_same {entries copies : List TransactionEntry} (h : List.Forall₂ SameRow entries copies) (padYear : Bool) :
    copies.mapM (exportRow padYear) = entries.mapM (exportRow padYear) := by
  induction h with
  | nil => rfl
  | cons hrow _ ih => rw [List.mapM_cons, List.mapM_cons, hrow.exportRow_eq, ih]

/-- the rows that are written, entry by entry -/
theorem exportRows_map {padYear : Bool} {entries : List TransactionEntry} {table : List (List (List Char))}
    (htable : entries.mapM (exportRow padYear) = .ok table) :
    table = entries.map fun e => (exportRow padYear e).toOption.getD [] := by
  rw [mapM_ok_iff] at htable
  induction htable with
  | nil => rfl
  | cons hrow _ ih =>
    rw [List.map_cons, ← ih, hrow]
    rfl

theorem exportRows_perm {padYear : Bool} {entries entries' : List TransactionEntry} {table table' : List (List (List Char))}
    (h : entries.Perm entries') (htable : entries.mapM (exportRow padYear) = .ok table)
    (htable' : entries'.mapM (exportRow padYear) = .ok table') : table.Perm table' := by
  rw [exportRows_map htable, exportRows_map htable']
  exact h.map _

/-- **A copy of a copy** is the original, byte for byte: one copy has the rows of each day in reverse, the second turns them
round again. The entries must be ones the export can write, and the csv reader must recover their rows in any order. -/
theorem statement_copied_twice (lib : Libraries) (padYear : Bool) (db : Db) {owner source copy second : ℕ}
    (slug slug' : String) (hcopy : (db.account copy).owner = owner) (hsecond : (db.account second).owner = owner)
    (hids : copy ∈ db.accountIds ∧ second ∈ db.accountIds) (hne : copy ≠ second)
    (hempty : exportedEntries db copy = [] ∧ exportedEntries db second = [])
    (hfull : exportedEntries db source ≠ []) (hentries : ∀ e ∈ exportedEntries db source, Exportable e)
    (hcsv : RecoversRows lib.csv padYear (exportedEntries db source)) :
    ∃ text db₁ text₁ db₂, exportAccountTransactions padYear db source = .ok text ∧
      importFile lib db owner copy (download slug text) = .ok ((exportedEntries db source).length, db₁) ∧
      exportAccountTransactions padYear db₁ copy = .ok text₁ ∧
      importFile lib db₁ owner second (download slug' text₁) = .ok ((exportedEntries db source).length, db₂) ∧
      exportAccountTransactions padYear db₂ second = .ok text := by
  set entries := exportedEntries db source with hset
  obtain ⟨table, htable⟩ := exportRows_ok padYear hentries
  obtain ⟨db₁, copies, himport, hcopied⟩ := copied_of_import slug hcopy hids.1 hfull hentries htable
    (hcsv table table htable (List.Perm.refl _))
  have haccount : db₁.account = db.account := congrArg ChartOfAccounts.account hcopied.chart
  have hknown : db₁.accountIds = db.accountIds := congrArg ChartOfAccounts.accountIds hcopied.chart
  -- the copy exports the rows of the source, those of each day in reverse
  have hfirst : exportedEntries db₁ copy = byDay copies.reverse := hcopied.exportedEntries_eq hempty.1
  have hrows : List.Forall₂ SameRow (byDay entries.reverse) (exportedEntries db₁ copy) := hfirst ▸ byDay_forall₂ hcopied.same
  have hexportable : ∀ e ∈ exportedEntries db₁ copy, Exportable e := by
    intro e he
    obtain ⟨e₀, he₀, hrow⟩ := Rows.exists_of_mem_right hrows he
    exact hrow.exportable (hentries e₀ (List.mem_reverse.1 (mem_orderBy.1 he₀)))
  have hlength : (exportedEntries db₁ copy).length = entries.length := by
    rw [← hrows.length_eq, byDay, (orderBy_perm _ _).length_eq, List.length_reverse]
  have hfull₁ : exportedEntries db₁ copy ≠ [] := by
    intro hnil
    rw [hnil] at hlength
    exact hfull (List.length_eq_zero_iff.1 hlength.symm)
  obtain ⟨table₁, htable₁⟩ := exportRows_ok padYear hexportable
  have hperm : table₁.Perm table := by
    have hrewritten := exportRows_same hrows padYear
    rw [htable₁] at hrewritten
    exact exportRows_perm ((orderBy_perm _ _).trans (List.reverse_perm _)) hrewritten.symm htable
  have hempty₁ : exportedEntries db₁ second = [] := (hcopied.exportedEntries_other hne.symm).trans hempty.2
  obtain ⟨db₂, copies₂, himport₂, hcopied₂⟩ := copied_of_import slug' (haccount ▸ hsecond) (hknown ▸ hids.2) hfull₁
    hexportable htable₁ (hcsv table table₁ htable hperm)
  -- and the copy of the copy in reverse again, which is their first order
  have hagain : List.Forall₂ SameRow entries (exportedEntries db₂ second) := by
    have htwice : byDay (byDay entries.reverse).reverse = entries :=
      orderBy_reverse_twice (exportedEntries_sorted db source)
    rw [hcopied₂.exportedEntries_eq hempty₁, ← htwice]
    exact forall₂_sameRow_trans (byDay_forall₂ hrows) (byDay_forall₂ hcopied₂.same)
  rw [hlength] at himport₂
  refine ⟨_, db₁, _, db₂, exportAccountTransactions_eq htable, himport, exportAccountTransactions_eq htable₁, himport₂, ?_⟩
  exact exportAccountTransactions_eq ((exportRows_same hagain padYear).trans htable)

theorem statement_copied_twice_threeEntries :
    ∃ text db₁ text₁ db₂, exportAccountTransactions true threeEntries 5 = .ok text ∧
      importFile ⟨semicolonCsv, ⟨fun _ => .ok [], id⟩⟩ threeEntries 7 6 (download "main" text) =
        .ok ((exportedEntries threeEntries 5).length, db₁) ∧
      exportAccountTransactions true db₁ 6 = .ok text₁ ∧
      importFile ⟨semicolonCsv, ⟨fun _ => .ok [], id⟩⟩ db₁ 7 8 (download "copy" text₁) =
        .ok ((exportedEntries threeEntries 5).length, db₂) ∧
      exportAccountTransactions true db₂ 8 = .ok text :=
  statement_copied_twice ⟨semicolonCsv, ⟨fun _ => .ok [], id⟩⟩ true threeEntries "main" "copy" (by decide) (by decide)
    (by decide) (by decide) ⟨by decide +kernel, by decide +kernel⟩ (by decide +kernel) threeEntries_exportable
    threeEntries_recovers

end Vault67.Ledger
