/-
Importing a statement: the file is parsed, and its rows are posted in one atomic block.

- `posted_importTransactions`: the posting adds one transaction with one entry for each row, in order, and nothing else.
- `parseTransactionCsv_rows`, `parseTransactionPdf_rows`: the rows are those of the file's records.
- `pdfRows_reconcile`: the amounts of a PDF run with its printed balances exactly when no change of the balance loses
  digits in the decimal context.
- `import_contract_iff`: the whole import.
-/
import Mathlib.Tactic
import Mathlib.Data.List.ReduceOption
import Vault67.Ledger.PdfReads
import Vault67.Lib.RunningBalance
import Vault67.Sessions

namespace Vault67.Ledger

open Fallible Session Text

/-! ## Model -/

/-- an uploaded file -/
structure Upload where
  name : String
  content : ByteArray

/-- what the importer takes from outside the repository -/
structure Libraries where
  csv : CsvModule
  pdf : PdfModule

/-- `csv_file.name.casefold().endswith(".pdf")` -/
def Upload.IsPdf (file : Upload) : Prop := ".pdf".toList <:+ casefold file.name

instance (file : Upload) : Decidable file.IsPdf := inferInstanceAs (Decidable (_ <:+ _))

def parseFile (lib : Libraries) (file : Upload) : Except Raised (List ImportedRow) :=
  if file.IsPdf then parseTransactionPdf lib.pdf file.content else parseTransactionCsv lib.csv file.content

/-- what `import_transactions` raises -/
inductive ImportFailure where
  | parser (e : Raised)
  | service (e : Error)
deriving DecidableEq, Repr

/-- `import_transactions`: the number of rows posted, and the new state -/
def importFile (lib : Libraries) (db : Db) (owner account : ℕ) (file : Upload) : Except ImportFailure (ℕ × Db) :=
  if (db.account account).owner ≠ owner then
    .error (.service (.message (.text "Account does not belong to user.")))
  else do
    let rows ← (parseFile lib file).mapError .parser
    (importTransactions db owner account rows).mapError .service

/-- `import_transactions`, as a session -/
def importFileSession (lib : Libraries) (owner account : ℕ) (file : Upload) : Session Db ImportFailure ℕ := do
  raiseIf (fun db => (db.account account).owner ≠ owner) fun _ =>
    .service (.message (.text "Account does not belong to user."))
  let rows ← query fun _ => (parseFile lib file).mapError .parser
  (importSession owner account rows).mapError .service

theorem importFileSession_allOrNothing (lib : Libraries) (owner account : ℕ) (file : Upload) :
    AllOrNothing (importFileSession lib owner account file) fun db => importFile lib db owner account file :=
  .raiseIf_bind (.query_bind fun rows => (importSession_allOrNothing owner account rows).mapError ImportFailure.service)

theorem exec_importFile_ok {lib : Libraries} {db db' : Db} {owner account n : ℕ} {file : Upload} :
    (importFileSession lib owner account file).exec db = (.ok n, db') ↔
      importFile lib db owner account file = .ok (n, db') := by
  rw [importFileSession_allOrNothing lib owner account file db]
  exact settle_eq_ok

/-! ## Posting -/

/-- the transaction and the entry that a row is posted as -/
structure PostedAs (owner account : ℕ) (row : ImportedRow) (p : Transaction × TransactionEntry) : Prop where
  owner : p.1.owner = owner
  date : p.1.transactionDate = row.transactionDate
  description : p.1.description = row.description
  transactionType : p.1.transactionType = row.transactionType
  reference : p.1.reference = row.reference
  notes : p.1.notes = row.notes
  transaction : p.2.transaction = p.1
  account : p.2.account = account
  amount : p.2.amount = row.amount

/-- the database with transactions of one entry each added to it -/
def postAll (db : Db) (posts : List (Transaction × TransactionEntry)) : Db :=
  { db with
    transactions := db.transactions ++ posts.map Prod.fst
    entries := db.entries ++ posts.map Prod.snd
    nextTransaction := db.nextTransaction + posts.length
    nextEntry := db.nextEntry + posts.length }

@[simp] theorem postAll_nil (db : Db) : postAll db [] = db := by simp [postAll]

theorem postAll_cons (db : Db) (p : Transaction × TransactionEntry) (posts : List (Transaction × TransactionEntry)) :
    postAll (db.post p.1 [p.2] []) posts = postAll db (p :: posts) := by
  simp [postAll, Db.post, add_assoc, add_comm 1]

/-- the columns keep the row as it is -/
structure Storable (row : ImportedRow) : Prop where
  description : row.description.length ≤ 255
  reference : row.reference.length ≤ 100
  amount : HasPlaces 4 row.amount
  amount_ne : row.amount ≠ 0
  amount_lt : |row.amount| < 10 ^ 16

theorem storeText_short {length : ℕ} {s : String} (h : s.length ≤ length) : storeText length s = .ok s := if_pos h

theorem create_posted {db db' : Db} {owner account : ℕ} {row : ImportedRow} (hrow : Storable row)
    (h : create db owner account row.amount row.transactionType row.transactionDate row.description row.notes
      row.reference = .ok db') :
    ∃ p, PostedAs owner account row p ∧ db' = db.post p.1 [p.2] [] := by
  simp only [create, ite_error_eq_ok, bind_eq_ok] at h
  obtain ⟨-, -, ⟨t, db₁⟩, ht, he⟩ := h
  simp only [createTransaction, storeText_short hrow.description, storeText_short hrow.reference, bind_eq_ok,
    Except.ok.injEq, Prod.mk.injEq, exists_eq_left'] at ht
  obtain ⟨rfl, rfl⟩ := ht
  obtain ⟨e, -, -, het, hea, hamount, -, -, rfl⟩ := createEntry_ok he
  exact ⟨(_, e), ⟨rfl, rfl, rfl, rfl, rfl, rfl, het, hea, storeMoney_exact hamount hrow.amount⟩,
    Db.addEntry_addTransaction _ _ _⟩

/-- one transaction with one entry for each row, in order, and nothing else -/
theorem posted_importTransactions {db db' : Db} {owner account n : ℕ} {rows : List ImportedRow}
    (hrows : ∀ row ∈ rows, Storable row) (h : importTransactions db owner account rows = .ok (n, db')) :
    n = rows.length ∧ ∃ posts, List.Forall₂ (PostedAs owner account) rows posts ∧ db' = postAll db posts := by
  simp only [importTransactions, ite_error_eq_ok, bind_eq_ok, Except.ok.injEq, Prod.mk.injEq] at h
  obtain ⟨-, -, _, h, rfl, rfl⟩ := h
  refine ⟨rfl, ?_⟩
  induction rows generalizing db with
  | nil =>
    cases h
    exact ⟨[], .nil, (postAll_nil _).symm⟩
  | cons row rows ih =>
    obtain ⟨db₁, hcreate, h⟩ := foldlM_cons_ok.1 h
    obtain ⟨p, hp, rfl⟩ := create_posted (hrows row List.mem_cons_self) hcreate
    obtain ⟨posts, hposts, rfl⟩ := ih (fun r hr => hrows r (List.mem_cons_of_mem row hr)) h
    exact ⟨p :: posts, .cons hp hposts, postAll_cons db p posts⟩

theorem create_accepted {db : Db} {owner account : ℕ} {row : ImportedRow} (hrow : Storable row)
    (howner : (db.account account).owner = owner) (haccount : account ∈ db.accountIds) :
    ∃ db', create db owner account row.amount row.transactionType row.transactionDate row.description row.notes
      row.reference = .ok db' := by
  unfold create
  rw [if_neg hrow.amount_ne, if_neg (not_not.2 howner)]
  simp only [createTransaction, storeText_short hrow.description, storeText_short hrow.reference, createEntry,
    storeMoney_eq_ok hrow.amount hrow.amount_lt, bind_eq_ok, Except.ok.injEq, exists_eq_left']
  exact ⟨_, dif_pos ⟨haccount, hrow.amount_ne⟩⟩

theorem account_of_create {db db' : Db} {owner account : ℕ} {amount : ℚ} {type : TransactionType} {date : Date}
    {description notes reference : String}
    (h : create db owner account amount type date description notes reference = .ok db') : account ∈ db.accountIds := by
  simp only [create, ite_error_eq_ok, bind_eq_ok] at h
  obtain ⟨-, -, ⟨t, db₁⟩, ht, he⟩ := h
  obtain ⟨-, haccount, -⟩ := createEntry_ok he
  obtain ⟨-, -, -, -, rfl⟩ := createTransaction_ok ht
  exact haccount

theorem createAll_accepted {db : Db} {owner account : ℕ} {rows : List ImportedRow}
    (hrows : ∀ row ∈ rows, Storable row) (howner : (db.account account).owner = owner)
    (haccount : account ∈ db.accountIds) :
    ∃ db', rows.foldlM (fun db row => create db owner account row.amount row.transactionType row.transactionDate
      row.description row.notes row.reference) db = .ok db' := by
  induction rows generalizing db with
  | nil => exact ⟨db, rfl⟩
  | cons row rows ih =>
    have hrow := hrows row List.mem_cons_self
    obtain ⟨db₁, hcreate⟩ := create_accepted hrow howner haccount
    obtain ⟨p, -, rfl⟩ := create_posted hrow hcreate
    -- a posting leaves the accounts as they are
    have howner' : ((db.post p.1 [p.2] []).account account).owner = owner := howner
    obtain ⟨db₂, hrest⟩ := ih (fun r hr => hrows r (List.mem_cons_of_mem row hr)) howner' haccount
    exact ⟨db₂, foldlM_cons_ok.2 ⟨_, hcreate, hrest⟩⟩

/-- the rows are posted when the account is one of the owner's, and no row names another currency -/
theorem importTransactions_accepted {db : Db} {owner account : ℕ} {rows : List ImportedRow}
    (hrows : ∀ row ∈ rows, Storable row) (hne : rows ≠ []) :
    (∃ r, importTransactions db owner account rows = .ok r) ↔ (db.account account).owner = owner ∧
      account ∈ db.accountIds ∧ ¬∃ row ∈ rows, row.wrongCurrency (db.currencyCode (db.account account).currency) := by
  simp only [importTransactions, ite_error_eq_ok, bind_eq_ok, not_not]
  refine ⟨?_, ?_⟩
  · intro h
    obtain ⟨r, howner, hcurrency, db', hposted, -⟩ := h
    refine ⟨howner, ?_, hcurrency⟩
    obtain ⟨row, rest, rfl⟩ := List.exists_cons_of_ne_nil hne
    obtain ⟨db₁, hcreate, -⟩ := foldlM_cons_ok.1 hposted
    exact account_of_create hcreate
  · intro h
    obtain ⟨howner, haccount, hcurrency⟩ := h
    obtain ⟨db', hposted⟩ := createAll_accepted hrows howner haccount
    exact ⟨_, howner, hcurrency, db', hposted, rfl⟩

theorem accountBalance_postAll (db : Db) (posts : List (Transaction × TransactionEntry)) (account : ℕ) :
    accountBalance (postAll db posts) account none = accountBalance db account none +
      ((posts.filter fun p => p.2.account = account).map fun p => p.2.amount).sum := by
  simp [accountBalance, postAll, List.filter_append, List.filter_map, Function.comp_def]

/-- the account changes by the sum of the rows -/
theorem accountBalance_posted {db : Db} {owner account : ℕ} {rows : List ImportedRow}
    {posts : List (Transaction × TransactionEntry)} (h : List.Forall₂ (PostedAs owner account) rows posts) :
    accountBalance (postAll db posts) account none =
      accountBalance db account none + (rows.map ImportedRow.amount).sum := by
  rw [accountBalance_postAll]
  congr 1
  induction h with
  | nil => rfl
  | cons hp _ ih => simp [hp.account, hp.amount, ih]

/-- no other account changes, at any date -/
theorem accountBalance_other {db : Db} {owner account other : ℕ} {rows : List ImportedRow} (hne : other ≠ account)
    {posts : List (Transaction × TransactionEntry)} (h : List.Forall₂ (PostedAs owner account) rows posts)
    (asOfDate : Option Date) :
    accountBalance (postAll db posts) other asOfDate = accountBalance db other asOfDate := by
  have hnone : ∀ e ∈ posts.map Prod.snd, e.account ≠ other := by
    intro e he
    obtain ⟨p, hp, rfl⟩ := List.mem_map.1 he
    obtain ⟨row, -, hposted⟩ := Rows.exists_of_mem_right h hp
    rw [hposted.account]
    exact hne.symm
  unfold accountBalance
  have hfilter : (posts.map Prod.snd).filter (fun e =>
      e.account = other ∧ ∀ d ∈ asOfDate, e.transaction.transactionDate ≤ d) = [] :=
    List.filter_eq_nil_iff.2 fun e he hkeep => hnone e he (of_decide_eq_true hkeep).1
  show (((db.entries ++ posts.map Prod.snd).filter _).map _).sum = _
  rw [List.filter_append, hfilter, List.append_nil]

/-! ## Rows of a CSV -/

/-- one row for each record with a value, in order -/
def CsvRows (csv : CsvModule) (content : ByteArray) (rows : List ImportedRow) : Prop :=
  ∃ text fieldnames records raises columns, decodeUtf8Sig content = some text ∧
    csv.read text = (fieldnames :: records, raises) ∧ columnsOf fieldnames = .ok columns ∧
      List.Forall₂ (fun raw row => ∃ rowNumber, ReadFrom columns raw rowNumber row)
        ((dictRows fieldnames records).filter fun raw => ¬raw.Blank) rows

theorem numberedRows_ok {columns : Columns} {raws : List DictRow} {n : ℕ} {parsed : List (Option ImportedRow)}
    (h : ((raws.zipIdx n).mapM fun (raw, rowNumber) => parseRow columns raw (toString rowNumber)) = .ok parsed) :
    List.Forall₂ (fun raw row => ∃ rowNumber, ReadFrom columns raw rowNumber row) (raws.filter fun raw => ¬raw.Blank)
      parsed.reduceOption := by
  rw [mapM_ok_iff] at h
  induction raws generalizing n parsed with
  | nil =>
    cases h
    exact .nil
  | cons raw raws ih =>
    rw [List.zipIdx_cons] at h
    obtain _ | ⟨hrow, hrows⟩ := h
    obtain ⟨-, ⟨hblank, rfl⟩ | ⟨hblank, row, rfl, hread⟩⟩ := parseRow_ok_iff.1 hrow
    · rw [List.filter_cons_of_neg (by simpa using hblank), List.reduceOption_cons_of_none]
      exact ih hrows
    · rw [List.filter_cons_of_pos (by simpa using hblank), List.reduceOption_cons_of_some]
      exact .cons ⟨_, hread⟩ (ih hrows)

theorem parseTransactionCsv_rows {csv : CsvModule} {content : ByteArray} {rows : List ImportedRow}
    (h : parseTransactionCsv csv content = .ok rows) : CsvRows csv content rows := by
  unfold parseTransactionCsv at h
  split at h
  · cases h
  · rename_i text htext
    rw [ite_error_eq_ok] at h
    obtain ⟨-, h⟩ := h
    split at h
    · cases h
    · rename_i fieldnames records raises hread
      rw [ite_error_eq_ok, bind_eq_ok] at h
      obtain ⟨-, columns, hcolumns, h⟩ := h
      simp only [parseRows, bind_eq_ok, ite_error_eq_ok] at h
      obtain ⟨parsed, hparsed, -, -, h⟩ := h
      cases h
      exact ⟨text, fieldnames, records, raises, columns, htext, hread, hcolumns, numberedRows_ok hparsed⟩

/-! ## Rows of a PDF -/

/-- the number that is printed; 0 for a text that is no number -/
def printedValue (value : List Char) : ℚ := (printedNumber value).elim 0 Decimal.value

/-- the row has the date, the currency and the magnitude that are printed -/
structure ImportedFrom (printed : PdfRow) (row : ImportedRow) : Prop where
  amount_ne : row.amount ≠ 0
  magnitude : |row.amount| = |printedValue printed.amount|
  date : ∃ d, parseDate printed.date (String.ofList printed.date) = .ok d ∧ row.transactionDate = d.ordinal
  currencyCode : row.currencyCode = some (String.ofList printed.currency)

/-- the amounts run with the balances, from the opening balance on, or else from the second row on -/
def Reconciles (opening : Option ℚ) (balances amounts : List ℚ) : Prop :=
  match opening, balances with
  | some o, balances => Running o balances amounts
  | none, [] => True
  | none, b :: balances => Running b balances amounts.tail

/-- no change from a balance to the next one has more digits than the context -/
def ChangesFit (opening : Option ℚ) (balances : List ℚ) : Prop :=
  (opening.toList ++ balances).IsChain fun p b => decimalContext.Fits (b - p)

theorem PrintedOn.balance_value {previous : Option Decimal} {record : PdfRecord} {balance : Decimal} {row : ImportedRow}
    (h : PrintedOn previous record balance row) : printedValue record.balance = balance.value := by
  rw [printedValue, h.printed_balance, Option.elim_some]

theorem pdfRow_change {p balance : Decimal} {record : PdfRecord} {row : ImportedRow}
    (h : PrintedOn (some p) record balance row) :
    row.amount = printedValue record.balance - p.value ↔ decimalContext.Fits (printedValue record.balance - p.value) := by
  rw [h.change p rfl, h.balance_value, ← Decimal.sub_value]
  exact Context.round_value_eq_iff

/-- after a balance, the amounts run with the balances exactly when every change fits -/
theorem pdfRows_running {p : Decimal} {records : List PdfRecord} {rows : List ImportedRow}
    (h : pdfRows (some p) records = .ok rows) :
    Running p.value (records.map fun r => printedValue r.balance) (rows.map ImportedRow.amount) ↔
      ChangesFit (some p.value) (records.map fun r => printedValue r.balance) := by
  unfold ChangesFit
  induction records generalizing p rows with
  | nil => simp
  | cons record records ih =>
    obtain ⟨row, balance, rest, hrow, hrest, rfl⟩ := pdfRows_cons_ok h
    simp only [List.map_cons, Option.toList_some, List.cons_append, List.nil_append, List.isChain_cons_cons]
    rw [running_cons, pdfRow_change hrow]
    apply and_congr_right
    intro _
    rw [hrow.balance_value]
    exact ih hrest

theorem pdfRows_reconcile {previous : Option Decimal} {records : List PdfRecord} {rows : List ImportedRow}
    (h : pdfRows previous records = .ok rows) :
    Reconciles (previous.map Decimal.value) (records.map fun r => printedValue r.balance) (rows.map ImportedRow.amount) ↔
      ChangesFit (previous.map Decimal.value) (records.map fun r => printedValue r.balance) := by
  cases previous with
  | some p => exact pdfRows_running h
  | none =>
    cases records with
    | nil => simp [Reconciles, ChangesFit]
    | cons record records =>
      obtain ⟨row, balance, rest, hrow, hrest, rfl⟩ := pdfRows_cons_ok h
      -- the first balance takes the place of the opening one
      simp only [Option.map_none, List.map_cons, Reconciles, List.tail_cons]
      rw [hrow.balance_value]
      exact pdfRows_running hrest

theorem PrintedOn.importedFrom {previous : Option Decimal} {record : PdfRecord} {balance : Decimal} {row : ImportedRow}
    (h : PrintedOn previous record balance row) : ImportedFrom record.toPdfRow row := by
  obtain ⟨x, hx, hne, hmagnitude, -⟩ := h.amount
  refine ⟨hne, ?_, h.date, h.currencyCode⟩
  rw [hmagnitude, printedValue, hx, Option.elim_some]

/-- the opening balance of a statement -/
def openingValue (text : List Char) : Option ℚ := (openingRow text).map fun r => printedValue r.1

/-- the printed balances, row by row -/
def printedBalances (pages : List (List Char)) : List ℚ := (transactionRows pages).map fun r => printedValue r.balance

theorem openingBalance_ok {text : List Char} {opening : Option (Decimal × String)}
    (h : openingBalance text = .ok opening) : (opening.map Prod.fst).map Decimal.value = openingValue text := by
  unfold openingBalance at h
  unfold openingValue
  cases hrow : openingRow text with
  | none =>
    rw [hrow] at h
    cases h
    rfl
  | some r =>
    rw [hrow] at h
    obtain ⟨balance, hbalance, h⟩ := bind_eq_ok.1 h
    cases h
    simp [printedValue, elim_eq_ok.1 hbalance]

theorem parseTransactionPdf_rows {pdf : PdfModule} {content : ByteArray} {rows : List ImportedRow}
    (h : parseTransactionPdf pdf content = .ok rows) :
    ∃ pages text, extractPdfText pdf content = .ok (pages, text) ∧
      List.Forall₂ ImportedFrom (transactionRows pages) rows ∧
        (Reconciles (openingValue text) (printedBalances pages) (rows.map ImportedRow.amount) ↔
          ChangesFit (openingValue text) (printedBalances pages)) := by
  obtain ⟨pages, text, records, opening, hextract, hrecords, hopening, hparsed⟩ := parseTransactionPdf_ok h
  have hrows := rawPdfTransactions_rows hrecords
  have hbalances : printedBalances pages = records.map fun r => printedValue r.balance := by
    rw [printedBalances, ← hrows, List.map_map]
    rfl
  refine ⟨pages, text, hextract, ?_, ?_⟩
  · rw [← hrows, List.forall₂_map_left_iff]
    apply (pdfRows_printed hparsed).imp
    intro record row hrow
    obtain ⟨previous, balance, hprinted⟩ := hrow
    exact hprinted.importedFrom
  · rw [hbalances, ← openingBalance_ok hopening]
    exact pdfRows_reconcile hparsed

/-! ## Rows fit the columns -/

theorem length_shortDescription (description : List Char) : (shortDescription description).length ≤ 255 := by
  unfold shortDescription
  split_ifs with h
  · rw [List.length_append, List.length_take]
    have hdots : "...".toList.length = 3 := by decide
    omega
  · exact not_lt.1 h

theorem hasPlaces_of_abs_eq {k : ℕ} {x y : ℚ} (h : |x| = |y|) (hy : HasPlaces k y) : HasPlaces k x := by
  rcases abs_eq_abs.1 h with rfl | rfl
  · exact hy
  · exact hy.neg

theorem ReadFrom.storable {columns : Columns} {raw : DictRow} {rowNumber : String} {row : ImportedRow}
    (h : ReadFrom columns raw rowNumber row) : Storable row := by
  obtain ⟨x, hx, hamount⟩ := h.amount
  obtain ⟨hne, hplaces, hlt⟩ := parseAmount_ok hx
  rw [← hamount] at hne hplaces hlt
  refine ⟨?_, ?_, hplaces, hne, hlt⟩
  · rw [h.description, String.length_ofList]
    exact h.description_length
  · rw [h.reference]
    decide

theorem PrintedOn.storable {previous : Option Decimal} {record : PdfRecord} {balance : Decimal} {row : ImportedRow}
    (h : PrintedOn previous record balance row) : Storable row := by
  obtain ⟨x, -, hne, hmagnitude, hplaces, hlt⟩ := h.amount
  refine ⟨?_, ?_, hasPlaces_of_abs_eq hmagnitude (hasPlaces_iff.2 (Decimal.value_mul_pow hplaces)), hne,
    hmagnitude ▸ hlt⟩
  · rw [h.description, String.length_ofList]
    exact length_shortDescription _
  · rw [h.reference, String.length_ofList, List.length_take]
    omega

theorem parseFile_storable {lib : Libraries} {file : Upload} {rows : List ImportedRow}
    (h : parseFile lib file = .ok rows) : ∀ row ∈ rows, Storable row := by
  intro row hrow
  unfold parseFile at h
  split_ifs at h
  · obtain ⟨pages, text, records, opening, -, -, -, hparsed⟩ := parseTransactionPdf_ok h
    obtain ⟨record, -, previous, balance, hprinted⟩ := Rows.exists_of_mem_right (pdfRows_printed hparsed) hrow
    exact hprinted.storable
  · obtain ⟨text, fieldnames, records, raises, columns, -, -, -, hrows⟩ := parseTransactionCsv_rows h
    obtain ⟨raw, -, rowNumber, hread⟩ := Rows.exists_of_mem_right hrows hrow
    exact hread.storable

/-! ## The import -/

/-- the rows of a PDF: one for each transaction row, in order, and they reconcile -/
def PdfRows (pdf : PdfModule) (content : ByteArray) (rows : List ImportedRow) : Prop :=
  ∃ pages text, extractPdfText pdf content = .ok (pages, text) ∧
    List.Forall₂ ImportedFrom (transactionRows pages) rows ∧
      Reconciles (openingValue text) (printedBalances pages) (rows.map ImportedRow.amount)

/-- the total of a statement with an opening balance is the closing balance minus it -/
theorem PdfRows.sum {pdf : PdfModule} {content : ByteArray} {rows : List ImportedRow} (h : PdfRows pdf content rows) :
    ∃ pages text, extractPdfText pdf content = .ok (pages, text) ∧
      ∀ o ∈ openingValue text, ∀ c ∈ (printedBalances pages).getLast?, (rows.map ImportedRow.amount).sum = c - o := by
  obtain ⟨pages, text, hextract, hrows, hreconcile⟩ := h
  refine ⟨pages, text, hextract, fun o ho c hc => ?_⟩
  rw [Option.mem_def.1 ho] at hreconcile
  refine Running.sum hreconcile ?_ hc
  rw [printedBalances, List.length_map, List.length_map]
  exact hrows.length_eq.symm

/-- an import that raises leaves the ledger as it is. An import that returns adds one transaction with one entry for each
row of the file, in order, and nothing else; the balance of the account changes by the sum of the rows, that of no other
account changes; and the rows are those of the file -/
structure ImportContract (lib : Libraries) (db : Db) (owner account : ℕ) (file : Upload) : Prop where
  raises : ∀ e db', (importFileSession lib owner account file).exec db = (.error e, db') → db' = db
  returns : ∀ n db', (importFileSession lib owner account file).exec db = (.ok n, db') → ∃ rows posts,
    n = rows.length ∧ List.Forall₂ (PostedAs owner account) rows posts ∧ db' = postAll db posts ∧
      accountBalance db' account none = accountBalance db account none + (rows.map ImportedRow.amount).sum ∧
      (∀ other asOfDate, other ≠ account → accountBalance db' other asOfDate = accountBalance db other asOfDate) ∧
      if file.IsPdf then PdfRows lib.pdf file.content rows else CsvRows lib.csv file.content rows

/-- the account is one of the owner's, and the file a statement in its currency whose rows read -/
structure PdfAccepted (lib : Libraries) (db : Db) (owner account : ℕ) (file : Upload) (pages : List (List Char))
    (text : List Char) : Prop where
  owned : (db.account account).owner = owner
  known : account ∈ db.accountIds
  extracted : extractPdfText lib.pdf file.content = .ok (pages, text)
  reads : ∃ currency, StatementReads pages text currency ∧
    (currency ≠ [] → String.ofList currency = db.currencyCode (db.account account).currency)

/-- in a PDF that is accepted, no change from one printed balance to the next has more than 28 digits -/
def StatementFits (lib : Libraries) (db : Db) (owner account : ℕ) (file : Upload) : Prop :=
  file.IsPdf → ∀ pages text, PdfAccepted lib db owner account file pages text →
    ChangesFit (openingValue text) (printedBalances pages)

/-- what an accepted import posts, apart from the reconciliation -/
theorem importFile_ok {lib : Libraries} {db db' : Db} {owner account n : ℕ} {file : Upload}
    (h : importFile lib db owner account file = .ok (n, db')) :
    ∃ rows posts, parseFile lib file = .ok rows ∧ n = rows.length ∧ List.Forall₂ (PostedAs owner account) rows posts ∧
      db' = postAll db posts := by
  simp only [importFile, ite_error_eq_ok, bind_eq_ok, mapError_eq_ok] at h
  obtain ⟨-, rows, hparse, hpost⟩ := h
  obtain ⟨hn, posts, hposts, hdb⟩ := posted_importTransactions (parseFile_storable hparse) hpost
  exact ⟨rows, posts, hparse, hn, hposts, hdb⟩

theorem amounts_of_posted {owner account : ℕ} {rows : List ImportedRow} {posts : List (Transaction × TransactionEntry)}
    (h : List.Forall₂ (PostedAs owner account) rows posts) :
    rows.map ImportedRow.amount = (posts.map Prod.snd).map TransactionEntry.amount := by
  induction h with
  | nil => rfl
  | cons hp _ ih => simp [hp.amount, ih]

theorem postAll_entries_inj {db : Db} {posts posts' : List (Transaction × TransactionEntry)}
    (h : postAll db posts = postAll db posts') : posts.map Prod.snd = posts'.map Prod.snd :=
  List.append_cancel_left (congrArg Db.entries h)

/-- the rows name a currency other than the account's when the statement does -/
theorem wrongCurrency_iff {pages : List (List Char)} {text currency : List Char} {rows : List ImportedRow} {code : String}
    (hreads : StatementReads pages text currency) (hrows : List.Forall₂ ImportedFrom (transactionRows pages) rows) :
    (∃ row ∈ rows, row.wrongCurrency code) ↔ currency ≠ [] ∧ String.ofList currency ≠ code := by
  have hprinted : ∀ printed ∈ transactionRows pages, printed.currency = currency := fun printed h =>
    hreads.currency _ (List.mem_append_left _ (List.mem_map_of_mem h))
  have hwrong : ∀ row ∈ rows, row.wrongCurrency code ↔ currency ≠ [] ∧ String.ofList currency ≠ code := by
    intro row hrow
    obtain ⟨printed, hmem, hfrom⟩ := Rows.exists_of_mem_right hrows hrow
    simp [ImportedRow.wrongCurrency, hfrom.currencyCode, hprinted printed hmem]
  refine ⟨?_, ?_⟩
  · intro h
    obtain ⟨row, hrow, hcode⟩ := h
    exact (hwrong row hrow).1 hcode
  · intro h
    obtain ⟨printed, hmem⟩ := List.exists_mem_of_ne_nil _ hreads.rows_ne
    obtain ⟨row, hrow, -⟩ := Rows.exists_of_mem_left hrows hmem
    exact ⟨row, hrow, (hwrong row hrow).2 h⟩

/-- the rows of a statement are posted to an account of the owner's in its currency -/
theorem statement_posted_iff {db : Db} {owner account : ℕ} {pages : List (List Char)} {text currency : List Char}
    {rows : List ImportedRow} (hreads : StatementReads pages text currency)
    (hrows : List.Forall₂ ImportedFrom (transactionRows pages) rows) (hstorable : ∀ row ∈ rows, Storable row) :
    (∃ r, importTransactions db owner account rows = .ok r) ↔ (db.account account).owner = owner ∧
      account ∈ db.accountIds ∧
        (currency ≠ [] → String.ofList currency = db.currencyCode (db.account account).currency) := by
  have hne : rows ≠ [] := by
    rintro rfl
    exact hreads.rows_ne (List.forall₂_nil_right_iff.1 hrows)
  rw [importTransactions_accepted hstorable hne, wrongCurrency_iff hreads hrows, not_and, not_not]

/-- an import of a PDF returns exactly when it is accepted -/
theorem importFile_pdf_iff {lib : Libraries} {db : Db} {owner account : ℕ} {file : Upload} (hpdf : file.IsPdf) :
    (∃ r, importFile lib db owner account file = .ok r) ↔
      ∃ pages text, PdfAccepted lib db owner account file pages text := by
  have hfile : parseFile lib file = parseTransactionPdf lib.pdf file.content := if_pos hpdf
  simp only [importFile, ite_error_eq_ok, bind_eq_ok, mapError_eq_ok, not_not]
  refine ⟨?_, ?_⟩
  · intro h
    obtain ⟨r, howned, rows, hparse, hpost⟩ := h
    obtain ⟨pages, text, currency, hextract, hreads⟩ := parseTransactionPdf_reads.1 ⟨rows, hfile ▸ hparse⟩
    obtain ⟨pages', text', hextract', hrows, -⟩ := parseTransactionPdf_rows (hfile ▸ hparse)
    cases hextract.symm.trans hextract'
    obtain ⟨-, hknown, hcurrency⟩ := (statement_posted_iff hreads hrows (parseFile_storable hparse)).1 ⟨r, hpost⟩
    exact ⟨pages, text, howned, hknown, hextract, currency, hreads, hcurrency⟩
  · intro h
    obtain ⟨pages, text, howned, hknown, hextract, currency, hreads, hcurrency⟩ := h
    obtain ⟨rows, hparse⟩ := parseTransactionPdf_reads.2 ⟨pages, text, currency, hextract, hreads⟩
    obtain ⟨pages', text', hextract', hrows, -⟩ := parseTransactionPdf_rows hparse
    cases hextract.symm.trans hextract'
    obtain ⟨r, hpost⟩ :=
      (statement_posted_iff hreads hrows (parseFile_storable (hfile.trans hparse))).2 ⟨howned, hknown, hcurrency⟩
    exact ⟨r, howned, rows, hfile.trans hparse, hpost⟩

theorem contract_of_fits {lib : Libraries} {db : Db} {owner account : ℕ} {file : Upload}
    (h : StatementFits lib db owner account file) : ImportContract lib db owner account file := by
  refine ⟨?_, ?_⟩
  · intro e db' hexec
    exact (Prod.ext_iff.1 hexec).2.symm.trans
      ((importFileSession_allOrNothing lib owner account file).of_error (Prod.ext_iff.1 hexec).1)
  · intro n db' hexec
    have hi := exec_importFile_ok.1 hexec
    obtain ⟨rows, posts, hparse, hn, hposts, rfl⟩ := importFile_ok hi
    refine ⟨rows, posts, hn, hposts, rfl, accountBalance_posted hposts,
      fun other asOfDate hne => accountBalance_other hne hposts asOfDate, ?_⟩
    unfold parseFile at hparse
    split_ifs with hpdf
    · rw [if_pos hpdf] at hparse
      obtain ⟨pages, text, hextract, hrows, hreconcile⟩ := parseTransactionPdf_rows hparse
      obtain ⟨pages', text', haccepted⟩ := (importFile_pdf_iff hpdf).1 ⟨_, hi⟩
      have hsame := hextract.symm.trans haccepted.extracted
      cases hsame
      exact ⟨pages, text, hextract, hrows, hreconcile.2 (h hpdf pages text haccepted)⟩
    · rw [if_neg hpdf] at hparse
      exact parseTransactionCsv_rows hparse

theorem fits_of_contract {lib : Libraries} {db : Db} {owner account : ℕ} {file : Upload}
    (h : ImportContract lib db owner account file) : StatementFits lib db owner account file := by
  intro hpdf pages text haccepted
  obtain ⟨⟨n, db'⟩, hi⟩ := (importFile_pdf_iff hpdf).2 ⟨pages, text, haccepted⟩
  have hextract := haccepted.extracted
  obtain ⟨rows, posts, -, hposts, hdb, -, -, hrows⟩ := h.returns n db' (exec_importFile_ok.2 hi)
  rw [if_pos hpdf] at hrows
  obtain ⟨pages', text', hextract', -, hreconcile⟩ := hrows
  rw [hextract] at hextract'
  cases hextract'
  -- the posted entries fix the amounts
  obtain ⟨parsed, posts', hparse, -, hposts', hdb'⟩ := importFile_ok hi
  have hamounts : rows.map ImportedRow.amount = parsed.map ImportedRow.amount := by
    rw [amounts_of_posted hposts, amounts_of_posted hposts', postAll_entries_inj (hdb.symm.trans hdb')]
  unfold parseFile at hparse
  rw [if_pos hpdf] at hparse
  obtain ⟨pages'', text'', hextract'', -, hiff⟩ := parseTransactionPdf_rows hparse
  rw [hextract] at hextract''
  cases hextract''
  exact hiff.1 (hamounts ▸ hreconcile)

/-- **The import keeps its contract** for every library, owner, account and file exactly when no change of the balance of
an accepted PDF loses digits. -/
theorem import_contract_iff (lib : Libraries) (db : Db) (owner account : ℕ) (file : Upload) :
    ImportContract lib db owner account file ↔ StatementFits lib db owner account file :=
  ⟨fits_of_contract, contract_of_fits⟩

/-- a statement with more decimals in its balances than the context has digits -/
def longPage : List Char :=
  ("DATE/REF  TRANSACTION DETAILS  BALANCE AFTER\n" ++
    "Opening Balance 01/01/2026 0.00000000000000000000000000000001 EUR\n" ++
    "02/01/2026  Deposit  1.00 EUR  1.00000000000000000000000000000003 EUR").toList

/-- every PDF has that one page -/
def longLibraries : Libraries := ⟨commaCsv, ⟨fun _ => .ok [.ok longPage], id⟩⟩

/-- account 5 of user 7, in euro -/
def euroDb : Db :=
  { Db.init (fun _ => "EUR") fun _ => ⟨"VWCE", 3, true⟩ with
    account := fun _ => ⟨7, "Current", .checking, 3, true, none⟩
    accountIds := [5] }

def longStatement : Upload := ⟨"statement.pdf", ⟨#[]⟩⟩

/-- 1.00 is imported where the balance changes by 1.00000000000000000000000000000002 -/
theorem long_balance_not_reconciled : ¬ImportContract longLibraries euroDb 7 5 longStatement := by
  intro h
  have hpdf : longStatement.IsPdf := by decide +kernel
  have hextract : extractPdfText longLibraries.pdf longStatement.content = .ok ([longPage], longPage) := by
    decide +kernel
  have haccepted : ∃ r, importFile longLibraries euroDb 7 5 longStatement = .ok r :=
    exists_ok_of_isOk (by decide +kernel)
  obtain ⟨pages, text, hstatement⟩ := (importFile_pdf_iff hpdf).1 haccepted
  cases hextract.symm.trans hstatement.extracted
  have hfits := fits_of_contract h hpdf _ _ hstatement
  have hopening : openingValue longPage = some (1 / 10 ^ 32) := by decide +kernel
  have hbalances : printedBalances [longPage] = [1 + 3 / 10 ^ 32] := by decide +kernel
  rw [hopening, hbalances, ChangesFit] at hfits
  have hchange : decimalContext.Fits (1 + 3 / 10 ^ 32 - 1 / 10 ^ 32) := by simpa using hfits
  have hvalue : (1 + 3 / 10 ^ 32 - 1 / 10 ^ 32 : ℚ) = (⟨false, 10 ^ 32 + 2, -32⟩ : Decimal).value := by
    norm_num [Decimal.value]
  rw [hvalue] at hchange
  exact absurd (Context.exact_of_fits hchange) (by decide +kernel)

end Vault67.Ledger
