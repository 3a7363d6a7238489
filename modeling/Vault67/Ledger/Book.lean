/-
The account book that the ledger keeps.

A book is a list of lines: an account, a day and an amount. A deposit, a withdrawal, a transfer or an import writes lines
that follow from the request and from the chart of accounts alone (`linesOf`), so the ledger refines the book.

- `cash_book`: the balances after any cash requests are those of the book, for every account at every date.
- `cash_any_order`: cash requests can come in any order: the same ones are accepted, and every balance is the same.
-/
import Mathlib.Tactic
import Vault67.Lib.Increments
import Vault67.Ledger.Shape

namespace Vault67.Ledger

open Fallible Increments

/-! ## Books -/

structure Line where
  account : ℕ
  date : Date
  amount : ℚ
deriving DecidableEq, Repr

/-- what a line adds to the balance of an account at a date -/
def Line.adds (l : Line) (account : ℕ) (asOfDate : Option Date) : ℚ :=
  if account = l.account ∧ ∀ d ∈ asOfDate, l.date ≤ d then l.amount else 0

/-- the balances of a book -/
def bookBalance (lines : List Line) : ℕ → Option Date → ℚ := (lines.map Line.adds).sum

@[simp] theorem bookBalance_nil : bookBalance [] = 0 := rfl

@[simp] theorem bookBalance_append (lines lines' : List Line) :
    bookBalance (lines ++ lines') = bookBalance lines + bookBalance lines' := by
  rw [bookBalance, List.map_append, List.sum_append]
  rfl

theorem bookBalance_cons (l : Line) (lines : List Line) : bookBalance (l :: lines) = l.adds + bookBalance lines := rfl

/-- the line of an entry -/
def lineOf (e : TransactionEntry) : Line := ⟨e.account, e.transaction.transactionDate, e.amount⟩

/-- the entries of the ledger are a book -/
theorem accountBalance_eq_book (db : Db) : accountBalance db = bookBalance (db.entries.map lineOf) := by
  funext account asOfDate
  rw [accountBalance]
  induction db.entries with
  | nil => rfl
  | cons e es ih =>
    rw [List.map_cons, bookBalance_cons, Pi.add_apply, Pi.add_apply, ← ih, Line.adds]
    by_cases h : e.account = account ∧ ∀ d ∈ asOfDate, e.transaction.transactionDate ≤ d
    · rw [List.filter_cons, if_pos (decide_eq_true h), List.map_cons, List.sum_cons, if_pos ⟨h.1.symm, h.2⟩]
      rfl
    · rw [List.filter_cons, if_neg (by simpa using h), if_neg fun h' => h ⟨h'.1.symm, h'.2⟩, zero_add]

theorem accountBalance_post (db : Db) (t : Transaction) (es : List TransactionEntry) (is : List InvestmentTransaction) :
    accountBalance (db.post t es is) = accountBalance db + bookBalance (es.map lineOf) := by
  rw [accountBalance_eq_book, accountBalance_eq_book, Db.post_entries, List.map_append, bookBalance_append]

/-! ## What a request writes -/

/-- the accounts, their contracts and currencies: what posting a request reads besides the ledger, and leaves -/
structure ChartOfAccounts where
  account : ℕ → FinancialAccount
  accountIds : List ℕ
  fixedTerm : ℕ → Option FixedTermDetails
  currencyCode : ℕ → String

def chartOfAccounts (db : Db) : ChartOfAccounts := ⟨db.account, db.accountIds, db.fixedTerm, db.currencyCode⟩

/-- the line of a single entry: an own account, texts that fit, an amount that is not rounded to nothing -/
def entryLines (c : ChartOfAccounts) (owner account : ℕ) (amount : ℚ) (date : Date) (description reference : String) :
    Option (List Line) :=
  match storeMoney amount with
  | .ok stored =>
    if (c.account account).owner = owner ∧ account ∈ c.accountIds ∧ (storeText 255 description).isOk ∧
      (storeText 100 reference).isOk ∧ stored ≠ 0 then some [⟨account, date, stored⟩] else none
  | .error _ => none

/-- both lines of a transfer -/
def transferLines (c : ChartOfAccounts) (owner source destination : ℕ) (amount : ℚ) (date : Date) (description : String) :
    Option (List Line) :=
  if amount ≤ 0 ∨ source = destination ∨ (c.account source).currency ≠ (c.account destination).currency then none
  else do
    let out ← entryLines c owner source (-amount) date description ""
    let into ← entryLines c owner destination amount date description ""
    some (out ++ into)

def rowLines (c : ChartOfAccounts) (owner account : ℕ) (row : ImportedRow) : Option (List Line) :=
  entryLines c owner account row.amount row.transactionDate row.description row.reference

/-- the lines of all rows, or none -/
def importLines (c : ChartOfAccounts) (owner account : ℕ) (rows : List ImportedRow) : Option (List Line) :=
  if (c.account account).owner ≠ owner ∨ ∃ row ∈ rows, row.wrongCurrency (c.currencyCode (c.account account).currency) then
    none
  else (rows.mapM (rowLines c owner account)).map List.flatten

/-- the lines of a cash request -/
def linesOf (c : ChartOfAccounts) : Op → Option (List Line)
  | .createDeposit owner account amount date description _ _ => entryLines c owner account amount date description ""
  | .createWithdrawal owner account amount date description _ _ =>
    if 0 < amount then entryLines c owner account (-amount) date description "" else none
  | .createTransfer owner source destination amount date description _ =>
    transferLines c owner source destination amount date description
  | .importTransactions owner account rows => importLines c owner account rows
  | _ => none


/-! ## The ledger writes it -/

theorem entryLines_eq_some {c : ChartOfAccounts} {owner account : ℕ} {amount : ℚ} {date : Date}
    {description reference : String} {lines : List Line} :
    entryLines c owner account amount date description reference = some lines ↔
      ∃ stored, storeMoney amount = .ok stored ∧ ((c.account account).owner = owner ∧ account ∈ c.accountIds ∧
        (storeText 255 description).isOk ∧ (storeText 100 reference).isOk ∧ stored ≠ 0) ∧
          [⟨account, date, stored⟩] = lines := by
  unfold entryLines
  cases hs : storeMoney amount with
  | error e => simp
  | ok stored => simp only [Option.ite_none_right_eq_some, Option.some.injEq, Except.ok.injEq, exists_eq_left']

/-- a posted request writes its line -/
theorem entryLines_of_create {db db' : Db} {owner account : ℕ} {amount : ℚ} {date : Date}
    {description notes reference : String} {type : TransactionType}
    (h : create db owner account amount type date description notes reference = .ok db') :
    ∃ t e, db' = db.post t [e] [] ∧
      entryLines (chartOfAccounts db) owner account amount date description reference = some [lineOf e] := by
  simp only [create, ite_error_eq_ok, bind_eq_ok, not_not] at h
  obtain ⟨-, howner, ⟨t, db₁⟩, ht, he⟩ := h
  simp only [createTransaction, bind_eq_ok, Except.ok.injEq, Prod.mk.injEq] at ht
  obtain ⟨d, hd, r, hr, rfl, rfl⟩ := ht
  obtain ⟨e, haccount, -, het, rfl, hstored, -, -, rfl⟩ := createEntry_ok he
  refine ⟨_, e, Db.addEntry_addTransaction _ _ _, entryLines_eq_some.2 ⟨e.amount, hstored, ?_, ?_⟩⟩
  · exact ⟨howner, haccount, by rw [hd]; rfl, by rw [hr]; rfl, e.amount_ne⟩
  · rw [lineOf, het]

theorem exists_createTransaction {description reference : String} (db : Db) (owner : ℕ) (date : Date)
    (type : TransactionType) (notes : String) (hdescription : (storeText 255 description).isOk)
    (hreference : (storeText 100 reference).isOk) :
    ∃ t, createTransaction db owner date description type reference notes = .ok (t, db.addTransaction t) := by
  obtain ⟨d, hd⟩ := exists_ok_of_isOk hdescription
  obtain ⟨r, hr⟩ := exists_ok_of_isOk hreference
  exact ⟨_, bind_eq_ok.2 ⟨d, hd, bind_eq_ok.2 ⟨r, hr, rfl⟩⟩⟩

theorem exists_createEntry {account : ℕ} {amount stored : ℚ} (db : Db) (t : Transaction) (currency : ℕ)
    (rate base : Option ℚ) (entryType : String) (haccount : account ∈ db.accountIds)
    (hstored : storeMoney amount = .ok stored) (hne : stored ≠ 0) :
    ∃ e, createEntry db t account amount currency rate base entryType = .ok (db.addEntry e) :=
  ⟨_, bind_eq_ok.2 ⟨stored, hstored, dif_pos ⟨haccount, hne⟩⟩⟩

theorem exists_create {db : Db} {owner account : ℕ} {amount : ℚ} {date : Date} {description notes reference : String}
    (type : TransactionType)
    (h : (entryLines (chartOfAccounts db) owner account amount date description reference).isSome) :
    ∃ db', create db owner account amount type date description notes reference = .ok db' := by
  obtain ⟨lines, hlines⟩ := Option.isSome_iff_exists.1 h
  obtain ⟨stored, hstored, ⟨howner, haccount, hdescription, hreference, hne⟩, -⟩ := entryLines_eq_some.1 hlines
  have hamount : amount ≠ 0 := by
    rintro rfl
    have hzero : storeMoney 0 = .ok 0 := storeMoney_eq_ok (hasPlaces_iff.2 ⟨0, by norm_num⟩) (by norm_num)
    exact hne (Except.ok.inj (hstored.symm.trans hzero))
  have hown : ¬(db.account account).owner ≠ owner := not_not.2 howner
  obtain ⟨t, ht⟩ := exists_createTransaction db owner date type notes hdescription hreference
  obtain ⟨e, he⟩ := exists_createEntry (db.addTransaction t) t (db.account account).currency none none
    (TransactionType.value type) haccount hstored hne
  rw [create, if_neg hamount, if_neg hown]
  exact ⟨_, bind_eq_ok.2 ⟨_, ht, he⟩⟩

/-- an operation on the ledger that writes these lines, or is refused -/
def WritesLines (operation : Db → Except Error Db) (lines : ChartOfAccounts → Option (List Line)) : Prop :=
  Adds operation chartOfAccounts accountBalance fun c => (lines c).map bookBalance

theorem create_writes (owner account : ℕ) (amount : ℚ) (type : TransactionType) (date : Date)
    (description notes reference : String) :
    WritesLines (fun db => create db owner account amount type date description notes reference)
      (entryLines · owner account amount date description reference) := by
  refine ⟨fun db h => exists_create type (by rwa [Option.isSome_map] at h), fun db db' h => ?_⟩
  obtain ⟨t, e, rfl, hlines⟩ := entryLines_of_create h
  exact ⟨rfl, _, congrArg _ hlines, accountBalance_post db t [e] []⟩

theorem createWithdrawal_writes (owner account : ℕ) (amount : ℚ) (date : Date) (description : String)
    (type : TransactionType) (notes : String) :
    WritesLines (fun db => createWithdrawal db owner account amount date description type notes)
      fun c => if 0 < amount then entryLines c owner account (-amount) date description "" else none := by
  by_cases hpos : 0 < amount
  · simp only [createWithdrawal, if_pos hpos]
    exact create_writes owner account (-amount) type date description notes ""
  · simp only [createWithdrawal, if_neg hpos]
    exact adds_error _

theorem transferLines_of_createTransfer {db db' : Db} {owner source destination : ℕ} {amount : ℚ} {date : Date}
    {description notes : String}
    (h : createTransfer db owner source destination amount date description notes = .ok db') :
    ∃ t e e', db' = db.post t [e, e'] [] ∧
      transferLines (chartOfAccounts db) owner source destination amount date description = some [lineOf e, lineOf e'] := by
  simp only [createTransfer, ite_error_eq_ok, bind_eq_ok, not_or, not_not] at h
  obtain ⟨hpos, hne, ⟨hos, hod⟩, hcurrency, ⟨t, db₁⟩, ht, db₂, hs, hd⟩ := h
  simp only [createTransaction, bind_eq_ok, Except.ok.injEq, Prod.mk.injEq] at ht
  obtain ⟨d, hdescription, r, hr, rfl, rfl⟩ := ht
  obtain ⟨e, hsource, -, het, rfl, hstored, -, -, rfl⟩ := createEntry_ok hs
  obtain ⟨e', hdestination, -, het', rfl, hstored', -, -, rfl⟩ := createEntry_ok hd
  have hfits : (storeText 255 description).isOk ∧ (storeText 100 "").isOk := ⟨by rw [hdescription]; rfl, rfl⟩
  have hout : entryLines (chartOfAccounts db) owner e.account (-amount) date description "" = some [lineOf e] :=
    entryLines_eq_some.2 ⟨e.amount, hstored, ⟨hos, hsource, hfits.1, hfits.2, e.amount_ne⟩, by rw [lineOf, het]⟩
  have hinto : entryLines (chartOfAccounts db) owner e'.account amount date description "" = some [lineOf e'] :=
    entryLines_eq_some.2 ⟨e'.amount, hstored', ⟨hod, hdestination, hfits.1, hfits.2, e'.amount_ne⟩, by rw [lineOf, het']⟩
  refine ⟨_, e, e', Db.addEntry_addEntry _ _ _ _, ?_⟩
  rw [transferLines, if_neg, hout, hinto]
  · rfl
  · simp only [not_or, not_not]
    exact ⟨hpos, hne, hcurrency⟩

theorem exists_createTransfer {db : Db} {owner source destination : ℕ} {amount : ℚ} {date : Date} {description : String}
    (notes : String)
    (h : (transferLines (chartOfAccounts db) owner source destination amount date description).isSome) :
    ∃ db', createTransfer db owner source destination amount date description notes = .ok db' := by
  unfold transferLines at h
  by_cases hguard : amount ≤ 0 ∨ source = destination ∨
      ((chartOfAccounts db).account source).currency ≠ ((chartOfAccounts db).account destination).currency
  · rw [if_pos hguard] at h
    cases h
  · rw [if_neg hguard] at h
    simp only [not_or, not_not] at hguard
    obtain ⟨hpos, hne, hcurrency⟩ := hguard
    obtain ⟨lines, hlines⟩ := Option.isSome_iff_exists.1 h
    obtain ⟨out, hout, hlines⟩ := Option.bind_eq_some_iff.1 hlines
    obtain ⟨into, hinto, -⟩ := Option.bind_eq_some_iff.1 hlines
    obtain ⟨stored, hstored, ⟨hos, hsource, hdescription, -, hnonzero⟩, -⟩ := entryLines_eq_some.1 hout
    obtain ⟨stored', hstored', ⟨hod, hdestination, -, -, hnonzero'⟩, -⟩ := entryLines_eq_some.1 hinto
    have hown : ¬((db.account source).owner ≠ owner ∨ (db.account destination).owner ≠ owner) :=
      not_or.2 ⟨not_not.2 hos, not_not.2 hod⟩
    have hsame : ¬(db.account source).currency ≠ (db.account destination).currency := not_not.2 hcurrency
    have hblank : (storeText 100 "").isOk := rfl
    obtain ⟨t, ht⟩ := exists_createTransaction db owner date .transfer notes hdescription hblank
    obtain ⟨e, he⟩ := exists_createEntry (db.addTransaction t) t (db.account source).currency none none
      "TRANSFER_OUT" hsource hstored hnonzero
    obtain ⟨e', he'⟩ := exists_createEntry ((db.addTransaction t).addEntry e) t (db.account destination).currency
      none none "TRANSFER_IN" hdestination hstored' hnonzero'
    rw [createTransfer, if_neg hpos, if_neg hne, if_neg hown, if_neg hsame]
    exact ⟨_, bind_eq_ok.2 ⟨_, ht, bind_eq_ok.2 ⟨_, he, he'⟩⟩⟩

theorem createTransfer_writes (owner source destination : ℕ) (amount : ℚ) (date : Date) (description notes : String) :
    WritesLines (fun db => createTransfer db owner source destination amount date description notes)
      (transferLines · owner source destination amount date description) := by
  refine ⟨fun db h => exists_createTransfer notes (by rwa [Option.isSome_map] at h), fun db db' h => ?_⟩
  obtain ⟨t, e, e', rfl, hlines⟩ := transferLines_of_createTransfer h
  exact ⟨rfl, _, congrArg _ hlines, accountBalance_post db t [e, e'] []⟩

theorem mapM_bookBalance (lines : ImportedRow → Option (List Line)) (rows : List ImportedRow) :
    (rows.mapM fun row => (lines row).map bookBalance).map List.sum =
      ((rows.mapM lines).map List.flatten).map bookBalance := by
  induction rows with
  | nil => rfl
  | cons row rows ih =>
    rw [List.mapM_cons, List.mapM_cons]
    cases lines row with
    | none => rfl
    | some l =>
      cases hrest : rows.mapM lines with
      | none =>
        rw [hrest, Option.map_none, Option.map_none, Option.map_eq_none_iff] at ih
        simp [ih]
      | some rest =>
        rw [hrest] at ih
        obtain ⟨balances, hbalances, hsum⟩ := Option.map_eq_some_iff.1 ih
        simp [hbalances, hsum]

theorem importLines_of_guards {c : ChartOfAccounts} {owner account : ℕ} {rows : List ImportedRow}
    (howner : (c.account account).owner = owner)
    (hcurrency : ¬∃ row ∈ rows, row.wrongCurrency (c.currencyCode (c.account account).currency)) :
    (importLines c owner account rows).map bookBalance =
      (rows.mapM fun row => (rowLines c owner account row).map bookBalance).map List.sum := by
  rw [importLines, if_neg (not_or.2 ⟨not_not.2 howner, hcurrency⟩), mapM_bookBalance]

/-- the rows are posted one after the other, all or none -/
theorem createAll_writes (owner account : ℕ) (rows : List ImportedRow) :
    Adds (fun db => rows.foldlM (fun db row => create db owner account row.amount row.transactionType row.transactionDate
      row.description row.notes row.reference) db) chartOfAccounts accountBalance
      fun c => (rows.mapM fun row => (rowLines c owner account row).map bookBalance).map List.sum :=
  .foldlM fun row _ => create_writes owner account row.amount row.transactionType row.transactionDate row.description
    row.notes row.reference

theorem importTransactions_writes (owner account : ℕ) (rows : List ImportedRow) :
    WritesLines (fun db => step db (.importTransactions owner account rows)) (importLines · owner account rows) := by
  refine ⟨fun db h => ?_, fun db db' h => ?_⟩
  · dsimp only at h
    have hguards : (db.account account).owner = owner ∧
        ¬∃ row ∈ rows, row.wrongCurrency (db.currencyCode (db.account account).currency) := by
      by_contra hne
      have hnone : importLines (chartOfAccounts db) owner account rows = none := by
        rw [importLines, if_pos]
        rwa [← not_and_or.trans (or_congr_right not_not)]
      rw [hnone] at h
      cases h
    rw [importLines_of_guards hguards.1 hguards.2] at h
    obtain ⟨db', hdb'⟩ := (createAll_writes owner account rows).accepted db h
    refine ⟨db', bind_eq_ok.2 ⟨(rows.length, db'), ?_, rfl⟩⟩
    rw [importTransactions, if_neg (not_not.2 hguards.1)]
    exact (if_neg hguards.2).trans (bind_eq_ok.2 ⟨db', hdb', rfl⟩)
  · obtain ⟨⟨n, posted⟩, himport, h⟩ := bind_eq_ok.1 h
    cases h
    simp only [importTransactions, ite_error_eq_ok, bind_eq_ok, Except.ok.injEq, Prod.mk.injEq, not_not] at himport
    obtain ⟨howner, hcurrency, _, hrows, rfl, rfl⟩ := himport
    obtain ⟨hframe, m, hm, hbalance⟩ := (createAll_writes owner account rows).adds db _ hrows
    exact ⟨hframe, m, (importLines_of_guards howner hcurrency).trans hm, hbalance⟩

/-! ## Cash requests -/

/-- deposits, withdrawals, transfers and imports -/
def isCash : Op → Prop
  | .createDeposit .. | .createWithdrawal .. | .createTransfer .. | .importTransactions .. => True
  | _ => False

/-- **The ledger refines the book.** A cash request is accepted when the book draws up lines for it, and adds these lines
to the balances. -/
theorem cash_writes {op : Op} (h : isCash op) : WritesLines (step · op) (linesOf · op) := by
  cases op with
  | createDeposit owner account amount date description type notes =>
    exact create_writes owner account amount type date description notes ""
  | createWithdrawal owner account amount date description type notes =>
    exact createWithdrawal_writes owner account amount date description type notes
  | createTransfer owner source destination amount date description notes =>
    exact createTransfer_writes owner source destination amount date description notes
  | importTransactions owner account rows => exact importTransactions_writes owner account rows
  | _ => cases h

/-- the lines that a list of requests writes, one after the other -/
def bookOf (c : ChartOfAccounts) (ops : List Op) : List Line := (ops.filterMap (linesOf c)).flatten

theorem sum_bookOf (c : ChartOfAccounts) (ops : List Op) :
    (ops.map fun op => ((linesOf c op).map bookBalance).getD 0).sum = bookBalance (bookOf c ops) := by
  induction ops with
  | nil => rfl
  | cons op ops ih =>
    rw [List.map_cons, List.sum_cons, ih]
    cases h : linesOf c op with
    | none => rw [bookOf, bookOf, List.filterMap_cons_none h, Option.map_none, Option.getD_none, zero_add]
    | some lines =>
      rw [bookOf, bookOf, List.filterMap_cons_some h, List.flatten_cons, bookBalance_append]
      rfl

/-- **The balances are those of the book.** A cash request is accepted by what the chart of accounts was before all of
them, and every balance moves by the lines of the accepted ones. -/
theorem cash_book (db : Db) {ops : List Op} (hcash : ∀ op ∈ ops, isCash op) :
    accepted step db ops = ops.filter (fun op => (linesOf (chartOfAccounts db) op).isSome) ∧
      ∀ account asOfDate, accountBalance (Machine.run step db ops) account asOfDate =
        accountBalance db account asOfDate + bookBalance (bookOf (chartOfAccounts db) ops) account asOfDate := by
  obtain ⟨-, haccepted, hbalance⟩ := run_adds (fun op hop => cash_writes (hcash op hop)) db
  simp only [Option.isSome_map] at haccepted
  have hbook : accountBalance (Machine.run step db ops) =
      accountBalance db + bookBalance (bookOf (chartOfAccounts db) ops) :=
    hbalance.trans (congrArg _ (sum_bookOf (chartOfAccounts db) ops))
  exact ⟨haccepted, fun account asOfDate => congrFun (congrFun hbook account) asOfDate⟩

/-- two accounts, and what is posted on them: a salary, a transfer, a fee and a transfer that is refused -/
def twoAccounts : List Op := [.createAccount 1 (plainForm .checking 1), .createAccount 1 (plainForm .savings 1)]

def salaryWeek : List Op :=
  [.createDeposit 1 0 100 10 "Salary" .income "", .createTransfer 1 0 1 40 11 "Savings" "",
    .createWithdrawal 1 0 (5 / 2) 12 "Fee" .fee "", .createTransfer 1 0 0 40 11 "Nowhere" ""]

theorem salaryWeek_isCash : ∀ op ∈ salaryWeek, isCash op := by
  simp [salaryWeek, isCash]

theorem cash_book_salaryWeek :
    accepted step (Machine.run step (Db.init (fun _ => "EUR") fun _ => ⟨"ETF", 1, true⟩) twoAccounts) salaryWeek =
        salaryWeek.filter (fun op => (linesOf (chartOfAccounts
          (Machine.run step (Db.init (fun _ => "EUR") fun _ => ⟨"ETF", 1, true⟩) twoAccounts)) op).isSome) ∧
      ∀ account asOfDate, accountBalance (Machine.run step
          (Machine.run step (Db.init (fun _ => "EUR") fun _ => ⟨"ETF", 1, true⟩) twoAccounts) salaryWeek) account asOfDate =
        accountBalance (Machine.run step (Db.init (fun _ => "EUR") fun _ => ⟨"ETF", 1, true⟩) twoAccounts) account asOfDate +
          bookBalance (bookOf (chartOfAccounts
            (Machine.run step (Db.init (fun _ => "EUR") fun _ => ⟨"ETF", 1, true⟩) twoAccounts)) salaryWeek) account asOfDate :=
  cash_book _ salaryWeek_isCash

/-- **Cash requests can come in any order.** The chart of accounts, the requests accepted and every balance are the same. -/
theorem cash_any_order (db : Db) {ops ops' : List Op} (hcash : ∀ op ∈ ops, isCash op) (hperm : ops.Perm ops') :
    chartOfAccounts (Machine.run step db ops) = chartOfAccounts (Machine.run step db ops') ∧
      (accepted step db ops).Perm (accepted step db ops') ∧
        accountBalance (Machine.run step db ops) = accountBalance (Machine.run step db ops') :=
  run_perm (fun op hop => cash_writes (hcash op hop)) hperm db

end Vault67.Ledger
