/-
The services as sessions on the database: their checks, queries and statements in the order of the source, and their
`atomic` blocks. A service may write rows and be refused after that; the block takes the rows back.

- `createSession_performs`, …, `deleteAccountSession_allOrNothing`: each session is all or nothing, and does what the
  service's function says.
- `session_performs`: so is every request, and serving requests is running the machine of `System`.
-/
import Mathlib.Tactic
import Vault67.Lib.Session
import Vault67.System

namespace Vault67

open Fallible Investments Ledger Machine Session

/-! ## `ledger/services.py` -/

/-- `_create` -/
def createSession (owner account : ℕ) (amount : ℚ) (transactionType : TransactionType) (date : Date)
    (description notes reference : String) : Session Db Error Unit := do
  raiseIf (fun _ => amount = 0) fun _ => .message (.text "Amount must not be zero.")
  raiseIf (fun db => (db.account account).owner ≠ owner) fun _ => .message (.text "Account does not belong to user.")
  let row ← query fun db => .ok (db.account account)
  atomic do
    let t ← statement fun db => createTransaction db owner date description transactionType reference notes
    write fun db => createEntry db t account amount row.currency none none (TransactionType.value transactionType)

theorem createSession_performs (owner account : ℕ) (amount : ℚ) (transactionType : TransactionType) (date : Date)
    (description notes reference : String) :
    Performs (createSession owner account amount transactionType date description notes reference) fun db =>
      create db owner account amount transactionType date description notes reference := by
  refine AllOrNothing.congr (.raiseIf_bind (.raiseIf_bind (.query_bind fun row => Does.atomic
    (Does.bind (allOrNothing_statement _).does fun t => (allOrNothing_statement _).does)))) fun db => ?_
  dsimp only [create]
  split_ifs
  · rfl
  · rfl
  · cases createTransaction db owner date description transactionType reference notes <;>
      simp [Bind.bind, Except.bind, Except.map]

/-- `create_withdrawal` -/
def createWithdrawalSession (owner account : ℕ) (amount : ℚ) (date : Date) (description : String)
    (transactionType : TransactionType) (notes : String) : Session Db Error Unit := do
  raiseIf (fun _ => ¬0 < amount) fun _ => .message (.text "Amount must be positive.")
  createSession owner account (-amount) transactionType date description notes ""

theorem createWithdrawalSession_performs (owner account : ℕ) (amount : ℚ) (date : Date) (description : String)
    (transactionType : TransactionType) (notes : String) :
    Performs (createWithdrawalSession owner account amount date description transactionType notes) fun db =>
      createWithdrawal db owner account amount date description transactionType notes := by
  apply AllOrNothing.congr (.raiseIf_bind (createSession_performs _ _ _ _ _ _ _ _))
  intro db
  dsimp only [createWithdrawal]
  split_ifs <;> rfl

/-- `create_transfer` -/
def createTransferSession (owner source destination : ℕ) (amount : ℚ) (date : Date) (description notes : String) :
    Session Db Error Unit := do
  raiseIf (fun _ => amount ≤ 0) fun _ => .message (.text "Amount must be positive.")
  raiseIf (fun _ => source = destination) fun _ => .message (.text "Source and destination must differ.")
  raiseIf (fun db => (db.account source).owner ≠ owner ∨ (db.account destination).owner ≠ owner) fun _ =>
    .message (.text "Accounts must belong to user.")
  raiseIf (fun db => (db.account source).currency ≠ (db.account destination).currency) fun _ =>
    .message (.text "Cross-currency transfers need an explicit FX rate.")
  let outgoing ← query fun db => .ok (db.account source)
  let incoming ← query fun db => .ok (db.account destination)
  atomic do
    let t ← statement fun db => createTransaction db owner date description .transfer "" notes
    write fun db => createEntry db t source (-amount) outgoing.currency none none "TRANSFER_OUT"
    write fun db => createEntry db t destination amount incoming.currency none none "TRANSFER_IN"

theorem createTransferSession_performs (owner source destination : ℕ) (amount : ℚ) (date : Date)
    (description notes : String) :
    Performs (createTransferSession owner source destination amount date description notes) fun db =>
      createTransfer db owner source destination amount date description notes := by
  refine AllOrNothing.congr (.raiseIf_bind (.raiseIf_bind (.raiseIf_bind (.raiseIf_bind (.query_bind fun outgoing =>
    .query_bind fun incoming => Does.atomic (Does.bind (allOrNothing_statement _).does fun t =>
      Does.bind (allOrNothing_statement _).does fun _ => (allOrNothing_statement _).does)))))) fun db => ?_
  dsimp only [createTransfer]
  split_ifs
  · rfl
  · rfl
  · rfl
  · rfl
  · cases createTransaction db owner date description .transfer "" notes with
    | error e => rfl
    | ok p =>
      cases h : createEntry p.2 p.1 source (-amount) (db.account source).currency none none "TRANSFER_OUT" <;>
        simp [h, Bind.bind, Except.bind, Except.map]

/-- `entries.delete()` -/
def deleteEntries (db : Db) (ids : List ℕ) : Db :=
  { db with entries := db.entries.filter fun e => e.transaction.pk ∉ ids }

/-- `Transaction.objects.filter(pk__in=ids).delete()`; a detail protects its transaction -/
def deleteTransactions (db : Db) (ids : List ℕ) : Except Error Db :=
  if ∃ i ∈ db.investments, i.transaction.pk ∈ ids then .error .database
  else .ok { db with transactions := db.transactions.filter fun t => t.pk ∉ ids }

/-- `delete_transaction` -/
def deleteTransactionSession (owner : ℕ) (t : Transaction) : Session Db Error Unit := do
  raiseIf (fun _ => t.owner ≠ owner) fun _ => .message (.text "Transaction does not belong to user.")
  raiseIf (fun db => db.hasInvestmentDetail t) fun _ =>
    .message (.text "Investment transactions are immutable. Record a correcting transaction instead.")
  atomic do
    write fun db => .ok (deleteEntries db [t.pk])
    write fun db => deleteTransactions db [t.pk]

theorem deleteTransactionSession_performs (owner : ℕ) (t : Transaction) :
    Performs (deleteTransactionSession owner t) fun db => deleteTransaction db owner t := by
  refine AllOrNothing.congr (.raiseIf_bind (.raiseIf_bind (Does.atomic (Does.bind (allOrNothing_statement _).does
    fun _ => (allOrNothing_statement _).does)))) fun db => ?_
  dsimp only [deleteTransaction]
  split_ifs with howner hdetail
  · rfl
  · rfl
  · have hfree : ¬∃ i ∈ (deleteEntries db [t.pk]).investments, i.transaction.pk ∈ [t.pk] := by
      intro h
      obtain ⟨i, hi, hk⟩ := h
      exact hdetail ⟨i, hi, List.mem_singleton.1 hk⟩
    simp only [Except.map, Bind.bind, Except.bind, deleteTransactions, if_neg hfree]
    rfl

/-- `delete_account_transactions`; entries go before a protected transaction is found -/
def deleteAccountSession (owner account : ℕ) : Session Db Error ℕ := do
  raiseIf (fun db => (db.account account).owner ≠ owner) fun _ =>
    .message (.text "Account does not belong to user.")
  raiseIf (fun db => ∃ i ∈ db.investments, i.account = account) fun _ =>
    .message (.text "Investment transactions are immutable and cannot be bulk deleted.")
  atomic do
    let ts ← query fun db => .ok (accountTransactions db owner account)
    if ts = [] then pure 0
    else do
      write fun db => .ok (deleteEntries db (ts.map Transaction.pk))
      write fun db => deleteTransactions db (ts.map Transaction.pk)
      pure ts.length

theorem deleteAccountSession_allOrNothing (owner account : ℕ) :
    AllOrNothing (deleteAccountSession owner account) fun db => deleteAccountTransactions db owner account := by
  have hdelete : ∀ ts : List Transaction, Does (if ts = [] then pure 0 else do
      write fun db => .ok (deleteEntries db (ts.map Transaction.pk))
      write fun db => deleteTransactions db (ts.map Transaction.pk)
      pure ts.length : Session Db Error ℕ) fun db => if ts = [] then .ok (0, db)
        else (deleteTransactions (deleteEntries db (ts.map Transaction.pk)) (ts.map Transaction.pk)).map
          (ts.length, ·) := by
    intro ts db
    by_cases hts : ts = []
    · simp only [if_pos hts]
      rfl
    · simp only [if_neg hts]
      have h := Does.bind (allOrNothing_statement fun db => (Except.ok (deleteEntries db (ts.map Transaction.pk)) :
        Except Error Db).map ((), ·)).does fun _ => ((allOrNothing_statement fun db =>
        (deleteTransactions db (ts.map Transaction.pk)).map ((), ·)).map fun _ => ts.length).does
      have hdb := h db
      revert hdb
      cases hd : deleteTransactions (deleteEntries db (ts.map Transaction.pk)) (ts.map Transaction.pk) <;>
        simp only [Except.map, Bind.bind, Except.bind, hd] <;> exact fun h => h
  refine AllOrNothing.congr (.raiseIf_bind (.raiseIf_bind (Does.atomic (Does.bind (allOrNothing_query _).does
    hdelete)))) fun db => ?_
  dsimp only [deleteAccountTransactions]
  split_ifs with howner haccount hnil hdetail
  · rfl
  · rfl
  · simp only [Except.map, Bind.bind, Except.bind, if_pos hnil]
  · have hprotected : ∃ i ∈ (deleteEntries db ((accountTransactions db owner account).map Transaction.pk)).investments,
        i.transaction.pk ∈ (accountTransactions db owner account).map Transaction.pk := by
      obtain ⟨t, ht, i, hi, hk⟩ := hdetail
      exact ⟨i, hi, hk ▸ List.mem_map_of_mem ht⟩
    simp only [Except.map, Bind.bind, Except.bind, if_neg hnil, deleteTransactions, if_pos hprotected]
  · have hfree : ¬∃ i ∈ (deleteEntries db ((accountTransactions db owner account).map Transaction.pk)).investments,
        i.transaction.pk ∈ (accountTransactions db owner account).map Transaction.pk := by
      intro h
      obtain ⟨i, hi, hk⟩ := h
      obtain ⟨t, ht, htk⟩ := List.mem_map.1 hk
      exact hdetail ⟨t, ht, i, hi, htk.symm⟩
    simp only [Except.map, Bind.bind, Except.bind, if_neg hnil, deleteTransactions, if_neg hfree]
    rfl

/-! ## Imports and postings -/

/-- `import_transactions`, once the file is parsed -/
def importSession (owner account : ℕ) (rows : List ImportedRow) : Session Db Error ℕ := do
  raiseIf (fun db => (db.account account).owner ≠ owner) fun _ =>
    .message (.text "Account does not belong to user.")
  raiseIf (fun db => ∃ row ∈ rows, row.wrongCurrency (db.currencyCode (db.account account).currency)) fun db =>
    let code := db.currencyCode (db.account account).currency
    .importError s!"The statement currency does not match this {code} account."
  let _ ← atomic (ForM.forM rows fun row => createSession owner account row.amount row.transactionType
    row.transactionDate row.description row.notes row.reference)
  pure rows.length

theorem importSession_allOrNothing (owner account : ℕ) (rows : List ImportedRow) :
    AllOrNothing (importSession owner account rows) fun db => importTransactions db owner account rows := by
  refine AllOrNothing.congr (.raiseIf_bind (.raiseIf_bind (AllOrNothing.map (Does.atomic (Does.forM
    (fun row : ImportedRow => createSession_performs owner account row.amount row.transactionType row.transactionDate
      row.description row.notes row.reference) rows)) fun _ => rows.length))) fun db => ?_
  dsimp only [importTransactions]
  split_ifs
  · rfl
  · rfl
  · cases rows.foldlM (fun db row => create db owner account row.amount row.transactionType row.transactionDate
      row.description row.notes row.reference) db <;> simp [Except.map, Bind.bind, Except.bind]

/-- `create_investment_transaction`: the transaction and the detail are written before the cash impact is known -/
def postingSession (p : InvestmentPosting) : Session Db Error Unit := do
  raiseIf (fun db => (db.account p.account).owner ≠ p.owner) fun _ =>
    .message (.text "Account does not belong to user.")
  raiseIf (fun db => (db.account p.account).accountType ≠ .brokerage) fun _ =>
    .message (.text "Investment transactions require a brokerage account.")
  raiseIf (fun _ => ¬supported p.transactionType) fun _ =>
    .message (.text "Unsupported investment transaction type.")
  let row ← query fun db => .ok (db.account p.account)
  let security ← query fun db => .ok (db.security p.security)
  let name := title p.transactionType
  let symbol := security.symbol
  atomic do
    query fun db => checkHolding db p
    let t ← statement fun db =>
      createTransaction db p.owner p.tradeDate s!"{name} {symbol}" p.transactionType p.reference p.notes
    let detail ← query fun db => fullClean db (p.draft t)
    write fun db => .ok (db.addInvestment detail)
    let rate ← query fun _ => notNone (if p.currency = row.currency then some 1 else p.exchangeRate)
    let cashAmount ← query fun _ => quantize (detail.netCashImpactNative * rate)
    raiseIf (fun _ => cashAmount = 0) fun _ => .message (.text "Net cash impact must not be zero.")
    write fun db => createEntry db t p.account cashAmount row.currency (some rate) (some cashAmount)
      (TransactionType.value p.transactionType)

theorem postingSession_performs (p : InvestmentPosting) :
    Performs (postingSession p) fun db => createInvestmentTransaction db p := by
  refine AllOrNothing.congr (.raiseIf_bind (.raiseIf_bind (.raiseIf_bind (.query_bind fun row => .query_bind
    fun security => Does.atomic (Does.bind (allOrNothing_query _).does fun _ => Does.bind (allOrNothing_statement _).does
      fun t => Does.bind (allOrNothing_query _).does fun detail => Does.bind (allOrNothing_statement _).does fun _ =>
        Does.bind (allOrNothing_query _).does fun rate => Does.bind (allOrNothing_query _).does fun cashAmount =>
          (AllOrNothing.raiseIf_bind (allOrNothing_statement _)).does))))) fun db => ?_
  dsimp only [createInvestmentTransaction]
  by_cases howner : (db.account p.account).owner ≠ p.owner
  · rw [if_pos howner, if_pos howner]
    rfl
  by_cases htype : (db.account p.account).accountType ≠ .brokerage
  · rw [if_neg howner, if_neg howner, if_pos htype, if_pos htype]
    rfl
  by_cases hsupported : ¬supported p.transactionType
  · rw [if_neg howner, if_neg howner, if_neg htype, if_neg htype, if_pos hsupported, if_pos hsupported]
    rfl
  rw [if_neg howner, if_neg howner, if_neg htype, if_neg htype, if_neg hsupported, if_neg hsupported]
  simp only [Bind.bind, Except.bind, Except.map]
  cases checkHolding db p with
  | error e => rfl
  | ok _ =>
    dsimp only
    cases createTransaction db p.owner p.tradeDate _ p.transactionType p.reference p.notes with
    | error e => rfl
    | ok written =>
      dsimp only
      cases fullClean written.2 (p.draft written.1) with
      | error e => rfl
      | ok detail =>
        dsimp only
        cases notNone (if p.currency = (db.account p.account).currency then some 1 else p.exchangeRate) with
        | error e => rfl
        | ok rate =>
          dsimp only
          cases quantize (detail.netCashImpactNative * rate) with
          | error e => rfl
          | ok cashAmount =>
            dsimp only
            split_ifs <;> rfl

/-! ## Requests -/

/-- the session of a request; the requests on accounts are one statement each -/
def session : Op → Session Db Error Unit
  | .createDeposit owner account amount date description type notes =>
    createSession owner account amount type date description notes ""
  | .createWithdrawal owner account amount date description type notes =>
    createWithdrawalSession owner account amount date description type notes
  | .createTransfer owner source destination amount date description notes =>
    createTransferSession owner source destination amount date description notes
  | .importTransactions owner account rows => do
    let _ ← importSession owner account rows
    pure ()
  | .createInvestmentTransaction p => postingSession p
  | .deleteTransaction owner pk => do
    let t ← query fun db => getTransaction db owner pk
    deleteTransactionSession owner t
  | .deleteAccountTransactions owner account => do
    let _ ← deleteAccountSession owner account
    pure ()
  | op => write fun db => step db op

/-- **Every request is all or nothing.** Its statements, one after the other, write what the step writes, or raise and
leave the database as it was. -/
theorem session_performs (op : Op) : Performs (session op) (step · op) := by
  cases op with
  | createDeposit owner account amount date description type notes => exact createSession_performs _ _ _ _ _ _ _ _
  | createWithdrawal owner account amount date description type notes =>
    exact createWithdrawalSession_performs _ _ _ _ _ _ _
  | createTransfer owner source destination amount date description notes =>
    exact createTransferSession_performs _ _ _ _ _ _ _
  | importTransactions owner account rows =>
    apply AllOrNothing.congr ((importSession_allOrNothing owner account rows).map fun _ => ())
    intro db
    cases h : importTransactions db owner account rows <;> simp [step, h, Except.map, Bind.bind, Except.bind]
  | createInvestmentTransaction p => exact postingSession_performs p
  | deleteTransaction owner pk =>
    apply AllOrNothing.congr (.query_bind fun t => deleteTransactionSession_performs owner t)
    intro db
    cases h : getTransaction db owner pk <;> simp [step, h, Except.map, Bind.bind, Except.bind]
  | deleteAccountTransactions owner account =>
    apply AllOrNothing.congr ((deleteAccountSession_allOrNothing owner account).map fun _ => ())
    intro db
    cases h : deleteAccountTransactions db owner account <;> simp [step, h, Except.map, Bind.bind, Except.bind]
  | createAccount user data => exact allOrNothing_statement _
  | updateAccount user account data => exact allOrNothing_statement _
  | archiveAccount user account => exact allOrNothing_statement _

/-- a request that raises leaves the database as it was -/
theorem session_error {db : Db} {op : Op} {e : Error} (h : ((session op).exec db).1 = .error e) :
    ((session op).exec db).2 = db := (session_performs op).of_error h

theorem serve_session (db : Db) (ops : List Op) : serve session db ops = run step db ops :=
  serve_eq_run session_performs db ops

end Vault67
