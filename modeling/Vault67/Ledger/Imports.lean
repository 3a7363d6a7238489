/-
`ledger/imports.py`: posting the rows of a parsed statement.

`import_transactions` parses the file first and posts after that, so an import is modelled from the rows the parser
returned. Both parsers type a row with `_transaction_type`, from its description and amount; `ImportedRow.typed` says so.
-/
import Mathlib.Tactic
import Vault67.Ledger.Services

namespace Vault67.Ledger

/-- the characters whose case folding contains an ASCII letter; no other character can take part in an ASCII keyword -/
def foldChar (c : Char) : List Char :=
  if 'A' ≤ c ∧ c ≤ 'Z' then [Char.ofNat (c.toNat + 32)]
  else match c.toNat with
    | 0x00DF => ['s', 's']
    | 0x0130 => ['i', Char.ofNat 0x0307]
    | 0x0149 => [Char.ofNat 0x02BC, 'n']
    | 0x017F => ['s']
    | 0x01F0 => ['j', Char.ofNat 0x030C]
    | 0x1E96 => ['h', Char.ofNat 0x0331]
    | 0x1E97 => ['t', Char.ofNat 0x0308]
    | 0x1E98 => ['w', Char.ofNat 0x030A]
    | 0x1E99 => ['y', Char.ofNat 0x030A]
    | 0x1E9A => ['a', Char.ofNat 0x02BE]
    | 0x1E9E => ['s', 's']
    | 0x212A => ['k']
    | 0xFB00 => ['f', 'f']
    | 0xFB01 => ['f', 'i']
    | 0xFB02 => ['f', 'l']
    | 0xFB03 => ['f', 'f', 'i']
    | 0xFB04 => ['f', 'f', 'l']
    | 0xFB05 => ['s', 't']
    | 0xFB06 => ['s', 't']
    | _ => [c]

/-- `str.casefold`, as far as a search for ASCII keywords can tell -/
def casefold (s : String) : List Char := s.toList.flatMap foldChar

/-- `keyword in description` -/
def mentions (description : List Char) (keyword : String) : Prop := keyword.toList <:+: description

instance (description : List Char) (keyword : String) : Decidable (mentions description keyword) :=
  inferInstanceAs (Decidable (_ <:+: _))

/-- `_transaction_type` -/
def transactionTypeOf (description : String) (amount : ℚ) : TransactionType :=
  let folded := casefold description
  if mentions folded "interest" then .interest
  else if mentions folded "tax" then .tax
  else if mentions folded "fee" ∨ mentions folded "charge" then .fee
  else if 0 < amount then .deposit
  else .withdrawal

structure ImportedRow where
  transactionDate : Date
  description : String
  amount : ℚ
  transactionType : TransactionType
  notes : String
  reference : String
  currencyCode : Option String
  typed : transactionType = transactionTypeOf description amount
deriving DecidableEq, Repr

/-- the type of a row follows from what is printed in it -/
theorem ImportedRow.eq_of_fields {row row' : ImportedRow} (hdate : row.transactionDate = row'.transactionDate)
    (hdescription : row.description = row'.description) (hamount : row.amount = row'.amount)
    (hnotes : row.notes = row'.notes) (hreference : row.reference = row'.reference)
    (hcode : row.currencyCode = row'.currencyCode) : row = row' := by
  have htype : row.transactionType = row'.transactionType := by
    rw [row.typed, row'.typed, hdescription, hamount]
  cases row
  cases row'
  simp only [ImportedRow.mk.injEq]
  exact ⟨hdate, hdescription, hamount, htype, hnotes, hreference, hcode⟩

theorem ImportedRow.type_mem (row : ImportedRow) :
    row.transactionType ∈ [TransactionType.interest, .tax, .fee, .deposit, .withdrawal] := by
  rw [row.typed]
  unfold transactionTypeOf
  dsimp only
  split_ifs <;> simp

/-- a row that names a currency other than the account's -/
def ImportedRow.wrongCurrency (code : String) (row : ImportedRow) : Prop :=
  ∃ c ∈ row.currencyCode, c ≠ "" ∧ c ≠ code

instance (code : String) (row : ImportedRow) : Decidable (row.wrongCurrency code) :=
  match h : row.currencyCode with
  | none => .isFalse (by simp [ImportedRow.wrongCurrency, h])
  | some c => decidable_of_iff (c ≠ "" ∧ c ≠ code) (by simp [ImportedRow.wrongCurrency, h])

/-- the number of rows posted, and the new state -/
def importTransactions (db : Db) (owner account : ℕ) (rows : List ImportedRow) : Except Error (ℕ × Db) :=
  if (db.account account).owner ≠ owner then .error (.message (.text "Account does not belong to user."))
  else
    let code := db.currencyCode (db.account account).currency
    if ∃ row ∈ rows, row.wrongCurrency code then
      .error (.importError s!"The statement currency does not match this {code} account.")
    else do
      let db' ← rows.foldlM (fun db row => create db owner account row.amount row.transactionType row.transactionDate
        row.description row.notes row.reference) db
      .ok (rows.length, db')

end Vault67.Ledger
