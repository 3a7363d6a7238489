/-
Dates, messages and exceptions.

A date is its day number (`date.toordinal`). An exception that leaves a service aborts the enclosing database
transaction, so a service returns `Except Error` of the new state. A message with a number or a date in it keeps the
number or the date; `text` is a message with nothing to fill in but names.
-/
import Mathlib.Tactic

namespace Vault67

abbrev Date := ℕ

inductive Message where
  | text (s : String)
  /-- "Insufficient holdings to sell {quantity} shares; current holding is {held}." -/
  | insufficientHoldings (quantity : Option ℚ) (held : ℚ)
  /-- "Historical oversell detected for {symbol}: tried to sell {tried} while holding {held}." -/
  | historicalOversell (symbol : String) (tried held : ℚ)
  /-- "Gross amount must equal quantity × price ({expected})." -/
  | grossMismatch (expected : ℚ)
  /-- "No FX rate available for {source} -> {target} on or before {cutoff}." -/
  | noFxRate (source target : ℕ) (cutoff : Date)
  /-- "Unclassified transaction "{description}" on {date}." -/
  | unclassified (description : String) (date : Date)
  /-- the framework's own message for a number outside (digits, places) -/
  | badDecimal (digits places : ℕ)
  /-- the framework's own message for a value outside its bounds -/
  | outOfBounds
  /-- the framework's own message for a violated check constraint -/
  | constraint (name : String)
deriving DecidableEq, Repr

/-- field errors, as `ValidationError.message_dict`: (field, message) -/
abbrev Errors := List (String × Message)

inductive Error where
  | validation (errors : Errors)
  /-- arithmetic or comparison with None -/
  | typeError
  /-- decimal.InvalidOperation -/
  | decimal
  /-- the database refuses the row: constraint, foreign key or numeric overflow -/
  | database
  /-- Http404 -/
  | notFound
  /-- TransactionImportError -/
  | importError (message : String)
deriving DecidableEq, Repr

/-- the key of errors that belong to no field -/
def nonField : String := "__all__"

/-- `ValidationError(message)` -/
def Error.message (m : Message) : Error := .validation [(nonField, m)]

/-- `exc.messages` -/
def Errors.messages (es : Errors) : List Message := es.map Prod.snd

/-- one (condition, field, message) for each `if condition: errors[field] = message`; a later message for a field
replaces an earlier one -/
def errorsOf (checks : List (Bool × String × Message)) : Errors :=
  checks.foldl (fun es c => if c.1 then es.filter (fun e => e.1 ≠ c.2.1) ++ [c.2] else es) []

theorem errorsOf_eq_nil {checks : List (Bool × String × Message)} :
    errorsOf checks = [] ↔ ∀ c ∈ checks, c.1 = false := by
  have key : ∀ es : Errors, checks.foldl
      (fun es c => if c.1 then es.filter (fun e => e.1 ≠ c.2.1) ++ [c.2] else es) es = [] ↔
        es = [] ∧ ∀ c ∈ checks, c.1 = false := by
    induction checks with
    | nil => simp
    | cons c checks ih =>
      intro es
      rw [List.foldl_cons, ih]
      cases h : c.1 <;> simp [h]
  exact (key []).trans (and_iff_right rfl)

/-- one (condition, field, message) for each `if condition: add_error(field, message)` -/
def raised (checks : List (Bool × String × Message)) : Errors :=
  checks.filterMap fun c => if c.1 then some c.2 else none

theorem raised_eq_nil {checks : List (Bool × String × Message)} :
    raised checks = [] ↔ ∀ c ∈ checks, c.1 = false := by
  simp [raised, List.filterMap_eq_nil_iff]

/-- what a varchar column of the given length keeps: blanks past the end are cut off, anything else is refused -/
def storeText (length : ℕ) (s : String) : Except Error String :=
  if s.length ≤ length then .ok s
  else if (s.toList.drop length).all (· = ' ') then .ok (String.ofList (s.toList.take length))
  else .error .database

/-- reading a nullable value where a number is needed -/
def notNone {α : Type} : Option α → Except Error α
  | some a => .ok a
  | none => .error .typeError

@[simp] theorem notNone_eq_ok {α : Type} {x : Option α} {a : α} : notNone x = .ok a ↔ x = some a := by
  cases x <;> simp [notNone]

end Vault67
