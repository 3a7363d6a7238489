/-
Dates of the proleptic Gregorian calendar, as Python's `datetime.date`: a `CivilDate` exists only for a day that does.

- `CivilDate.of?`: `date(year, month, day)`, none when it raises ValueError;
- `ordinal`: `date.toordinal`;
- `fromIsoFormat`: `date.fromisoformat`, calendar dates and week dates;
- `isoFormat`: `date.isoformat`.
-/
import Mathlib.Tactic

namespace Vault67

def isLeap (year : ℕ) : Bool := year % 4 = 0 ∧ (year % 100 ≠ 0 ∨ year % 400 = 0)

def daysInMonth (year month : ℕ) : ℕ :=
  if month = 2 then if isLeap year then 29 else 28
  else if month ∈ [4, 6, 9, 11] then 30 else 31

def daysBeforeYear (year : ℕ) : ℕ := (year - 1) * 365 + (year - 1) / 4 - (year - 1) / 100 + (year - 1) / 400

def daysBeforeMonth (year month : ℕ) : ℕ := ((List.range' 1 (month - 1)).map (daysInMonth year)).sum

structure CivilDate where
  year : ℕ
  month : ℕ
  day : ℕ
  year_range : 1 ≤ year ∧ year ≤ 9999
  month_range : 1 ≤ month ∧ month ≤ 12
  day_range : 1 ≤ day ∧ day ≤ daysInMonth year month
deriving DecidableEq, Repr

namespace CivilDate

/-- `date(year, month, day)`, for numbers of any size -/
def of? (year month day : ℤ) : Option CivilDate :=
  if hy : 1 ≤ year.toNat ∧ year.toNat ≤ 9999 then
    if hm : 1 ≤ month.toNat ∧ month.toNat ≤ 12 then
      if hd : 1 ≤ day.toNat ∧ day.toNat ≤ daysInMonth year.toNat month.toNat then
        some ⟨year.toNat, month.toNat, day.toNat, hy, hm, hd⟩
      else none
    else none
  else none

/-- `date.toordinal` -/
def ordinal (d : CivilDate) : ℕ := daysBeforeYear d.year + daysBeforeMonth d.year d.month + d.day

/-- the day with the given number, in one of the given years -/
def ofOrdinal (years : List ℕ) (n : ℤ) : Option CivilDate :=
  years.findSome? fun year : ℕ => (List.range' 1 12).findSome? fun month : ℕ =>
    of? year month (n - daysBeforeYear year - daysBeforeMonth year month)

/-- the weekday of the first of January, Monday being 0 -/
def firstWeekday (year : ℕ) : ℕ := (daysBeforeYear year + 7) % 7

/-- the day number of the Monday of week 1, the week with the first Thursday -/
def week1Monday (year : ℕ) : ℤ :=
  daysBeforeYear year + 1 - firstWeekday year + if 3 < firstWeekday year then 7 else 0

/-- week 53 exists in a year that begins on a Thursday, or on a Wednesday and is a leap year -/
def isLong (year : ℕ) : Bool := firstWeekday year = 3 ∨ (firstWeekday year = 2 ∧ isLeap year)

/-- the day of a week, both counted from 1 -/
def ofWeek (year week day : ℕ) : Option CivilDate :=
  if 1 ≤ year ∧ 1 ≤ week ∧ (week ≤ 52 ∨ (week = 53 ∧ isLong year)) ∧ 1 ≤ day ∧ day ≤ 7 then
    ofOrdinal [year - 1, year, year + 1] (week1Monday year + (week - 1 : ℕ) * 7 + (day - 1 : ℕ))
  else none

/-! ## Text -/

/-- the number that the next n characters write, all of them ASCII digits, and the rest -/
def digits (n : ℕ) (cs : List Char) : Option (ℕ × List Char) :=
  if n ≤ cs.length ∧ (cs.take n).all Char.isDigit then
    some ((cs.take n).foldl (fun v c => 10 * v + (c.toNat - 48)) 0, cs.drop n)
  else none

/-- the rest after a hyphen, where the date is written with hyphens -/
def separator (separated : Bool) (cs : List Char) : Option (List Char) :=
  if separated then if cs.head? = some '-' then some cs.tail else none else some cs

/-- `date.fromisoformat`, none when it raises; what follows the day is not read -/
def fromIsoFormat (cs : List Char) : Option CivilDate :=
  if (cs.map Char.utf8Size).sum ∈ [7, 8, 10] then do
    let (year, rest) ← digits 4 cs
    let separated : Bool := rest.head? = some '-'
    let rest := if separated then rest.tail else rest
    match rest with
    | 'W' :: rest =>
      let (week, rest) ← digits 2 rest
      if rest = [] then ofWeek year week 1
      else do
        let rest ← separator separated rest
        let (day, _) ← digits 1 rest
        ofWeek year week day
    | rest =>
      let (month, rest) ← digits 2 rest
      let rest ← separator separated rest
      let (day, _) ← digits 2 rest
      of? year month day
  else none

/-- a number with leading zeros -/
def padded (width n : ℕ) : List Char := (Nat.toDigits 10 (10 ^ width + n)).tail

/-- `date.isoformat` -/
def isoFormat (d : CivilDate) : List Char := padded 4 d.year ++ '-' :: padded 2 d.month ++ '-' :: padded 2 d.day

example : (fromIsoFormat "2026-W01-1".toList).map isoFormat = some "2025-12-29".toList := by decide +kernel

end CivilDate

end Vault67
