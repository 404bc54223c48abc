import SourceTidy.Text.Decimal

/-!
# Calendar dates

Dates of the proleptic Gregorian calendar, with a year zero and negative years.
The written form has year, month and day in this order and sorts like the dates
for years of four digits.
-/

namespace SourceTidy
namespace Calendar

structure Date where
  year : Int
  month : Nat
  day : Nat
  deriving DecidableEq, Repr, Inhabited

def firstYear : Int := -262143

def lastYear : Int := 262142

def isLeapYear (year : Int) : Bool :=
  year % 4 == 0 && (year % 100 != 0 || year % 400 == 0)

def daysInMonth (year : Int) (month : Nat) : Nat :=
  if month = 2 then
    if isLeapYear year then 29 else 28
  else if month = 4 ∨ month = 6 ∨ month = 9 ∨ month = 11 then
    30
  else
    31

def Date.Valid (date : Date) : Prop :=
  firstYear ≤ date.year ∧ date.year ≤ lastYear ∧
    1 ≤ date.month ∧ date.month ≤ 12 ∧
    1 ≤ date.day ∧ date.day ≤ daysInMonth date.year date.month

instance (date : Date) : Decidable date.Valid :=
  inferInstanceAs (Decidable (_ ∧ _))

/-- A year has at least four digits, and a sign unless it lies in 0 to 9999. -/
def yearText (year : Int) : Text :=
  let digits := Text.zeroPadded 4 year.natAbs
  if year < 0 then '-' :: digits
  else if 9999 < year then '+' :: digits
  else digits

def writtenFormat : Text := "%Y-%m-%d".toList

def Date.text (date : Date) : Text :=
  yearText date.year ++ '-' :: Text.zeroPadded 2 date.month ++
    '-' :: Text.zeroPadded 2 date.day

end Calendar
end SourceTidy
