import SourceTidy.Text.Blank
import SourceTidy.Calendar.Date

/-!
# Date layouts

A layout lists the parts of a written date in order.  Numbers take as many digits
as they can and may have blanks in front of them, and a space in a layout stands
for any number of blanks.  A text has a layout when the parts read all of it and
the date they name exists.
-/

namespace SourceTidy
namespace Calendar

inductive Item where
  /-- The year: up to four digits, or a sign and any number of digits. -/
  | year
  | month
  | day
  /-- The first three letters of a month, and the rest of its name if it follows. -/
  | monthName
  | shortMonthName
  | space
  | mark (c : Char)
  deriving DecidableEq, Repr

abbrev Layout := List Item

/-!
# Names of months
-/

def monthNames : List (Text × Text) :=
  [("jan".toList, "uary".toList), ("feb".toList, "ruary".toList), ("mar".toList, "ch".toList),
   ("apr".toList, "il".toList), ("may".toList, []), ("jun".toList, "e".toList),
   ("jul".toList, "y".toList), ("aug".toList, "ust".toList), ("sep".toList, "tember".toList),
   ("oct".toList, "ober".toList), ("nov".toList, "ember".toList), ("dec".toList, "ember".toList)]

def afterName? : Text → Text → Option Text
  | [], text => some text
  | _ :: _, [] => none
  | m :: name, c :: rest => if c.toLower = m then afterName? name rest else none

/-- Read the first three letters of one of the given months, which are numbered
from `number`.  The rest of the name is handed back as well. -/
def readMonthName? (text : Text) : Nat → List (Text × Text) → Option (Nat × Text × Text)
  | _, [] => none
  | number, (short, long) :: names =>
      match afterName? short text with
      | some rest => some (number, long, rest)
      | none => readMonthName? text (number + 1) names

/-!
# Reading
-/

def readYear? (text : Text) : Option (Int × Text) :=
  match Text.trimStart text with
  | '-' :: rest => (Text.takeDigits? none rest).map fun (n, rest) => (-(n : Int), rest)
  | '+' :: rest => (Text.takeDigits? none rest).map fun (n, rest) => ((n : Int), rest)
  | rest => (Text.takeDigits? (some 4) rest).map fun (n, rest) => ((n : Int), rest)

def Item.read? (date : Date) (text : Text) : Item → Option (Date × Text)
  | .year => (readYear? text).map fun (n, rest) => ({ date with year := n }, rest)
  | .month =>
      (Text.takeDigits? (some 2) (Text.trimStart text)).map fun (n, rest) =>
        ({ date with month := n }, rest)
  | .day =>
      (Text.takeDigits? (some 2) (Text.trimStart text)).map fun (n, rest) =>
        ({ date with day := n }, rest)
  | .monthName =>
      (readMonthName? text 1 monthNames).map fun (n, long, rest) =>
        ({ date with month := n }, (afterName? long rest).getD rest)
  | .shortMonthName =>
      (readMonthName? text 1 monthNames).map fun (n, _, rest) => ({ date with month := n }, rest)
  | .space => some (date, Text.trimStart text)
  | .mark c =>
      match text with
      | [] => none
      | d :: rest => if c = d then some (date, rest) else none

def Layout.readItems? : Layout → Date → Text → Option (Date × Text)
  | [], date, text => some (date, text)
  | item :: items, date, text =>
      match item.read? date text with
      | some (date, rest) => Layout.readItems? items date rest
      | none => none

def Layout.read? (layout : Layout) (text : Text) : Option Date :=
  match layout.readItems? default text with
  | some (date, []) => if date.Valid then some date else none
  | _ => none

/-!
# The accepted layouts

They are tried in this order.  Among the numeric ones the month goes first, so
`03/04/2020` is the fourth of March.
-/

def layouts : List Layout :=
  [[.year, .mark '-', .month, .mark '-', .day],
   [.year, .mark '/', .month, .mark '/', .day],
   [.year, .mark '.', .month, .mark '.', .day],
   [.month, .mark '/', .day, .mark '/', .year],
   [.month, .mark '-', .day, .mark '-', .year],
   [.day, .mark '/', .month, .mark '/', .year],
   [.day, .mark '.', .month, .mark '.', .year],
   [.monthName, .space, .day, .mark ',', .space, .year],
   [.shortMonthName, .space, .day, .mark ',', .space, .year],
   [.monthName, .space, .day, .space, .year],
   [.shortMonthName, .space, .day, .space, .year],
   [.day, .space, .monthName, .space, .year],
   [.day, .space, .shortMonthName, .space, .year],
   [.day, .space, .monthName, .mark ',', .space, .year],
   [.day, .mark '-', .shortMonthName, .mark '-', .year],
   [.year, .space, .monthName, .space, .day],
   [.year, .space, .shortMonthName, .space, .day]]

end Calendar
end SourceTidy
