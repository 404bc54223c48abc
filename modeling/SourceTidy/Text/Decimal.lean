import SourceTidy.Text.Basic

/-!
# Decimal numbers

Counts are written without leading zeros, the parts of a date with a least
number of digits.  Reading takes ASCII digits only.
-/

namespace SourceTidy
namespace Text

def decimal (n : Nat) : Text :=
  Nat.toDigits 10 n

/-- The decimal digits of a number, with zeros in front up to `width` digits. -/
def zeroPadded (width n : Nat) : Text :=
  List.replicate (width - (decimal n).length) '0' ++ decimal n

def digitValue (c : Char) : Nat :=
  c.toNat - '0'.toNat

def decimalValue (digits : Text) : Nat :=
  digits.foldl (fun n c => 10 * n + digitValue c) 0

/-- Read at least one and at most `most` ASCII digits, or any positive number of
them when there is no limit. -/
def takeDigits? (most : Option Nat) (text : Text) : Option (Nat × Text) :=
  let run := text.takeWhile Char.isDigit
  let digits := match most with
    | some k => run.take k
    | none => run
  if digits.isEmpty then none else some (decimalValue digits, text.drop digits.length)

end Text
end SourceTidy
