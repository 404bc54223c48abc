import SourceTidy.Calendar.Date
import SourceTidy.Toml.Lexeme
import SourceTidy.Toml.Value

/-!
# Numbers and times

Numbers, dates and times all begin with a digit or a sign.  A date or time is
tried first, then a floating point number, then an integer.
-/

namespace SourceTidy
namespace Toml

open Reader

/-!
# Digits
-/

/-- At least one digit, with single underscores between digits, which are left out. -/
def digitGroups (isDigit : Char → Bool) : Reader Text := do
  let first ← satisfy isDigit
  let others ← many (satisfy isDigit <|> (do char '_'; satisfy isDigit))
  pure (first :: others)

def sign : Reader Bool :=
  (do char '-'; pure true) <|> (do char '+'; pure false) <|> pure false

def decimalDigits : Reader Text := do
  match ← peek? with
  | some '0' => do
      char '0'
      pure ['0']
  | _ => digitGroups Char.isDigit

def valueInBase (base : Nat) (digits : Text) : Nat :=
  digits.foldl (fun n c => base * n + (hexValue? c).getD 0) 0

/-!
# Integers
-/

def inRange (n : Int) : Bool :=
  -9223372036854775808 ≤ n && n ≤ 9223372036854775807

def basedInteger (marker : Char) (base : Nat) : Reader Value := do
  word ['0', marker]
  let digits ← digitGroups fun c => (hexValue? c).any (· < base)
  let n : Int := valueInBase base digits
  guard (inRange n)
  pure (.integer n)

def decimalInteger : Reader Value := do
  let negative ← sign
  let digits ← decimalDigits
  let n : Int := valueInBase 10 digits
  let n := if negative then -n else n
  guard (inRange n)
  pure (.integer n)

def integer : Reader Value :=
  basedInteger 'x' 16 <|> basedInteger 'o' 8 <|> basedInteger 'b' 2 <|> decimalInteger

/-!
# Floating point numbers

Only the range of a positive number matters: one that rounds to infinity in
double precision is refused.
-/

/-- Everything from here on rounds to infinity. -/
def roundsToInfinity : Nat := Nat.pow 2 1024 - Nat.pow 2 970

/-- Whether `n * 10 ^ exponent` rounds to infinity. -/
def isTooLarge (n : Nat) (exponent : Int) : Bool :=
  let magnitude := ((Text.decimal n).length : Int) + exponent
  if n = 0 ∨ magnitude < 300 then false
  else if 320 < magnitude then true
  else if 0 ≤ exponent then roundsToInfinity ≤ n * Nat.pow 10 exponent.toNat
  else roundsToInfinity * Nat.pow 10 (-exponent).toNat ≤ n

def exponent : Reader Int := do
  let _ ← satisfy fun c => c == 'e' || c == 'E'
  let negative ← sign
  let n : Int := valueInBase 10 (← digitGroups Char.isDigit)
  pure (if negative then -n else n)

def fraction : Reader Text := do
  char '.'
  digitGroups Char.isDigit

def floatWithDigits : Reader Value := do
  let negative ← sign
  let whole ← decimalDigits
  let places ← maybe fraction
  let power ← maybe exponent
  guard (places.isSome || power.isSome)
  let places := places.getD []
  let scale := power.getD 0 - places.length
  guard (negative || !isTooLarge (valueInBase 10 (whole ++ places)) scale)
  pure .float

def float : Reader Value :=
  floatWithDigits <|> (do
    let _ ← sign
    word "inf".toList <|> word "nan".toList
    pure .float)

/-!
# Dates and times
-/

def twoDigits (low high : Nat) : Reader Nat := do
  let digits := [← satisfy Char.isDigit, ← satisfy Char.isDigit]
  let n := valueInBase 10 digits
  guard (low ≤ n && n ≤ high)
  pure n

def fullDate : Reader Text := do
  let first ← twoDigits 0 99
  let last ← twoDigits 0 99
  let year := 100 * first + last
  char '-'
  let month ← twoDigits 1 12
  char '-'
  let day ← twoDigits 1 (Calendar.daysInMonth year month)
  pure ({ year := year, month := month, day := day : Calendar.Date }.text)

/-- The part of a second, to at most nine places and without zeros at the end. -/
def secondFraction : Reader Text := do
  char '.'
  let first ← satisfy Char.isDigit
  let others ← takeWhile Char.isDigit
  let places := (((first :: others).take 9).reverse.dropWhile (· == '0')).reverse
  pure (if places.isEmpty then [] else '.' :: places)

def timeOfDay : Reader Text := do
  let hour ← twoDigits 0 23
  char ':'
  let minute ← twoDigits 0 59
  char ':'
  let second ← twoDigits 0 60
  let part ← maybe secondFraction
  pure (Text.zeroPadded 2 hour ++ ':' :: Text.zeroPadded 2 minute ++
    ':' :: Text.zeroPadded 2 second ++ part.getD [])

def offset : Reader Text :=
  (do let _ ← satisfy fun c => c == 'Z' || c == 'z'; pure ['Z']) <|> (do
    let mark ← satisfy fun c => c == '+' || c == '-'
    let hours ← twoDigits 0 23
    char ':'
    let minutes ← twoDigits 0 59
    let mark := if hours = 0 ∧ minutes = 0 then '+' else mark
    pure (mark :: Text.zeroPadded 2 hours ++ ':' :: Text.zeroPadded 2 minutes))

def timeAfterDate : Reader Text := do
  let _ ← satisfy fun c => c == 'T' || c == 't' || c == ' '
  let time ← timeOfDay
  let distance ← maybe offset
  pure ('T' :: time ++ distance.getD [])

def dateTime : Reader Value :=
  (do
    let date ← fullDate
    let time ← maybe timeAfterDate
    pure (.dateTime (date ++ time.getD [])))
  <|> (do
    let time ← timeOfDay
    pure (.dateTime time))

def number : Reader Value :=
  dateTime <|> float <|> integer

end Toml
end SourceTidy
