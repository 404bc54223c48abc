import SourceTidy.Text.Basic

/-!
# Readers

A reader takes something off the front of a text or fails.  A failed reader
leaves the text as it was, so another one can be tried in its place.
-/

namespace SourceTidy
namespace Toml

/-- Take a value off the front of a text, or fail. -/
abbrev Reader := StateT Text Option

namespace Reader

def next : Reader Char := fun text =>
  match text with
  | [] => none
  | c :: rest => some (c, rest)

def peek? : Reader (Option Char) := fun text => some (text.head?, text)

def satisfy (p : Char → Bool) : Reader Char := do
  let c ← next
  guard (p c)
  pure c

def char (c : Char) : Reader Unit := do
  let _ ← satisfy (· == c)

def word (marker : Text) : Reader Unit := fun text =>
  (Text.afterBeginning? marker text).map fun rest => ((), rest)

def takeWhile (p : Char → Bool) : Reader Text := fun text =>
  some (text.takeWhile p, text.dropWhile p)

def atEnd : Reader Unit := fun text =>
  if text.isEmpty then some ((), text) else none

def maybe (reader : Reader α) : Reader (Option α) :=
  (some <$> reader) <|> pure none

/-- Repeat a step until it says that there is nothing more, at most once more than
`bound` has characters.  The results so far are given with the last one first. -/
def repeatWithin (step : Reader (Option α)) : Text → List α → Reader (List α)
  | bound, results, text =>
      match step text with
      | none => none
      | some (none, rest) => some (results.reverse, rest)
      | some (some a, rest) =>
          match bound with
          | [] => none
          | _ :: bound => repeatWithin step bound (a :: results) rest

/-- Repeat a step until it says that there is nothing more.  Every step that goes
on takes at least one character, so the text itself bounds their number. -/
def repeatUntilNone (step : Reader (Option α)) : Reader (List α) := fun text =>
  repeatWithin step text [] text

def many (reader : Reader α) : Reader (List α) :=
  repeatUntilNone (maybe reader)

end Reader
end Toml
end SourceTidy
