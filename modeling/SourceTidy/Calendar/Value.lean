import SourceTidy.Calendar.Cleaning
import SourceTidy.Calendar.Layout

/-!
# Date values

The value of a date entry is a date in one of the accepted layouts, optionally
followed by a note in parentheses.  The canonical value has the date in its
written form, unless that would take more room than the text it replaces, and the
note one space after it.
-/

namespace SourceTidy
namespace Calendar

def readDate? (text : Text) : Option Date :=
  let cleaned := clean text
  if cleaned.isEmpty then none else layouts.findSome? fun layout => layout.read? cleaned

structure Value where
  date : Text
  note : Option Text
  deriving DecidableEq, Repr

/-- Cut a trimmed value before its first opening parenthesis. -/
def Value.ofText (value : Text) : Value :=
  match Text.cutBefore? (· == '(') value with
  | some (before, note) => { date := Text.trim before, note := some (Text.trimEnd note) }
  | none => { date := value, note := none }

def Value.text (value : Value) : Text :=
  match value.note with
  | some note => value.date ++ ' ' :: note
  | none => value.date

/-- The written form of a date, unless the text in hand is shorter. -/
def shorterText (date : Date) (text : Text) : Text :=
  if Text.byteLength date.text ≤ Text.byteLength text then date.text else text

def canonical? (text : Text) : Option Text :=
  let value := Value.ofText (Text.trim text)
  (readDate? value.date).map fun date =>
    { value with date := shorterText date value.date }.text

end Calendar
end SourceTidy
