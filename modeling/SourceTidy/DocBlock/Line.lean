import SourceTidy.Calendar.Value
import SourceTidy.DocBlock.KeyTable

/-!
# Lines of a documentation block

A line between the edges of a block is empty, an entry with a key and a value, or
a continuation of the entry before it.  Each of the three has one canonical form.
-/

namespace SourceTidy
namespace DocBlock

inductive Fault where
  | missingBlock
  | unknownKey (key : Text)
  | badDate (value : Text)
  deriving DecidableEq, Repr

def Fault.message : Fault → Text
  | .missingBlock => "documentation block not found".toList
  | .unknownKey key =>
      "unrecognized key `".toList ++ key ++ "` in documentation block".toList
  | .badDate value =>
      "unparseable date `".toList ++ value ++ "` in documentation block".toList

/-!
# Reading a line
-/

/-- A key ends at most this many bytes into the text of a line. -/
def keyLimit : Nat := 16

/-- What a line between the edges holds. -/
inductive Interior where
  | empty
  | continuation (text : Text)
  | entry (key value : Text)
  deriving DecidableEq, Repr

/-- Whether a colon after this text belongs to a web address. -/
def endsInScheme (text : Text) : Bool :=
  "http".toList.isSuffixOf text || "https".toList.isSuffixOf text

/-- The text of a line after its asterisk, which may have one space in front. -/
def withoutAsterisk (line : Text) : Text :=
  match Text.afterBeginning? [' ', '*'] line with
  | some rest => rest
  | none => (Text.afterBeginning? ['*'] line).getD line

def Interior.ofLine (line : Text) : Interior :=
  let text := Text.trim (withoutAsterisk line)
  if text.isEmpty then
    .empty
  else
    match Text.cutBefore? (· == ':') text with
    | some (before, after) =>
        if Text.byteLength before ≤ keyLimit && !endsInScheme before then
          .entry (Text.trim before) (Text.trim (after.drop 1))
        else
          .continuation text
    | none => .continuation text

/-!
# The canonical form of a line
-/

/-- Keys are filled up to this many characters. -/
def keyColumn : Nat := 6

def continuationLead : Text := "*   ".toList

def dateValue (value : Text) : Except Fault Text :=
  match Calendar.canonical? value with
  | some canonical => .ok canonical
  | none => .error (.badDate (Text.trim value))

def entryValue (key value : Text) : Except Fault Text :=
  if key = dateKey then dateValue value else .ok value

def entryLine (key value : Text) : Text :=
  Text.trimEnd ("* ".toList ++ Text.padRight keyColumn key ++ ": ".toList ++ value)

def canonicalLine (keys : KeyTable) (line : Text) : Except Fault Text :=
  match Interior.ofLine line with
  | .empty => .ok ['*']
  | .continuation text => .ok (continuationLead ++ text)
  | .entry key value =>
      match keys.resolve? key with
      | none => .error (.unknownKey key)
      | some canonical =>
          match entryValue canonical value with
          | .error fault => .error fault
          | .ok value => .ok (entryLine canonical value)

end DocBlock
end SourceTidy
