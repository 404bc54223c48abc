import SourceTidy.Toml.Number

/-!
# Configuration files as a whole

A file is a sequence of statements, one on a line: a header opens a table, and a
key with a value goes into the table opened last.
-/

namespace SourceTidy
namespace Toml

open Reader

/-!
# Values
-/

def boolean : Reader Value :=
  (do word "true".toList; pure (.boolean true))
  <|> (do word "false".toList; pure (.boolean false))

def scalar : Reader Value :=
  (do let text ← string; pure (.string text)) <|> number <|> boolean

/-- The items of an array, given a reader for one of them.  Lines may end and
comments may stand between them, and a comma may follow the last one. -/
def array (item : Reader Value) : Reader Value := do
  char '['
  let items ← repeatUntilNone do
    blanksAndLines
    if (← peek?) = some ']' then
      pure none
    else
      let value ← item
      blanksAndLines
      unless (← peek?) = some ']' do char ','
      pure (some value)
  char ']'
  pure (.array items)

def keyWithValue (value : Reader Value) : Reader ((List Text × Text) × Value) := do
  let key ← dottedKey
  char '='
  blanks
  let value ← value
  pure (key, value)

def inlineTable (value : Reader Value) : Reader Value := do
  char '\x7b'
  let first ← maybe (keyWithValue value)
  blanks
  let others ← match first with
    | none => pure []
    | some _ => many (do char ','; let pair ← keyWithValue value; blanks; pure pair)
  char '\x7d'
  let entries := (first.toList ++ others).foldlM
    (fun entries (((way, key), value) : (List Text × Text) × Value) =>
      Entries.addDotted way key value .inline entries) []
  match entries with
  | some entries => pure (.table .inline entries)
  | none => failure

/-- A value with at most `depth` levels of arrays and tables around values. -/
def value : Nat → Reader Value
  | 0 => scalar
  | depth + 1 => scalar <|> array (value depth) <|> inlineTable (value depth)

/-!
# Statements
-/

inductive Statement where
  | blank
  | openTable (way : List Text) (key : Text)
  | openNextTable (way : List Text) (key : Text)
  | assign (way : List Text) (key : Text) (value : Value)

def statement : Reader Statement := do
  match ← peek? with
  | some '#' => do
      comment
      lineEnd
      pure .blank
  | some '[' =>
      (do
        word ['[', '[']
        let (way, key) ← dottedKey
        word [']', ']']
        restOfLine
        pure (.openNextTable way key))
      <|> (do
        char '['
        let (way, key) ← dottedKey
        char ']'
        restOfLine
        pure (.openTable way key))
  | some '\n' => do
      newline
      pure .blank
  | some '\r' => do
      newline
      pure .blank
  | _ => do
      let ((way, key), value) ← keyWithValue (value (nestingLimit - 1))
      restOfLine
      pure (.assign way key value)

def statements : Reader (List Statement) := repeatUntilNone do
  blanks
  match ← peek? with
  | none => pure none
  | some _ => some <$> statement

/-- What a file has said so far: its table, and the keys that lead to the table
opened last. -/
structure Contents where
  entries : Entries
  opened : List Text

/-- Take a statement into account.  There is no result if it names something
again that it must not. -/
def Contents.add? (contents : Contents) : Statement → Option Contents
  | .blank => some contents
  | .openTable way key =>
      (Entries.openTable way key contents.entries).map fun entries =>
        { entries := entries, opened := way ++ [key] }
  | .openNextTable way key =>
      (Entries.openNextTable way key contents.entries).map fun entries =>
        { entries := entries, opened := way ++ [key] }
  | .assign way key value =>
      (Entries.descend false (Entries.addDotted way key value) contents.opened .header
        contents.entries).map fun entries => { contents with entries := entries }

def parse? (text : Text) : Option Entries := do
  let text := (Text.afterBeginning? ['\uFEFF'] text).getD text
  let (statements, _) ← statements text
  let contents ← statements.foldlM Contents.add? { entries := [], opened := [] }
  pure contents.entries

end Toml
end SourceTidy
