import SourceTidy.Toml.Reader

/-!
# Blanks, comments, keys and strings

The smallest pieces of a configuration file.  Blanks are spaces and tabs only, and
control characters are allowed nowhere.
-/

namespace SourceTidy
namespace Toml

open Reader

/-!
# Blanks and comments
-/

def isSpaceOrTab (c : Char) : Bool :=
  c == ' ' || c == '\t'

/-- The characters that a comment or a string may hold: no control characters but
the tab. -/
def isPlain (c : Char) : Bool :=
  c == '\t' || (0x20 ≤ c.toNat && c.toNat ≤ 0x7E) || 0x80 ≤ c.toNat

def blanks : Reader Unit := do
  let _ ← takeWhile isSpaceOrTab

def newline : Reader Unit :=
  char '\n' <|> word ['\r', '\n']

def comment : Reader Unit := do
  char '#'
  let _ ← takeWhile isPlain

def lineEnd : Reader Unit :=
  newline <|> atEnd

def restOfLine : Reader Unit := do
  blanks
  let _ ← maybe comment
  lineEnd

def blanksAndLines : Reader Unit := do
  let _ ← many ((do let _ ← satisfy isSpaceOrTab) <|> newline <|> (do comment; newline))

/-!
# Strings on one line
-/

def hexValue? (c : Char) : Option Nat :=
  if c.isDigit then some (c.toNat - '0'.toNat)
  else if 'a'.toNat ≤ c.toNat && c.toNat ≤ 'f'.toNat then some (c.toNat - 'a'.toNat + 10)
  else if 'A'.toNat ≤ c.toNat && c.toNat ≤ 'F'.toNat then some (c.toNat - 'A'.toNat + 10)
  else none

/-- A character by its code point in exactly `digits` hexadecimal digits. -/
def codePoint : Nat → Nat → Reader Char
  | 0, n => if n.isValidChar then pure (Char.ofNat n) else failure
  | digits + 1, n => do
      match hexValue? (← next) with
      | some d => codePoint digits (16 * n + d)
      | none => failure

def escaped : Reader Char := do
  match ← next with
  | 'b' => pure '\x08'
  | 't' => pure '\t'
  | 'n' => pure '\n'
  | 'f' => pure '\x0c'
  | 'r' => pure '\r'
  | '"' => pure '"'
  | '\\' => pure '\\'
  | 'u' => codePoint 4 0
  | 'U' => codePoint 8 0
  | _ => failure

def basicString : Reader Text := do
  char '"'
  repeatUntilNone do
    match ← next with
    | '"' => pure none
    | '\\' => some <$> escaped
    | c => if isPlain c then pure (some c) else failure

def literalString : Reader Text := do
  char '\''
  let text ← takeWhile fun c => isPlain c && c != '\''
  char '\''
  pure text

/-!
# Strings over several lines

They stand between three quotes.  A line end right after the opening quotes does
not count, and all others count as line feeds.  Up to two quotes may stand
anywhere in the string, also right before the closing ones.
-/

/-- A line end in a string. -/
def stringNewline : Reader Text := do
  newline
  pure ['\n']

/-- One or two quotes that do not close the string. -/
def innerQuotes (quote : Char) : Reader Text := fun text =>
  let run := text.takeWhile (· == quote)
  if run.length = 1 ∨ run.length = 2 then some (run, text.drop run.length) else none

/-- The closing quotes, after up to two that belong to the string. -/
def closingQuotes (quote : Char) : Reader Text := fun text =>
  let run := text.takeWhile (· == quote)
  if 3 ≤ run.length ∧ run.length ≤ 5 then
    some (run.drop 3, text.drop run.length)
  else
    none

/-- A backslash at the end of a line, which takes the line end and all blanks
after it out of the string. -/
def joinedLines : Reader Text := do
  char '\\'
  blanks
  newline
  let _ ← many ((do let _ ← satisfy isSpaceOrTab) <|> newline)
  pure []

def multilineBody (quote : Char) (piece : Reader Text) : Reader Text := do
  let _ ← maybe newline
  let pieces ← many (piece <|> stringNewline <|> innerQuotes quote)
  let last ← closingQuotes quote
  pure (pieces.flatten ++ last)

def multilineBasicString : Reader Text := do
  word ['"', '"', '"']
  multilineBody '"'
    ((do let c ← satisfy fun c => isPlain c && c != '"' && c != '\\'; pure [c])
      <|> joinedLines
      <|> (do char '\\'; let c ← escaped; pure [c]))

def multilineLiteralString : Reader Text := do
  word ['\'', '\'', '\'']
  multilineBody '\'' (do let c ← satisfy fun c => isPlain c && c != '\''; pure [c])

def string : Reader Text :=
  multilineBasicString <|> basicString <|> multilineLiteralString <|> literalString

/-!
# Keys
-/

def isKeyChar (c : Char) : Bool :=
  c.isAlphanum || c == '_' || c == '-'

def bareKey : Reader Text := do
  let key ← takeWhile isKeyChar
  guard (!key.isEmpty)
  pure key

def keyPart : Reader Text := do
  blanks
  let key ← basicString <|> literalString <|> bareKey
  blanks
  pure key

/-- Keys and values are nested less deep than this. -/
def nestingLimit : Nat := 80

def dottedKey : Reader (List Text × Text) := do
  let first ← keyPart
  let others ← many (do char '.'; keyPart)
  let parts := first :: others
  guard (parts.length < nestingLimit)
  pure (parts.dropLast, parts.getLast?.getD first)

end Toml
end SourceTidy
