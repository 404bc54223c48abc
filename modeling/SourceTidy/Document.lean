import SourceTidy.Text.Basic

/-!
# Documents

The content of a source file is a list of lines, together with the way its lines
end and whether a byte order mark stands in front.  Writing a document ends every
line in that one way, so a file with mixed line endings or an unfinished last
line does not come back as it was.
-/

namespace SourceTidy

/-- The content of a source file as editable lines. -/
structure Document where
  lines : List Text
  crlf : Bool
  bom : Bool
  deriving DecidableEq, Repr

namespace Document

def byteOrderMark : Char := '\uFEFF'

def withoutReturn (line : Text) : Text :=
  if line.getLast? = some '\r' then line.dropLast else line

/-- The lines of a text, from what stands between its line feeds.  The last piece
is an unfinished line, and none if it is empty. -/
def linesOfPieces : List Text → List Text
  | [] => []
  | [last] => if last.isEmpty then [] else [last]
  | piece :: next :: pieces => withoutReturn piece :: linesOfPieces (next :: pieces)

def linesOf (text : Text) : List Text :=
  linesOfPieces (List.splitOn '\n' text)

def ofPlainText (bom : Bool) (text : Text) : Document where
  lines := linesOf text
  crlf := Text.occurs ['\r', '\n'] text
  bom := bom

def parse : Text → Document
  | [] => ofPlainText false []
  | c :: rest => if c = byteOrderMark then ofPlainText true rest else ofPlainText false (c :: rest)

def lineEnding (document : Document) : Text :=
  if document.crlf then ['\r', '\n'] else ['\n']

def render (document : Document) : Text :=
  (if document.bom then [byteOrderMark] else []) ++
    document.lines.flatMap fun line => line ++ document.lineEnding

end Document
end SourceTidy
