import SourceTidy.Text.Blank
import SourceTidy.Comment

/-!
# Locating the documentation block

The documentation block of a file is its first block comment that has at least
one line between the line that opens it and the line that closes it.
-/

namespace SourceTidy
namespace DocBlock

structure Span where
  first : Nat
  last : Nat
  deriving DecidableEq, Repr

/-- Whether a line opens a block: apart from blanks it starts with an opening
marker, and it toggles from the outside. -/
def isBlockStart (line : Text) : Bool :=
  let line := Text.trimStart line
  Comment.opener.isPrefixOf line && Comment.toggles line .outside

/-- Whether a line closes a block: apart from blanks it ends with a closing
marker, and it toggles from the inside. -/
def isBlockEnd (line : Text) : Bool :=
  let line := Text.trimEnd line
  Comment.closer.isSuffixOf line && Comment.toggles line .inside

/-- Search from the line with number `index` on, with the opening line that has
been found but not yet closed.  A pair of edges with nothing between them is
dropped and the search goes on after it. -/
def locateFrom (index : Nat) (pending : Option Nat) : List Text → Option Span
  | [] => none
  | line :: rest =>
      let start := match pending with
        | some start => some start
        | none => if isBlockStart line then some index else none
      match start with
      | none => locateFrom (index + 1) none rest
      | some first =>
          if isBlockEnd line then
            if first + 2 ≤ index then
              some { first := first, last := index }
            else
              locateFrom (index + 1) none rest
          else
            locateFrom (index + 1) (some first) rest

def locate? (lines : List Text) : Option Span :=
  locateFrom 0 none lines

end DocBlock
end SourceTidy
