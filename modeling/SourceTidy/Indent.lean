import SourceTidy.Comment

/-!
# The unit of indentation

The unit that a file uses is estimated from the leading spaces of its lines
outside block comments.  Changing the unit replaces it wherever that many spaces
stand together, also between the tokens of a line.
-/

namespace SourceTidy
namespace Indent

def shortestRun : Nat := 2

/-- The number of lines outside comments that make one probe window. -/
def windowSize : Nat := 16

/-- Runs of this length and longer are not taken for indentation. -/
def unmeasured : Nat := 120

/-- A unit that may as well be an accident of alignment. -/
def ambiguousUnit : Nat := 3

/-!
# Measuring a line
-/

def leadingSpaces (line : Text) : Nat :=
  (line.takeWhile (· == ' ')).length

/-- The indentation of a line that ends on the given side of a comment boundary.
It is zero inside a comment and for a run that is too short. -/
def measure (line : Text) : Comment.State → Nat
  | .inside => 0
  | .outside => if leadingSpaces line < shortestRun then 0 else leadingSpaces line

/-!
# Inference

The smallest indentation in the first probe window that has any is the unit.  A
window without indentation is forgotten and the next one is tried.
-/

/-- The running minimum after the remaining lines, given the side the scan is on,
the minimum so far and the number of lines in the current window. -/
def probe : Comment.State → Nat → Nat → List Text → Nat
  | _, width, _, [] => width
  | state, width, seen, line :: rest =>
      if windowSize ≤ seen then
        width
      else
        let state := state.advance line
        let seen := if state = .outside then seen + 1 else seen
        let current := measure line state
        let width := if 0 < current then min width current else width
        let seen := if seen = windowSize ∧ width = unmeasured then 0 else seen
        probe state width seen rest

/-- The unit of indentation that a file uses, or zero if it has none. -/
def infer (lines : List Text) : Nat :=
  let width := probe .outside unmeasured 0 lines
  if width = unmeasured then 0 else width

/-!
# Changing the unit
-/

def shouldChange (source target : Nat) : Bool :=
  source ≠ 0 && source ≠ ambiguousUnit && source ≠ target

def changeLine (source target : Nat) (line : Text) : Text :=
  Text.substitute (List.replicate source ' ') (List.replicate target ' ') line

/-- Change the unit in all lines if that is called for.  The flag says whether
there was anything to replace. -/
def changeUnit (source target : Nat) (lines : List Text) : List Text × Bool :=
  if shouldChange source target then
    (lines.map (changeLine source target),
      lines.any (Text.occurs (List.replicate source ' ')))
  else
    (lines, false)

end Indent
end SourceTidy
