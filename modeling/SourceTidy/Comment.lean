import SourceTidy.Text.Basic

/-!
# Block comments, line by line

A scan over a file is at every line break either outside or inside a block
comment.  Whether a line moves the scan to the other side is decided by the last
opening and the last closing marker of the line alone, so a line with more than
two markers, or with a marker in a string literal, may be judged wrongly.
-/

namespace SourceTidy
namespace Comment

/-- Which side of a block comment's boundary a scan is on. -/
inductive State where
  | outside
  | inside
  deriving DecidableEq, Repr, Inhabited

def State.flip : State → State
  | .outside => .inside
  | .inside => .outside

@[simp] theorem State.flip_flip (state : State) : state.flip.flip = state := by
  cases state <;> rfl

def opener : Text := ['/', '*']

def closer : Text := ['*', '/']

/-!
# Toggling

From the inside the last closing marker must start at least two places after the
last opening one.  From the outside the last opening marker may start up to two
places after the last closing one.  The two comparisons lean in opposite
directions, so a line such as `/* x */` toggles from either side.
-/

/-- Whether a line moves a scan from the given side to the other. -/
def toggles (line : Text) : State → Bool
  | .inside =>
      match Text.lastIndex? closer line, Text.lastIndex? opener line with
      | none, _ => false
      | some _, none => true
      | some close, some opening => opening + 2 ≤ close
  | .outside =>
      match Text.lastIndex? opener line, Text.lastIndex? closer line with
      | none, _ => false
      | some _, none => true
      | some opening, some close => opening ≤ close + 2

def State.advance (state : State) (line : Text) : State :=
  if toggles line state then state.flip else state

end Comment
end SourceTidy
