import SourceTidy.Text.Basic

/-!
# Tabs

Every tab, wherever it stands in a line, gives way to the same number of spaces.
-/

namespace SourceTidy
namespace Tabs

def expandLine (width : Nat) (line : Text) : Text :=
  line.flatMap fun c => if c = '\t' then List.replicate width ' ' else [c]

/-- Expand the tabs of all lines.  The flag says whether there was a tab. -/
def expand (width : Nat) (lines : List Text) : List Text × Bool :=
  (lines.map (expandLine width), lines.any (·.contains '\t'))

end Tabs
end SourceTidy
