import SourceTidy.DocBlock.Line
import SourceTidy.DocBlock.Span

/-!
# Normalizing the documentation block

The edges of the block become banners of asterisks and the lines between them
take their canonical form, from top to bottom.  The first line that has none ends
the work, and what was done before it stays.  A block whose edges and first lines
are canonical already is taken as canonical without reading the rest.
-/

namespace SourceTidy
namespace DocBlock

def bannerWidth : Nat := 100

def openingBanner : Text := '/' :: List.replicate bannerWidth '*'

def closingBanner : Text := List.replicate bannerWidth '*' ++ ['/']

/-- So many canonical lines at the top are enough to take a block as canonical. -/
def probeLength : Nat := 7

/-- Lines as an edit has left them, and what came of it. -/
structure Edited (α : Type) where
  lines : List Text
  result : Except Fault α

/-- Bring the lines between the edges into canonical form.  The result says
whether anything in the block has changed, as `changed` says of what was done so
far; `left` lines are still to be probed while nothing has. -/
def normalizeInterior (keys : KeyTable) (changed : Bool) (left : Nat) :
    List Text → Edited Bool
  | [] => { lines := [], result := .ok changed }
  | line :: rest =>
      match canonicalLine keys line with
      | .error fault => { lines := line :: rest, result := .error fault }
      | .ok canonical =>
          if canonical = line then
            if changed then
              let edited := normalizeInterior keys true left rest
              { edited with lines := line :: edited.lines }
            else if left ≤ 1 then
              { lines := line :: rest, result := .ok false }
            else
              let edited := normalizeInterior keys false (left - 1) rest
              { edited with lines := line :: edited.lines }
          else
            let edited := normalizeInterior keys true left rest
            { edited with lines := canonical :: edited.lines }

def normalize (keys : KeyTable) (lines : List Text) : Edited Bool :=
  match locate? lines with
  | none => { lines := lines, result := .error .missingBlock }
  | some span =>
      let interior := (lines.drop (span.first + 1)).take (span.last - (span.first + 1))
      let edgesChanged :=
        lines[span.first]? ≠ some openingBanner || lines[span.last]? ≠ some closingBanner
      let edited := normalizeInterior keys edgesChanged probeLength interior
      { edited with
        lines := lines.take span.first ++ openingBanner :: edited.lines ++
          closingBanner :: lines.drop (span.last + 1) }

end DocBlock
end SourceTidy
