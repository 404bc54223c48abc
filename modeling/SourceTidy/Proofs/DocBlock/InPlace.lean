import SourceTidy.Proofs.DocBlock.EarlyStop

/-!
# Normalizing in place

Normalizing puts a file together from its parts.  It can also be done by replacing lines at
their positions, the edges first and then one line after the other.  That would have to give
up at a position where there is no line, but it never comes to one, and it leaves the same
lines and the same result.
-/

namespace SourceTidy
namespace DocBlock

/-- The lines with another line at a position, and whether that is a change.  There has to be
a line at the position. -/
def replaceAt? (index : Nat) (line : Text) (lines : List Text) : Option (List Text × Bool) :=
  lines[index]?.map fun old => (lines.set index line, decide (old ≠ line))

def normalizeAt? (keys : KeyTable) (changed : Bool) (left index : Nat) :
    Nat → List Text → Option (Edited Bool)
  | 0, lines => some { lines := lines, result := .ok changed }
  | count + 1, lines =>
      lines[index]?.bind fun line =>
        match canonicalLine keys line with
        | .error fault => some { lines := lines, result := .error fault }
        | .ok canonical =>
            (replaceAt? index canonical lines).bind fun (lines, replaced) =>
              if changed || replaced then
                normalizeAt? keys true left (index + 1) count lines
              else if left ≤ 1 then
                some { lines := lines, result := .ok false }
              else
                normalizeAt? keys false (left - 1) (index + 1) count lines

def normalizeInPlace? (keys : KeyTable) (lines : List Text) : Option (Edited Bool) :=
  match locate? lines with
  | none => some { lines := lines, result := .error .missingBlock }
  | some span =>
      (replaceAt? span.first openingBanner lines).bind fun opened =>
        (replaceAt? span.last closingBanner opened.1).bind fun closed =>
          normalizeAt? keys (opened.2 || closed.2) probeLength (span.first + 1)
            (span.last - (span.first + 1)) closed.1

theorem replaceAt?_append (before : List Text) (old new : Text) (after : List Text) :
    replaceAt? before.length new (before ++ old :: after) =
      some (before ++ new :: after, decide (old ≠ new)) := by
  simp [replaceAt?, List.set_append_right]

theorem normalizeAt?_of_error {keys : KeyTable} {line : Text} {fault : Fault}
    (h : canonicalLine keys line = .error fault) (changed : Bool) (left count : Nat)
    (before rest : List Text) :
    normalizeAt? keys changed left before.length (count + 1) (before ++ line :: rest) =
      some { lines := before ++ line :: rest, result := .error fault } := by
  simp [normalizeAt?, h]

theorem normalizeAt?_of_ok {keys : KeyTable} {line canonical : Text}
    (h : canonicalLine keys line = .ok canonical) (changed : Bool) (left count : Nat)
    (before rest : List Text) :
    normalizeAt? keys changed left before.length (count + 1) (before ++ line :: rest) =
      if changed || decide (line ≠ canonical) then
        normalizeAt? keys true left (before.length + 1) count (before ++ canonical :: rest)
      else if left ≤ 1 then
        some { lines := before ++ canonical :: rest, result := .ok false }
      else
        normalizeAt? keys false (left - 1) (before.length + 1) count
          (before ++ canonical :: rest) := by
  have hline : (before ++ line :: rest)[before.length]? = some line := by simp
  rw [normalizeAt?, hline, Option.bind_some, h]
  simp only [replaceAt?_append, Option.bind_some]

theorem normalizeAt?_eq (keys : KeyTable) (changed : Bool) (left : Nat)
    (interior before after : List Text) :
    normalizeAt? keys changed left before.length interior.length (before ++ (interior ++ after)) =
      some
        { lines := before ++ ((normalizeInterior keys changed left interior).lines ++ after)
          result := (normalizeInterior keys changed left interior).result } := by
  induction interior generalizing changed left before with
  | nil => rfl
  | cons line rest ih =>
      rw [List.length_cons, List.cons_append]
      cases hline : canonicalLine keys line with
      | error fault =>
          rw [normalizeAt?_of_error hline, normalizeInterior_cons_of_error changed left hline]
          rfl
      | ok canonical =>
          -- The line that is done goes in front, so the rest starts at the next position.
          have hrest : ∀ changed left,
              normalizeAt? keys changed left (before.length + 1) rest.length
                  (before ++ canonical :: (rest ++ after)) =
                some
                  { lines := before ++
                      canonical :: ((normalizeInterior keys changed left rest).lines ++ after)
                    result := (normalizeInterior keys changed left rest).result } := by
            intro changed left
            have hnext := ih changed left (before ++ [canonical])
            rwa [List.length_append, List.length_singleton, List.append_assoc, List.append_assoc,
              List.singleton_append, List.singleton_append] at hnext
          rw [normalizeAt?_of_ok hline, hrest, hrest, normalizeInterior, hline]
          by_cases heq : canonical = line
          · subst heq
            cases changed with
            | true => simp
            | false =>
                by_cases hlast : left ≤ 1
                · simp [hlast]
                · simp [hlast]
          · simp [heq, Ne.symm heq]

theorem Block.replaceAt?_opening (block : Block) :
    replaceAt? block.before.length openingBanner block.lines =
      some (block.before ++ openingBanner :: (block.interior ++ block.closing :: block.after),
        decide (block.opening ≠ openingBanner)) :=
  replaceAt?_append _ _ _ _

theorem Block.replaceAt?_closing (block : Block) :
    replaceAt? (block.before.length + 1 + block.interior.length) closingBanner
        (block.before ++ openingBanner :: (block.interior ++ block.closing :: block.after)) =
      some (block.before ++ openingBanner :: (block.interior ++ closingBanner :: block.after),
        decide (block.closing ≠ closingBanner)) := by
  have hreplace := replaceAt?_append (block.before ++ openingBanner :: block.interior)
    block.closing closingBanner block.after
  have hlength : (block.before ++ openingBanner :: block.interior).length =
      block.before.length + 1 + block.interior.length := by
    rw [List.length_append, List.length_cons]
    omega
  rwa [hlength, List.append_assoc, List.append_assoc, List.cons_append,
    List.cons_append] at hreplace

/-- Normalizing in place never comes to a position without a line. -/
theorem normalizeInPlace?_eq (keys : KeyTable) (lines : List Text) :
    normalizeInPlace? keys lines = some (normalize keys lines) := by
  cases hspan : locate? lines with
  | none => rw [normalizeInPlace?, normalize, hspan]
  | some span =>
      rcases exists_block_of_locateFrom hspan with ⟨block, rfl⟩
      have hinterior := normalizeAt?_eq keys block.edgesChanged probeLength block.interior
        (block.before ++ [openingBanner]) (closingBanner :: block.after)
      rw [List.length_append, List.length_singleton, List.append_assoc, List.append_assoc,
        List.singleton_append, List.singleton_append] at hinterior
      rw [normalizeInPlace?, block.locate?_lines, normalize_lines]
      simp only [block.replaceAt?_opening, block.replaceAt?_closing, Option.bind_some,
        Nat.add_sub_cancel_left]
      exact hinterior

end DocBlock
end SourceTidy
