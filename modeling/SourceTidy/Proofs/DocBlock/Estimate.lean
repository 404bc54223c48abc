import SourceTidy.Proofs.DocBlock.Characters
import SourceTidy.Proofs.DocBlock.Convergence
import SourceTidy.Proofs.Indent.Inference

/-!
# The estimated unit around a documentation block

The search for the block and the scan for comments go by different rules, so
normalizing the block can change the estimated unit.  It does not if the scan takes
the block for one comment and the line that closes it is not indented.
-/

namespace SourceTidy
namespace DocBlock

open Comment (State)

/-!
# The edges toggle
-/

theorem toggles_of_isBlockStart {line : Text} (h : isBlockStart line = true) :
    Comment.toggles line .outside = true :=
  ((isBlockStart_iff_toggles line).mp h).2

theorem toggles_of_isBlockEnd {line : Text} (h : isBlockEnd line = true) :
    Comment.toggles line .inside = true :=
  ((isBlockEnd_iff_toggles line).mp h).2

/-- The scan is outside of comments where the block begins, no closing marker stands
between its edges, and the line that closes it is not indented. -/
structure Block.Unmeasured (block : Block) : Prop where
  outside : block.before.foldl State.advance .outside = .outside
  unclosed : ∀ line ∈ block.interior, ¬ Comment.closer <:+: line
  flush : Indent.leadingSpaces block.closing < Indent.shortestRun

theorem Block.Unmeasured.normalized {keys : KeyTable} (hkeys : keys.Plain) {block : Block}
    (h : block.Unmeasured) : (block.normalized keys).Unmeasured where
  outside := h.outside
  unclosed := by
    intro out hout
    rcases mem_normalizeInterior hout with ⟨line, hline, rfl | hcanonical⟩
    · exact h.unclosed out hline
    · apply passesOn_no_closer.canonicalLine _ hcanonical (h.unclosed line hline)
      intro key target htarget
      exact (hkeys key target htarget).2
  flush := by
    change Indent.leadingSpaces closingBanner < Indent.shortestRun
    decide +kernel

end DocBlock
end SourceTidy
