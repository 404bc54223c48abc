import Mathlib.Order.Basic
import SourceTidy.Proofs.DocBlock.Estimate

/-!
# The search for the block and the scan for comments

The search for the documentation block looks for lines that begin with an opening
marker and for lines that end in a closing one.  The scan for comments goes by the
last markers of every line.  The two part where a comment is opened behind other
text, where it is closed on the line that opens it, and where text follows its end.
Where they do not part before the end of the block, the block is one comment for the
scan as well.
-/

namespace SourceTidy
namespace Comment

theorem sideAt_succ {start : State} {lines : List Text} {index : Nat} {line : Text}
    (h : lines[index]? = some line) :
    sideAt start lines (index + 1) = (sideAt start lines index).advance line := by
  unfold sideAt
  rw [List.take_add_one, h, List.foldl_append]
  rfl

theorem sideAt_append_of_le {start : State} {a b : List Text} {index : Nat}
    (h : index ≤ a.length) : sideAt start (a ++ b) index = sideAt start a index := by
  unfold sideAt
  rw [List.take_append_of_le_length h]

theorem advance_of_toggles {state : State} {line : Text} (h : toggles line state = true) :
    state.advance line = state.flip :=
  if_pos h

theorem advance_of_not_toggles {state : State} {line : Text} (h : ¬ toggles line state = true) :
    state.advance line = state :=
  if_neg h

end Comment

namespace DocBlock

open Comment (State sideAt)

/-!
# Lines that both judge alike
-/

/-- A line that closes a comment and goes on after it. -/
def ClosesEarly (line : Text) : Prop :=
  Comment.toggles line .inside = true ∧ ¬ Comment.closer <:+ Text.trimEnd line

/-- A line on which the search and the scan do not part, if the scan meets it on the
given side. -/
def Plain : State → Text → Prop
  | .outside, line => Comment.toggles line .outside = true →
      Comment.opener <+: Text.trimStart line ∧ isBlockEnd line = false
  | .inside, line => ¬ ClosesEarly line

def PlainFrom (start : State) (lines : List Text) : Prop :=
  ∀ index line, lines[index]? = some line → Plain (sideAt start lines index) line

theorem closesEarly_of_toggles {line : Text} (h : Comment.toggles line .inside = true)
    (hopen : isBlockEnd line = false) : ClosesEarly line := by
  refine ⟨h, ?_⟩
  intro hcloser
  have hend := (isBlockEnd_iff_toggles line).mpr ⟨hcloser, h⟩
  rw [hopen] at hend
  cases hend

theorem PlainFrom.head {start : State} {line : Text} {rest : List Text}
    (h : PlainFrom start (line :: rest)) : Plain start line :=
  h 0 line rfl

theorem PlainFrom.tail {start : State} {line : Text} {rest : List Text}
    (h : PlainFrom start (line :: rest)) : PlainFrom (start.advance line) rest := by
  intro index other hother
  exact h (index + 1) other hother

/-!
# Above the block
-/

theorem Plain.advance_outside {line : Text} (h : Plain .outside line)
    (hpass : isBlockStart line = false ∨ isBlockEnd line = true) :
    State.outside.advance line = .outside := by
  apply Comment.advance_of_not_toggles
  intro htoggles
  rcases h htoggles with ⟨hopener, hopen⟩
  have hstart := (isBlockStart_iff_toggles line).mpr ⟨hopener, htoggles⟩
  rcases hpass with hfalse | hend
  · rw [hstart] at hfalse
    cases hfalse
  · rw [hopen] at hend
    cases hend

theorem exists_block_in_step {lines : List Text} {index : Nat} {span : Span}
    (h : locateFrom index none lines = some span) :
    ∃ block : Block, block.lines = lines ∧
      (PlainFrom .outside block.before →
        block.before.foldl State.advance .outside = .outside) := by
  refine search_induction (motive := fun lines => ∃ block : Block, block.lines = lines ∧
    (PlainFrom .outside block.before →
      block.before.foldl State.advance .outside = .outside)) ?_ ?_ ?_ h
  · intro line rest hpass ih
    rcases ih with ⟨block, rfl, hside⟩
    refine ⟨block.prepend [line] (passedOver_singleton hpass), block.lines_prepend _ _, ?_⟩
    intro hplain
    change PlainFrom .outside (line :: block.before) at hplain
    change block.before.foldl State.advance (State.outside.advance line) = .outside
    have hline := hplain.head.advance_outside hpass
    have hrest := hplain.tail
    rw [hline] at hrest ⊢
    exact hside hrest
  · intro opening closing rest hstart hopen hclosing ih
    rcases ih with ⟨block, rfl, hside⟩
    refine ⟨block.prepend [opening, closing] (passedOver_pair hstart hopen hclosing),
      block.lines_prepend _ _, ?_⟩
    intro hplain
    change PlainFrom .outside (opening :: closing :: block.before) at hplain
    change block.before.foldl State.advance
      ((State.outside.advance opening).advance closing) = .outside
    have hin : State.outside.advance opening = .inside :=
      Comment.advance_of_toggles (toggles_of_isBlockStart hstart)
    have hout : State.inside.advance closing = .outside :=
      Comment.advance_of_toggles (toggles_of_isBlockEnd hclosing)
    have hrest := hplain.tail.tail
    rw [hin, hout] at hrest ⊢
    exact hside hrest
  · intro opening interior closing after hstart hopen hne hinterior hclosing
    exact ⟨Block.atTop after hstart hopen hne hinterior hclosing, rfl, fun _ => rfl⟩

/-!
# The lines of a located block
-/

/-- What the search has seen when it returns a span. -/
structure Located (lines : List Text) (span : Span) : Prop where
  opening : ∃ line, lines[span.first]? = some line ∧ isBlockStart line = true
  staysOpen : ∀ index line, span.first ≤ index → index < span.last →
    lines[index]? = some line → isBlockEnd line = false
  closing : ∃ line, lines[span.last]? = some line ∧ isBlockEnd line = true
  interior : span.first + 2 ≤ span.last

theorem Block.span_eq {block : Block} {span : Span} (h : locate? block.lines = some span) :
    span = ⟨block.before.length, block.before.length + 1 + block.interior.length⟩ := by
  exact Option.some.inj (h.symm.trans block.locate?_lines)

theorem located_of_locate? {lines : List Text} {span : Span} (h : locate? lines = some span) :
    Located lines span := by
  rcases exists_block_of_locateFrom h with ⟨block, rfl⟩
  have hlength : 0 < block.interior.length := List.length_pos_iff.mpr block.notEmpty
  rw [Block.span_eq h]
  refine ⟨⟨block.opening, block.getElem?_opening, block.opens⟩, ?_,
    ⟨block.closing, block.getElem?_closing, block.closes⟩, ?_⟩
  · intro index line hfirst hlast hline
    change block.before.length ≤ index at hfirst
    change index < block.before.length + 1 + block.interior.length at hlast
    rcases Nat.exists_eq_add_of_le hfirst with ⟨place, rfl⟩
    rw [Block.lines, List.getElem?_append_right (Nat.le_add_right _ _),
      Nat.add_sub_cancel_left] at hline
    cases place with
    | zero =>
        cases hline
        exact block.staysOpen
    | succ place =>
        rw [List.getElem?_cons_succ, List.getElem?_append_left (by omega)] at hline
        exact block.notClosed line (List.mem_of_getElem? hline)
  · change block.before.length + 2 ≤ block.before.length + 1 + block.interior.length
    omega

theorem Block.getElem?_before (block : Block) {index : Nat} (h : index < block.before.length) :
    block.lines[index]? = block.before[index]? :=
  List.getElem?_append_left h

theorem Block.sideAt_before (block : Block) {index : Nat} (h : index ≤ block.before.length) :
    sideAt .outside block.lines index = sideAt .outside block.before index :=
  Comment.sideAt_append_of_le h

theorem Block.getElem?_after (block : Block) (place : Nat) :
    block.lines[block.before.length + 1 + block.interior.length + 1 + place]? =
      block.after[place]? := by
  rw [← List.getElem?_drop, block.drop_closing]

theorem getElem?_normalize {lines : List Text} {span : Span} (h : locate? lines = some span)
    (keys : KeyTable) {index : Nat} (hindex : index < span.first ∨ span.last < index) :
    (normalize keys lines).lines[index]? = lines[index]? := by
  rcases exists_block_of_locateFrom h with ⟨block, rfl⟩
  rw [Block.span_eq h] at hindex
  rw [normalize_eq]
  rcases hindex with hbefore | hafter
  · rw [block.getElem?_before hbefore]
    exact (block.normalized keys).getElem?_before hbefore
  · rcases Nat.exists_eq_add_of_le (Nat.succ_le_of_lt hafter) with ⟨place, rfl⟩
    have hlength : (block.normalized keys).interior.length = block.interior.length :=
      length_normalizeInterior keys block.edgesChanged probeLength block.interior
    have hnew := (block.normalized keys).getElem?_after place
    rw [hlength] at hnew
    rw [block.getElem?_after place]
    exact hnew

/-!
# The block as a comment
-/

/-- For a scan from the top, the lines of a span are one comment and nothing else. -/
structure Agrees (lines : List Text) (span : Span) : Prop where
  before : sideAt .outside lines span.first = .outside
  within : ∀ index, span.first ≤ index → index < span.last →
    sideAt .outside lines (index + 1) = .inside
  behind : sideAt .outside lines (span.last + 1) = .outside

/-- A scan that comes to the block from the outside leaves it at its last line, if it
does not leave it early. -/
theorem Located.agrees {lines : List Text} {span : Span} (h : Located lines span)
    (hbefore : sideAt .outside lines span.first = .outside)
    (hstay : ∀ index line, span.first < index → index < span.last →
      lines[index]? = some line → sideAt .outside lines index = .inside → ¬ ClosesEarly line) :
    Agrees lines span := by
  have hwithin : ∀ index, span.first ≤ index → index < span.last →
      sideAt .outside lines (index + 1) = .inside := by
    intro index hfirst
    induction index, hfirst using Nat.le_induction with
    | base =>
        intro _
        rcases h.opening with ⟨opening, hopening, hstart⟩
        rw [Comment.sideAt_succ hopening, hbefore]
        exact Comment.advance_of_toggles (toggles_of_isBlockStart hstart)
    | succ index hfirst ih =>
        intro hlast
        have hinside := ih (by omega)
        rcases h.closing with ⟨closing, hclosing, _⟩
        have hlength : index + 1 < lines.length := by
          have hbound := (List.getElem?_eq_some_iff.mp hclosing).1
          omega
        have hline : lines[index + 1]? = some lines[index + 1] := List.getElem?_eq_getElem hlength
        rw [Comment.sideAt_succ hline, hinside]
        apply Comment.advance_of_not_toggles
        intro htoggles
        apply hstay (index + 1) _ (by omega) hlast hline hinside
        exact closesEarly_of_toggles htoggles (h.staysOpen (index + 1) _ (by omega) hlast hline)
  refine ⟨hbefore, hwithin, ?_⟩
  rcases h.closing with ⟨closing, hclosing, hend⟩
  have hinterior := h.interior
  have hinside := hwithin (span.last - 1) (by omega) (by omega)
  rw [Nat.sub_add_cancel (by omega)] at hinside
  rw [Comment.sideAt_succ hclosing, hinside]
  exact Comment.advance_of_toggles (toggles_of_isBlockEnd hend)

theorem Agrees.not_closesEarly {lines : List Text} {span : Span} (h : Agrees lines span)
    {index : Nat} {line : Text} (hfirst : span.first < index) (hlast : index < span.last)
    (hline : lines[index]? = some line) : ¬ ClosesEarly line := by
  intro hearly
  have hbefore := h.within (index - 1) (by omega) (by omega)
  rw [Nat.sub_add_cancel (by omega)] at hbefore
  have hafter := h.within index (by omega) hlast
  rw [Comment.sideAt_succ hline, hbefore, Comment.advance_of_toggles hearly.1] at hafter
  cases hafter

theorem agrees_of_plain {lines : List Text} {span : Span} (h : locate? lines = some span)
    (hplain : ∀ index line, index < span.last → lines[index]? = some line →
      Plain (sideAt .outside lines index) line) : Agrees lines span := by
  have hlocated := located_of_locate? h
  apply hlocated.agrees
  · rcases exists_block_in_step h with ⟨block, rfl, hside⟩
    have hspan := hlocated.interior
    have hfirst : span.first = block.before.length := by rw [Block.span_eq h]
    rw [hfirst]
    change (block.lines.take block.before.length).foldl State.advance .outside = .outside
    rw [block.take_before]
    apply hside
    intro index line hline
    have hindex := (List.getElem?_eq_some_iff.mp hline).1
    rw [← block.sideAt_before (Nat.le_of_lt hindex)]
    apply hplain index line (by omega)
    rw [block.getElem?_before hindex]
    exact hline
  · intro index line _ hlast hline hinside
    have hstay := hplain index line hlast hline
    rw [hinside] at hstay
    exact hstay

theorem Agrees.inside_of_mem {lines : List Text} {span : Span} (h : Agrees lines span)
    (hspan : span.first + 2 ≤ span.last) {index : Nat} (hfirst : span.first ≤ index)
    (hlast : index ≤ span.last) :
    sideAt .outside lines index = .inside ∨ sideAt .outside lines (index + 1) = .inside := by
  rcases Nat.lt_or_eq_of_le hlast with hless | rfl
  · exact Or.inr (h.within index hfirst hless)
  · have hinside := h.within (span.last - 1) (by omega) (by omega)
    rw [Nat.sub_add_cancel (by omega)] at hinside
    exact Or.inl hinside

/-- The located block is one comment for the scan exactly if the scan comes to it from
the outside and no line between its edges closes a comment early.  It is one if all
lines up to its end are plain.  Normalizing rewrites lines of the block only, so where
it is one comment nothing else is rewritten. -/
theorem span_agrees_iff {lines : List Text} {span : Span} (h : locate? lines = some span) :
    (Agrees lines span ↔
      sideAt .outside lines span.first = .outside ∧
        ∀ index line, span.first < index → index < span.last → lines[index]? = some line →
          ¬ ClosesEarly line) ∧
      ((∀ index line, index < span.last → lines[index]? = some line →
          Plain (sideAt .outside lines index) line) → Agrees lines span) ∧
      ∀ keys index, (normalize keys lines).lines[index]? ≠ lines[index]? →
        (span.first ≤ index ∧ index ≤ span.last) ∧
          (Agrees lines span →
            sideAt .outside lines index = .inside ∨
              sideAt .outside lines (index + 1) = .inside) := by
  have hlocated := located_of_locate? h
  refine ⟨?_, agrees_of_plain h, ?_⟩
  · constructor
    · intro hagrees
      refine ⟨hagrees.before, ?_⟩
      intro index line hfirst hlast hline
      exact hagrees.not_closesEarly hfirst hlast hline
    · intro hcondition
      apply hlocated.agrees hcondition.1
      intro index line hfirst hlast hline _
      exact hcondition.2 index line hfirst hlast hline
  · intro keys index hchanged
    have hmem : span.first ≤ index ∧ index ≤ span.last := by
      by_contra hout
      apply hchanged
      exact getElem?_normalize h keys (by omega)
    refine ⟨hmem, ?_⟩
    intro hagrees
    exact hagrees.inside_of_mem hlocated.interior hmem.1 hmem.2

def twoComments : List Text :=
  ["/*".toList, "*/".toList, "int x;".toList, "  /**".toList, "Title: /* x".toList,
   "  */".toList]

theorem span_agrees_iff_twoComments :
    locate? twoComments = some ⟨3, 5⟩ ∧ Agrees twoComments ⟨3, 5⟩ := by
  have h : locate? twoComments = some ⟨3, 5⟩ := by decide
  refine ⟨h, (span_agrees_iff h).1.mpr ⟨by decide, ?_⟩⟩
  intro index line hfirst hlast hline
  have hindex : index = 4 := Nat.le_antisymm (Nat.le_of_lt_succ hlast) hfirst
  subst hindex
  cases hline
  intro hearly
  exact absurd hearly.1 (by decide)

def driftingComments : List Text :=
  ["/* note */".toList, "/*".toList, "Title: x".toList, "*/ int x;".toList,
   "int y;".toList, "/* end */".toList]

/-- The scan comes to the block from the inside, leaves it early, and is inside again
after its end.  A line that the scan takes for text outside of comments is rewritten. -/
theorem span_not_agrees_driftingComments :
    locate? driftingComments = some ⟨1, 5⟩ ∧ ¬ Agrees driftingComments ⟨1, 5⟩ ∧
      sideAt .outside driftingComments 1 = .inside ∧
      sideAt .outside driftingComments 4 = .outside ∧
      sideAt .outside driftingComments 5 = .outside ∧
      sideAt .outside driftingComments 6 = .inside ∧
      (normalize .standard driftingComments).lines[4]? = some "*   int y;".toList := by
  have hbefore : sideAt .outside driftingComments 1 = .inside := by decide
  refine ⟨by decide, ?_, hbefore, by decide, by decide, by decide, by decide +kernel⟩
  intro hagrees
  rw [hagrees.before] at hbefore
  cases hbefore

end DocBlock
end SourceTidy
