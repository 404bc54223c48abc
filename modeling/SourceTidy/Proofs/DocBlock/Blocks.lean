import SourceTidy.DocBlock.Normal

/-!
# Files with a documentation block

The search for the documentation block succeeds exactly on the files that can be
taken apart into lines which it passes over, the two edges with something between
them, and the rest.  Such a file is kept as a block with its surroundings, and
all that normalizing does is to replace the edges and the lines between them.
-/

namespace SourceTidy
namespace DocBlock

/-- Lines that the search leaves behind with no block open. -/
def PassedOver (lines : List Text) : Prop :=
  ∀ index rest, locateFrom index none (lines ++ rest) =
    locateFrom (index + lines.length) none rest

/-- A file around its documentation block. -/
structure Block where
  before : List Text
  opening : Text
  interior : List Text
  closing : Text
  after : List Text
  passedOver : PassedOver before
  opens : isBlockStart opening = true
  staysOpen : isBlockEnd opening = false
  notEmpty : interior ≠ []
  notClosed : ∀ line ∈ interior, isBlockEnd line = false
  closes : isBlockEnd closing = true

def Block.lines (block : Block) : List Text :=
  block.before ++ block.opening :: (block.interior ++ block.closing :: block.after)

/-!
# The search with a block open
-/

theorem locateFrom_open {interior : List Text} {closing : Text} (index first : Nat)
    (hinterior : ∀ line ∈ interior, isBlockEnd line = false) (hclosing : isBlockEnd closing = true)
    (after : List Text) :
    locateFrom index (some first) (interior ++ closing :: after) =
      if first + 2 ≤ index + interior.length then
        some { first := first, last := index + interior.length }
      else
        locateFrom (index + interior.length + 1) none after := by
  induction interior generalizing index with
  | nil =>
      rw [List.nil_append, locateFrom]
      simp only [hclosing, if_true, List.length_nil, Nat.add_zero]
  | cons line interior ih =>
      have hline : isBlockEnd line = false := hinterior line List.mem_cons_self
      have hrest := ih (index + 1) fun other hother =>
        hinterior other (List.mem_cons_of_mem line hother)
      have hlength : index + 1 + interior.length = index + (line :: interior).length := by
        rw [List.length_cons]
        omega
      rw [List.cons_append, locateFrom]
      simp only [hline, Bool.false_eq_true, if_false]
      rw [hrest, hlength]

theorem locateFrom_never_closed {lines : List Text} (index first : Nat)
    (h : ∀ line ∈ lines, isBlockEnd line = false) :
    locateFrom index (some first) lines = none := by
  induction lines generalizing index with
  | nil => rfl
  | cons line lines ih =>
      have hline : isBlockEnd line = false := h line List.mem_cons_self
      rw [locateFrom]
      simp only [hline, Bool.false_eq_true, if_false]
      exact ih (index + 1) fun other hother => h other (List.mem_cons_of_mem line hother)

theorem exists_of_locateFrom_open {lines : List Text} {index first : Nat} {span : Span}
    (h : locateFrom index (some first) lines = some span) :
    ∃ interior closing after, lines = interior ++ closing :: after ∧
      (∀ line ∈ interior, isBlockEnd line = false) ∧ isBlockEnd closing = true := by
  cases hfind : lines.find? isBlockEnd with
  | none =>
      have hnever := locateFrom_never_closed index first fun line hline => by
        simpa using List.find?_eq_none.mp hfind line hline
      rw [hnever] at h
      cases h
  | some closing =>
      rcases List.find?_eq_some_iff_append.mp hfind with
        ⟨hclosing, interior, after, hlines, hinterior⟩
      refine ⟨interior, closing, after, hlines, ?_, hclosing⟩
      intro line hline
      simpa using hinterior line hline

/-!
# The search with no block open
-/

theorem locateFrom_not_start {line : Text} (h : isBlockStart line = false) (index : Nat)
    (rest : List Text) : locateFrom index none (line :: rest) = locateFrom (index + 1) none rest := by
  rw [locateFrom]
  simp only [h, Bool.false_eq_true, if_false]

theorem locateFrom_start_end {line : Text} (hstart : isBlockStart line = true)
    (hend : isBlockEnd line = true) (index : Nat) (rest : List Text) :
    locateFrom index none (line :: rest) = locateFrom (index + 1) none rest := by
  rw [locateFrom]
  simp only [hstart, hend, if_true]
  rw [if_neg (by omega)]

theorem locateFrom_start {line : Text} (hstart : isBlockStart line = true)
    (hend : isBlockEnd line = false) (index : Nat) (rest : List Text) :
    locateFrom index none (line :: rest) = locateFrom (index + 1) (some index) rest := by
  rw [locateFrom]
  simp only [hstart, hend, if_true, Bool.false_eq_true, if_false]

theorem passedOver_nil : PassedOver [] := by
  intro index rest
  rfl

theorem PassedOver.append {a b : List Text} (ha : PassedOver a) (hb : PassedOver b) :
    PassedOver (a ++ b) := by
  intro index rest
  rw [List.append_assoc, ha, hb, List.length_append, Nat.add_assoc]

theorem passedOver_singleton {line : Text}
    (h : isBlockStart line = false ∨ isBlockEnd line = true) : PassedOver [line] := by
  intro index rest
  cases hstart : isBlockStart line with
  | false => exact locateFrom_not_start hstart index rest
  | true =>
      rcases h with hfalse | hend
      · rw [hstart] at hfalse
        cases hfalse
      · exact locateFrom_start_end hstart hend index rest

/-- Two edges with nothing between them are no block. -/
theorem passedOver_pair {opening closing : Text} (hstart : isBlockStart opening = true)
    (hopen : isBlockEnd opening = false) (hclosing : isBlockEnd closing = true) :
    PassedOver [opening, closing] := by
  intro index rest
  rw [List.cons_append, locateFrom_start hstart hopen, List.singleton_append, locateFrom]
  simp only [hclosing, if_true]
  rw [if_neg (by omega)]
  rfl

/-!
# Taking a file apart
-/

theorem Block.locateFrom_lines (block : Block) (index : Nat) :
    locateFrom index none block.lines =
      some { first := index + block.before.length
             last := index + block.before.length + 1 + block.interior.length } := by
  have hlength : 0 < block.interior.length := List.length_pos_iff.mpr block.notEmpty
  rw [Block.lines, block.passedOver, locateFrom_start block.opens block.staysOpen,
    locateFrom_open _ _ block.notClosed block.closes, if_pos (by omega)]

theorem Block.locate?_lines (block : Block) :
    locate? block.lines =
      some { first := block.before.length
             last := block.before.length + 1 + block.interior.length } := by
  rw [locate?, block.locateFrom_lines, Nat.zero_add]

def Block.prepend (block : Block) (lines : List Text) (h : PassedOver lines) : Block :=
  { block with
    before := lines ++ block.before
    passedOver := h.append block.passedOver }

theorem Block.lines_prepend (block : Block) (lines : List Text) (h : PassedOver lines) :
    (block.prepend lines h).lines = lines ++ block.lines := by
  simp [Block.lines, Block.prepend]

/-- Induction along a search that succeeds: over the lines and the empty pairs of edges
that it leaves behind, down to the block that it finds. -/
theorem search_induction {motive : List Text → Prop}
    (skip : ∀ line rest, isBlockStart line = false ∨ isBlockEnd line = true → motive rest →
      motive (line :: rest))
    (pair : ∀ opening closing rest, isBlockStart opening = true → isBlockEnd opening = false →
      isBlockEnd closing = true → motive rest → motive (opening :: closing :: rest))
    (found : ∀ opening interior closing after, isBlockStart opening = true →
      isBlockEnd opening = false → interior ≠ [] →
      (∀ line ∈ interior, isBlockEnd line = false) → isBlockEnd closing = true →
      motive (opening :: (interior ++ closing :: after)))
    {lines : List Text} {index : Nat} {span : Span}
    (h : locateFrom index none lines = some span) : motive lines := by
  -- The search may jump over a pair of edges, so the induction is on the number of lines left.
  induction hn : lines.length using Nat.strongRecOn generalizing lines index with
  | ind n ih =>
      cases lines with
      | nil => cases h
      | cons line rest =>
          by_cases hpass : isBlockStart line = false ∨ isBlockEnd line = true
          · have hrest : locateFrom (index + 1) none rest = some span := by
              rw [← h]
              exact (passedOver_singleton hpass index rest).symm
            have hless : rest.length < n := by
              rw [← hn, List.length_cons]
              exact Nat.lt_succ_self _
            exact skip line rest hpass (ih rest.length hless hrest rfl)
          · have hstart : isBlockStart line = true := by
              cases hcase : isBlockStart line with
              | true => rfl
              | false => exact absurd (Or.inl hcase) hpass
            have hopen : isBlockEnd line = false := by
              cases hcase : isBlockEnd line with
              | true => exact absurd (Or.inr hcase) hpass
              | false => rfl
            have hclosed := h
            rw [locateFrom_start hstart hopen] at hclosed
            rcases exists_of_locateFrom_open hclosed with
              ⟨interior, closing, after, rfl, hinterior, hclosing⟩
            cases interior with
            | nil =>
                have hafter : locateFrom (index + 2) none after = some span := by
                  rw [← h]
                  exact (passedOver_pair hstart hopen hclosing index after).symm
                have hless : after.length < n := by
                  rw [← hn]
                  simp only [List.nil_append, List.length_cons]
                  omega
                exact pair line closing after hstart hopen hclosing
                  (ih after.length hless hafter rfl)
            | cons first others =>
                exact found line (first :: others) closing after hstart hopen
                  (List.cons_ne_nil first others) hinterior hclosing

def Block.atTop {opening closing : Text} {interior : List Text} (after : List Text)
    (hopens : isBlockStart opening = true) (hopen : isBlockEnd opening = false)
    (hne : interior ≠ []) (hinterior : ∀ line ∈ interior, isBlockEnd line = false)
    (hcloses : isBlockEnd closing = true) : Block where
  before := []
  opening := opening
  interior := interior
  closing := closing
  after := after
  passedOver := passedOver_nil
  opens := hopens
  staysOpen := hopen
  notEmpty := hne
  notClosed := hinterior
  closes := hcloses

theorem exists_block_of_locateFrom {lines : List Text} {index : Nat} {span : Span}
    (h : locateFrom index none lines = some span) : ∃ block : Block, block.lines = lines := by
  refine search_induction (motive := fun lines => ∃ block : Block, block.lines = lines)
    ?_ ?_ ?_ h
  · intro line rest hpass ih
    rcases ih with ⟨block, rfl⟩
    exact ⟨block.prepend [line] (passedOver_singleton hpass), block.lines_prepend _ _⟩
  · intro opening closing rest hstart hopen hclosing ih
    rcases ih with ⟨block, rfl⟩
    exact ⟨block.prepend [opening, closing] (passedOver_pair hstart hopen hclosing),
      block.lines_prepend _ _⟩
  · intro opening interior closing after hstart hopen hne hinterior hclosing
    exact ⟨Block.atTop after hstart hopen hne hinterior hclosing, rfl⟩

/-!
# Normalizing

The two positions cut the file into the parts that it was put together from.
-/

theorem Block.getElem?_opening (block : Block) :
    block.lines[block.before.length]? = some block.opening := by
  simp [Block.lines]

theorem Block.getElem?_closing (block : Block) :
    block.lines[block.before.length + 1 + block.interior.length]? = some block.closing := by
  have hplace : block.before.length + 1 + block.interior.length - block.before.length =
      block.interior.length + 1 := by omega
  rw [Block.lines, List.getElem?_append_right (by omega), hplace, List.getElem?_cons_succ]
  simp

theorem Block.drop_opening (block : Block) :
    block.lines.drop (block.before.length + 1) = block.interior ++ block.closing :: block.after := by
  simp [Block.lines, List.drop_append]

theorem Block.drop_closing (block : Block) :
    block.lines.drop (block.before.length + 1 + block.interior.length + 1) = block.after := by
  rw [Nat.add_assoc, ← List.drop_drop, block.drop_opening]
  simp [List.drop_append]

theorem Block.take_before (block : Block) :
    block.lines.take block.before.length = block.before := by
  simp [Block.lines]

def Block.edgesChanged (block : Block) : Bool :=
  block.opening ≠ openingBanner || block.closing ≠ closingBanner

theorem Block.edgesChanged_eq_false_iff (block : Block) :
    block.edgesChanged = false ↔
      block.opening = openingBanner ∧ block.closing = closingBanner := by
  rw [Block.edgesChanged, Bool.or_eq_false_iff, decide_eq_false_iff_not, Decidable.not_not,
    decide_eq_false_iff_not, Decidable.not_not]

theorem Block.getElem?_edges_iff (block : Block) :
    block.lines[block.before.length]? = some openingBanner ∧
        block.lines[block.before.length + 1 + block.interior.length]? = some closingBanner ↔
      block.edgesChanged = false := by
  rw [block.getElem?_opening, block.getElem?_closing, Option.some_inj, Option.some_inj,
    block.edgesChanged_eq_false_iff]

/-- Replace the edges of the documentation block by banners and the lines between
them by what a pass over them gives. -/
def passWith (pass : Bool → List Text → Edited Bool) (lines : List Text) : Edited Bool :=
  match locate? lines with
  | none => { lines := lines, result := .error .missingBlock }
  | some span =>
      let interior := (lines.drop (span.first + 1)).take (span.last - (span.first + 1))
      let edgesChanged :=
        lines[span.first]? ≠ some openingBanner || lines[span.last]? ≠ some closingBanner
      let edited := pass edgesChanged interior
      { edited with
        lines := lines.take span.first ++ openingBanner :: edited.lines ++
          closingBanner :: lines.drop (span.last + 1) }

theorem passWith_lines (pass : Bool → List Text → Edited Bool) (block : Block) :
    passWith pass block.lines =
      let edited := pass block.edgesChanged block.interior
      { edited with
        lines := block.before ++
          openingBanner :: (edited.lines ++ closingBanner :: block.after) } := by
  have hinterior : (block.interior ++ block.closing :: block.after).take
      (block.before.length + 1 + block.interior.length - (block.before.length + 1)) =
        block.interior := by
    rw [Nat.add_sub_cancel_left, List.take_left]
  rw [passWith, block.locate?_lines]
  simp only [block.drop_opening, hinterior, block.getElem?_opening, block.getElem?_closing,
    block.take_before, block.drop_closing, Block.edgesChanged, List.append_assoc,
    List.cons_append, ne_eq, Option.some.injEq]

theorem normalize_lines (keys : KeyTable) (block : Block) :
    normalize keys block.lines =
      let edited := normalizeInterior keys block.edgesChanged probeLength block.interior
      { edited with
        lines := block.before ++
          openingBanner :: (edited.lines ++ closingBanner :: block.after) } :=
  passWith_lines (fun changed => normalizeInterior keys changed probeLength) block

end DocBlock
end SourceTidy
