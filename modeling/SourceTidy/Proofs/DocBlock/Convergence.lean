import SourceTidy.Proofs.DocBlock.Blocks
import SourceTidy.Proofs.DocBlock.Edges

/-!
# Normalizing converges in one pass

After one pass the block is found in the same place, since banners are edges and
no canonical line closes the block.  Every line between them is its own canonical
form, or else the pass stopped before it had changed anything.  So a second pass
finds nothing to do.
-/

namespace SourceTidy
namespace DocBlock

/-!
# One pass over the lines between the edges
-/

section Interior

variable {keys : KeyTable}

theorem length_normalizeInterior (keys : KeyTable) (changed : Bool) (left : Nat)
    (lines : List Text) :
    (normalizeInterior keys changed left lines).lines.length = lines.length := by
  fun_induction normalizeInterior keys changed left lines with
  | case1 | case2 | case4 => rfl
  | case3 _ _ _ _ _ ih | case5 _ _ _ _ _ _ _ _ ih | case6 _ _ _ _ _ _ _ _ ih =>
      exact congrArg Nat.succ ih

theorem mem_normalizeInterior {changed : Bool} {left : Nat} {lines : List Text} {out : Text}
    (h : out ∈ (normalizeInterior keys changed left lines).lines) :
    ∃ line ∈ lines, out = line ∨ canonicalLine keys line = .ok out := by
  have hcons : ∀ {line canonical : Text} {rest edited : List Text},
      canonicalLine keys line = .ok canonical → out ∈ canonical :: edited →
      (out ∈ edited → ∃ line ∈ rest, out = line ∨ canonicalLine keys line = .ok out) →
      ∃ other ∈ line :: rest, out = other ∨ canonicalLine keys other = .ok out := by
    intro line canonical rest edited hcanonical hmem ih
    rcases List.mem_cons.mp hmem with rfl | hrest
    · exact ⟨line, List.mem_cons_self, Or.inr hcanonical⟩
    · rcases ih hrest with ⟨other, hother, hout⟩
      exact ⟨other, List.mem_cons_of_mem line hother, hout⟩
  fun_induction normalizeInterior keys changed left lines with
  | case1 => cases h
  | case2 | case4 => exact ⟨out, h, Or.inl rfl⟩
  | case3 _ _ _ _ hcanonical ih => exact hcons hcanonical h ih
  | case5 _ _ _ _ _ _ _ hcanonical ih => exact hcons hcanonical h ih
  | case6 _ _ _ _ _ hcanonical _ _ ih => exact hcons hcanonical h ih

/-- A pass that changed nothing stopped early or found nothing to change. -/
theorem normalizeInterior_unchanged {changed : Bool} {left : Nat} {lines : List Text}
    (h : (normalizeInterior keys changed left lines).result = .ok false) :
    changed = false ∧ (normalizeInterior keys changed left lines).lines = lines := by
  fun_induction normalizeInterior keys changed left lines with
  | case1 =>
      cases h
      exact ⟨rfl, rfl⟩
  | case2 => cases h
  | case3 _ _ _ _ _ ih => cases (ih h).1
  | case4 _ _ _ _ hchanged => exact ⟨Bool.eq_false_iff.mpr hchanged, rfl⟩
  | case5 _ _ _ line hchanged _ _ _ ih =>
      exact ⟨Bool.eq_false_iff.mpr hchanged, congrArg (List.cons line) (ih h).2⟩
  | case6 _ _ _ _ _ _ _ _ ih => cases (ih h).1

/-- A pass that changed something went to the end. -/
theorem normalizeInterior_changed (hkeys : keys.Settled) {changed : Bool} {left : Nat}
    {lines : List Text} (h : (normalizeInterior keys changed left lines).result = .ok true) :
    ∀ line ∈ (normalizeInterior keys changed left lines).lines,
      canonicalLine keys line = .ok line := by
  fun_induction normalizeInterior keys changed left lines with
  | case1 =>
      intro line hline
      cases hline
  | case2 => cases h
  | case4 => cases h
  | case3 _ _ _ _ hcanonical ih => exact List.forall_mem_cons.mpr ⟨hcanonical, ih h⟩
  | case5 _ _ _ _ _ _ _ hcanonical ih => exact List.forall_mem_cons.mpr ⟨hcanonical, ih h⟩
  | case6 _ _ _ _ _ hcanonical _ _ ih =>
      exact List.forall_mem_cons.mpr ⟨canonicalLine_canonicalLine hkeys hcanonical, ih h⟩

theorem normalizeInterior_of_canonical (left : Nat) {lines : List Text}
    (h : ∀ line ∈ lines, canonicalLine keys line = .ok line) :
    normalizeInterior keys false left lines = { lines := lines, result := .ok false } := by
  induction lines generalizing left with
  | nil => rfl
  | cons line lines ih =>
      have hrest := ih (left - 1) fun other hother => h other (List.mem_cons_of_mem line hother)
      rw [normalizeInterior, h line List.mem_cons_self]
      simp only [if_true, Bool.false_eq_true, if_false, hrest]
      split <;> rfl

end Interior

/-!
# One pass over the file
-/

theorem isBlockStart_openingBanner : isBlockStart openingBanner = true := by
  decide +kernel

theorem isBlockEnd_openingBanner : isBlockEnd openingBanner = false := by
  decide +kernel

theorem isBlockEnd_closingBanner : isBlockEnd closingBanner = true := by
  decide +kernel

/-- The block with banners for its edges and the lines of a pass between them. -/
def Block.normalized (keys : KeyTable) (block : Block) : Block where
  before := block.before
  opening := openingBanner
  interior := (normalizeInterior keys block.edgesChanged probeLength block.interior).lines
  closing := closingBanner
  after := block.after
  passedOver := block.passedOver
  opens := isBlockStart_openingBanner
  staysOpen := isBlockEnd_openingBanner
  notEmpty := by
    intro hempty
    have hlength := length_normalizeInterior keys block.edgesChanged probeLength block.interior
    rw [hempty] at hlength
    exact block.notEmpty (List.length_eq_zero_iff.mp hlength.symm)
  notClosed := by
    intro out hout
    rcases mem_normalizeInterior hout with ⟨line, hline, rfl | hcanonical⟩
    · exact block.notClosed out hline
    · cases hend : isBlockEnd out with
      | false => rfl
      | true =>
          have hopen := block.notClosed line hline
          rw [isBlockEnd_of_canonicalLine hcanonical hend] at hopen
          cases hopen
  closes := isBlockEnd_closingBanner

theorem normalize_eq (keys : KeyTable) (block : Block) :
    normalize keys block.lines =
      { lines := (block.normalized keys).lines
        result :=
          (normalizeInterior keys block.edgesChanged probeLength block.interior).result } := by
  rw [normalize_lines]
  rfl

theorem mem_normalize {keys : KeyTable} {lines : List Text} {out : Text}
    (h : out ∈ (normalize keys lines).lines) :
    out ∈ lines ∨ (out = openingBanner ∨ out = closingBanner) ∨
      ∃ line ∈ lines, canonicalLine keys line = .ok out := by
  cases hspan : locate? lines with
  | none =>
      rw [normalize, hspan] at h
      exact Or.inl h
  | some span =>
      rcases exists_block_of_locateFrom hspan with ⟨block, rfl⟩
      rw [normalize_eq] at h
      have hmem : ∀ line, line ∈ block.before ∨ line ∈ block.interior ∨ line ∈ block.after →
          line ∈ block.lines := by
        intro line hline
        simp only [Block.lines, List.mem_append, List.mem_cons]
        tauto
      simp only [Block.lines, Block.normalized, List.mem_append, List.mem_cons] at h
      rcases h with hbefore | hopening | hinterior | hclosing | hafter
      · exact Or.inl (hmem out (Or.inl hbefore))
      · exact Or.inr (Or.inl (Or.inl hopening))
      · rcases mem_normalizeInterior hinterior with ⟨line, hline, rfl | hcanonical⟩
        · exact Or.inl (hmem out (Or.inr (Or.inl hline)))
        · exact Or.inr (Or.inr ⟨line, hmem line (Or.inr (Or.inl hline)), hcanonical⟩)
      · exact Or.inr (Or.inl (Or.inr hclosing))
      · exact Or.inl (hmem out (Or.inr (Or.inr hafter)))

theorem tab_not_mem_banner {line : Text} (h : line = openingBanner ∨ line = closingBanner) :
    '\t' ∉ line := by
  rcases h with rfl | rfl
  · decide +kernel
  · decide +kernel

theorem Block.normalize_normalized {keys : KeyTable} {block : Block}
    (h : ∀ line ∈ (block.normalized keys).interior, canonicalLine keys line = .ok line) :
    normalize keys (block.normalized keys).lines =
      { lines := (block.normalized keys).lines, result := .ok false } := by
  have hedges : (block.normalized keys).edgesChanged = false := by
    simp [Block.edgesChanged, Block.normalized]
  rw [normalize_lines, hedges, normalizeInterior_of_canonical probeLength h]
  rfl

theorem Block.lines_normalized_of_unchanged {keys : KeyTable} {block : Block}
    (h : (normalizeInterior keys block.edgesChanged probeLength block.interior).result =
      .ok false) : (block.normalized keys).lines = block.lines := by
  rcases normalizeInterior_unchanged h with ⟨hchanged, hinterior⟩
  have hedges := block.edgesChanged_eq_false_iff.mp hchanged
  rw [Block.lines, Block.lines, hedges.1, hedges.2]
  simp only [Block.normalized, hinterior]

theorem normalize_normalize {keys : KeyTable} (hkeys : keys.Settled) {lines : List Text}
    {changed : Bool} (h : (normalize keys lines).result = .ok changed) :
    normalize keys (normalize keys lines).lines =
      { lines := (normalize keys lines).lines, result := .ok false } := by
  cases hspan : locate? lines with
  | none =>
      rw [normalize, hspan] at h
      cases h
  | some span =>
      rcases exists_block_of_locateFrom hspan with ⟨block, rfl⟩
      rw [normalize_eq] at h ⊢
      cases changed with
      | true => exact Block.normalize_normalized (normalizeInterior_changed hkeys h)
      | false =>
          rw [Block.lines_normalized_of_unchanged h, normalize_eq,
            Block.lines_normalized_of_unchanged h, h]

/-- With the standard keys a second pass changes nothing. -/
theorem normalize_converges (lines : List Text) {changed : Bool}
    (h : (normalize KeyTable.standard lines).result = .ok changed) :
    normalize KeyTable.standard (normalize KeyTable.standard lines).lines =
      { lines := (normalize KeyTable.standard lines).lines, result := .ok false } :=
  normalize_normalize settled_standard h

/-- A file whose block has older keys, a date with a note, a continuation that ends
like an edge, and an empty pair of edges in front of it. -/
def olderBlock : List Text :=
  ["/*".toList, " */".toList, "/* notes".toList, " * Problem Link: a/*/".toList, " */x".toList,
   "  Created On: Jan 1, 2020   (approx. */ /*/".toList, "*Remarks:".toList, "   ***/  ".toList,
   "class A".toList]

theorem normalize_converges_olderBlock :
    (normalize KeyTable.standard olderBlock).result = .ok true ∧
      normalize KeyTable.standard (normalize KeyTable.standard olderBlock).lines =
        { lines := (normalize KeyTable.standard olderBlock).lines, result := .ok false } := by
  have h : (normalize KeyTable.standard olderBlock).result = .ok true := by decide +kernel
  exact ⟨h, normalize_converges olderBlock h⟩

end DocBlock
end SourceTidy
