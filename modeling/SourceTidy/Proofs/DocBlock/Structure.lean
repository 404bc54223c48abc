import Mathlib.Data.List.Forall2
import SourceTidy.Proofs.DocBlock.Edges
import SourceTidy.Proofs.Indent.Runs
import SourceTidy.Tabs

/-!
# Comments in a respaced file

Expanding tabs and changing the unit of indentation move the markers of a line, but
only by making gaps longer or shorter.  No gap appears and none goes away, so lines
toggle as before, a scan is on the same side everywhere, and the documentation block
is found in the same place.
-/

namespace SourceTidy

theorem Tabs.respaced_expandLine {width : Nat} (h : 0 < width) (line : Text) :
    Text.Respaced line (expandLine width line) := by
  induction line with
  | nil => exact Text.Respaced.nil
  | cons c rest ih =>
      unfold expandLine
      rw [List.flatMap_cons]
      by_cases hc : c = '\t'
      · have hgap : ∀ d ∈ [c], Text.IsGap d := by
          intro d hd
          rw [List.mem_singleton.mp hd]
          exact Or.inr hc
        rw [if_pos hc]
        exact Text.Respaced.gap (List.cons_ne_nil c []) (Indent.replicate_ne_nil h) hgap
          (Indent.isGap_replicate width) ih
      · rw [if_neg hc]
        exact ih.cons c

namespace DocBlock

/-!
# One line
-/

theorem isBlockStart_of_respaced {a b : Text} (h : Text.Respaced a b)
    (ha : isBlockStart a = true) : isBlockStart b = true := by
  rw [isBlockStart_iff_toggles] at ha ⊢
  constructor
  · exact h.trimStart.prefix_of_prefix Comment.not_isGap_slash Comment.not_isGap_star ha.1
  · rw [Comment.toggles_respaced h]
    exact ha.2

theorem isBlockEnd_of_respaced {a b : Text} (h : Text.Respaced a b)
    (ha : isBlockEnd a = true) : isBlockEnd b = true := by
  rw [isBlockEnd_iff_toggles] at ha ⊢
  constructor
  · exact h.trimEnd.suffix_of_suffix Comment.not_isGap_star Comment.not_isGap_slash ha.1
  · rw [Comment.toggles_respaced h]
    exact ha.2

theorem isBlockStart_respaced {a b : Text} (h : Text.Respaced a b) :
    isBlockStart b = isBlockStart a :=
  Bool.eq_iff_iff.mpr ⟨isBlockStart_of_respaced h.symm, isBlockStart_of_respaced h⟩

theorem isBlockEnd_respaced {a b : Text} (h : Text.Respaced a b) :
    isBlockEnd b = isBlockEnd a :=
  Bool.eq_iff_iff.mpr ⟨isBlockEnd_of_respaced h.symm, isBlockEnd_of_respaced h⟩

/-!
# All lines
-/

theorem locateFrom_respaced {old new : List Text} (h : List.Forall₂ Text.Respaced old new)
    (index : Nat) (pending : Option Nat) :
    locateFrom index pending new = locateFrom index pending old := by
  induction h generalizing index pending with
  | nil => rfl
  | cons hline _ ih =>
      unfold locateFrom
      rw [isBlockStart_respaced hline, isBlockEnd_respaced hline]
      simp only [ih]

theorem foldl_advance_respaced {old new : List Text} (h : List.Forall₂ Text.Respaced old new)
    (start : Comment.State) :
    new.foldl Comment.State.advance start = old.foldl Comment.State.advance start := by
  induction h generalizing start with
  | nil => rfl
  | cons hline _ ih =>
      rw [List.foldl_cons, List.foldl_cons, Comment.advance_respaced hline, ih]

theorem map_toggles_respaced {old new : List Text} (h : List.Forall₂ Text.Respaced old new)
    (state : Comment.State) :
    new.map (Comment.toggles · state) = old.map (Comment.toggles · state) := by
  induction h with
  | nil => rfl
  | cons hline _ ih => rw [List.map_cons, List.map_cons, Comment.toggles_respaced hline, ih]

/-- What a scan for comments and the search for the documentation block make of the
lines is the same for two files. -/
structure SameStructure (old new : List Text) : Prop where
  toggles : ∀ state, new.map (Comment.toggles · state) = old.map (Comment.toggles · state)
  sides : ∀ start index, Comment.sideAt start new index = Comment.sideAt start old index
  span : locate? new = locate? old

theorem sameStructure_of_respaced {old new : List Text}
    (h : List.Forall₂ Text.Respaced old new) : SameStructure old new where
  toggles := map_toggles_respaced h
  sides := by
    intro start index
    exact foldl_advance_respaced (List.forall₂_take index h) start
  span := locateFrom_respaced h 0 none

theorem SameStructure.trans {first second third : List Text}
    (h : SameStructure first second) (h' : SameStructure second third) :
    SameStructure first third where
  toggles := by
    intro state
    rw [h'.toggles, h.toggles]
  sides := by
    intro start index
    rw [h'.sides, h.sides]
  span := by
    rw [h'.span, h.span]

/-!
# The two changes of whitespace
-/

theorem forall₂_respaced_expand {width : Nat} (h : 0 < width) (lines : List Text) :
    List.Forall₂ Text.Respaced lines (Tabs.expand width lines).1 := by
  change List.Forall₂ Text.Respaced lines (lines.map (Tabs.expandLine width))
  rw [List.forall₂_map_right_iff, List.forall₂_same]
  intro line _
  exact Tabs.respaced_expandLine h line

theorem forall₂_respaced_changeUnit (source : Nat) {target : Nat} (h : 0 < target)
    (lines : List Text) :
    List.Forall₂ Text.Respaced lines (Indent.changeUnit source target lines).1 := by
  unfold Indent.changeUnit
  split
  · next hcalled =>
      rw [List.forall₂_map_right_iff, List.forall₂_same]
      intro line _
      exact Indent.respaced_changeLine target (Indent.pos_of_shouldChange hcalled) h line
  · exact List.forall₂_same.mpr fun line _ => Text.Respaced.refl line

/-- Neither expanding tabs nor changing the unit, nor one after the other, has an
effect on the comments of a file and on where its documentation block is found. -/
theorem whitespace_keeps_structure {width target : Nat} (hwidth : 1 ≤ width)
    (htarget : 1 ≤ target) (source : Nat) (lines : List Text) :
    SameStructure lines (Tabs.expand width lines).1 ∧
      SameStructure lines (Indent.changeUnit source target lines).1 ∧
      SameStructure lines (Indent.changeUnit source target (Tabs.expand width lines).1).1 := by
  have hexpand := sameStructure_of_respaced (forall₂_respaced_expand hwidth lines)
  have hchange : ∀ lines : List Text,
      SameStructure lines (Indent.changeUnit source target lines).1 := by
    intro lines
    exact sameStructure_of_respaced (forall₂_respaced_changeUnit source htarget lines)
  exact ⟨hexpand, hchange lines, hexpand.trans (hchange _)⟩

def spacedMarkers : List Text :=
  ["int x; */\t/*".toList, "    /*\t".toList, "Title: x".toList, "    */    /*/".toList,
   "\t*/    ".toList]

theorem whitespace_keeps_structure_spacedMarkers :
    (Indent.changeUnit 4 2 (Tabs.expand 4 spacedMarkers).1).1 =
        ["int x; */  /*".toList, "  /*  ".toList, "Title: x".toList, "  */  /*/".toList,
         "  */  ".toList] ∧
      locate? (Indent.changeUnit 4 2 (Tabs.expand 4 spacedMarkers).1).1 = some ⟨1, 4⟩ := by
  have hstructure := @whitespace_keeps_structure 4 2 (by decide) (by decide) 4 spacedMarkers
  refine ⟨by decide, ?_⟩
  rw [hstructure.2.2.span]
  decide

end DocBlock
end SourceTidy
