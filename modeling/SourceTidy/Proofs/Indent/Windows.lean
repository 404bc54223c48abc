import SourceTidy.Proofs.Indent.Inference

/-!
# The estimate by windows

The estimate is found in one pass that counts lines and restarts its count.  Told
without the pass, the lines outside of comments are cut into windows, and the unit is
the smallest indentation of the first window that has any.
-/

namespace SourceTidy
namespace Indent

open Comment (State)

/-!
# Windows
-/

/-- Consecutive windows of sixteen lines, of which the last may be shorter. -/
def windows (lines : List Text) : List (List Text) :=
  if lines = [] then [] else lines.take 16 :: windows (lines.drop 16)
termination_by lines.length
decreasing_by
  have hpos : 0 < lines.length := List.length_pos_iff.mpr ‹_›
  rw [List.length_drop]
  omega

def indentation? (line : Text) : Option Nat :=
  if 2 ≤ leadingSpaces line ∧ leadingSpaces line ≤ 119 then some (leadingSpaces line) else none

def smallest? (window : List Text) : Option Nat :=
  (window.filterMap indentation?).min?

def firstSmallest? (lines : List Text) : Option Nat :=
  (windows lines).findSome? smallest?

theorem firstSmallest?_nil : firstSmallest? [] = none := by
  rw [firstSmallest?, windows, if_pos rfl, List.findSome?_nil]

theorem firstSmallest?_eq (lines : List Text) :
    firstSmallest? lines = (smallest? (lines.take 16)).or (firstSmallest? (lines.drop 16)) := by
  by_cases hnil : lines = []
  · rw [hnil, List.take_nil, List.drop_nil, firstSmallest?_nil]
    rfl
  · rw [firstSmallest?, windows, if_neg hnil, List.findSome?_cons]
    cases smallest? (lines.take 16) <;> rfl

theorem indentation?_lt {line : Text} {run : Nat} (h : indentation? line = some run) :
    run < unmeasured := by
  rw [indentation?] at h
  split at h
  · next hcounts =>
      cases h
      exact Nat.lt_succ_of_le hcounts.2
  · cases h

theorem smallest?_lt {window : List Text} {run : Nat} (h : smallest? window = some run) :
    run < unmeasured := by
  rcases List.mem_filterMap.mp (List.min?_mem h) with ⟨line, _, hline⟩
  exact indentation?_lt hline

theorem firstSmallest?_lt {lines : List Text} {run : Nat} (h : firstSmallest? lines = some run) :
    run < unmeasured := by
  rcases List.exists_of_findSome?_eq_some h with ⟨window, _, hwindow⟩
  exact smallest?_lt hwindow

/-!
# The running minimum over a window
-/

def afterWindow (width : Nat) (window : List Text) : Nat :=
  (window.filterMap indentation?).foldl min width

theorem afterWindow_cons (width : Nat) (line : Text) (rest : List Text) :
    afterWindow width (line :: rest) = afterWindow (afterWindow width [line]) rest := by
  rw [afterWindow, ← List.singleton_append, List.filterMap_append, List.foldl_append]
  rfl

theorem narrow_measure_outside {width : Nat} (h : width ≤ unmeasured) (line : Text) :
    narrow width (measure line .outside) = afterWindow width [line] := by
  have hwindow : afterWindow width [line] = ((indentation? line).map (min width)).getD width := by
    rw [afterWindow, List.filterMap_cons]
    cases indentation? line <;> rfl
  have hshortest : shortestRun = 2 := rfl
  have hunmeasured : unmeasured = 120 := rfl
  rw [hwindow]
  by_cases hshort : leadingSpaces line < shortestRun
  · have hnone : indentation? line = none := if_neg (by omega)
    have hzero : measure line .outside = 0 := if_pos hshort
    rw [hnone, hzero]
    rfl
  · have hmeasure : measure line .outside = leadingSpaces line := if_neg hshort
    have hnarrow : narrow width (measure line .outside) = min width (leadingSpaces line) := by
      rw [hmeasure]
      exact if_pos (by omega)
    rw [hnarrow, indentation?]
    split
    · rfl
    · exact Nat.min_eq_left (by omega)

theorem afterWindow_le (width : Nat) (window : List Text) : afterWindow width window ≤ width := by
  rw [afterWindow]
  induction window.filterMap indentation? generalizing width with
  | nil => exact Nat.le_refl _
  | cons run runs ih => exact Nat.le_trans (ih _) (Nat.min_le_left _ _)

theorem afterWindow_unmeasured (window : List Text) :
    afterWindow unmeasured window = (smallest? window).getD unmeasured := by
  have hruns : ∀ run ∈ window.filterMap indentation?, run < unmeasured := by
    intro run hrun
    rcases List.mem_filterMap.mp hrun with ⟨line, _, hline⟩
    exact indentation?_lt hline
  rw [afterWindow, smallest?]
  cases hcases : window.filterMap indentation? with
  | nil => rfl
  | cons run runs =>
      rw [hcases] at hruns
      have hrun := hruns run List.mem_cons_self
      rw [List.foldl_cons, Nat.min_eq_right (Nat.le_of_lt hrun), List.min?_cons']
      rfl

/-!
# The pass

With some lines of a window left, the pass ends with the minimum over them, unless that
is still unset.  Then the windows that follow decide.
-/

/-- The minimum that is found in the `left` next lines, or else in the windows after them. -/
def settledWidth (width left : Nat) (lines : List Text) : Nat :=
  if afterWindow width (lines.take left) = unmeasured then
    (firstSmallest? (lines.drop left)).getD unmeasured
  else
    afterWindow width (lines.take left)

theorem settledWidth_nil (width left : Nat) : settledWidth width left [] = width := by
  rw [settledWidth, List.take_nil, List.drop_nil, firstSmallest?_nil]
  split
  · next hunset => exact hunset.symm
  · rfl

theorem settledWidth_cons (width left : Nat) (line : Text) (rest : List Text) :
    settledWidth width (left + 1) (line :: rest) =
      settledWidth (afterWindow width [line]) left rest := by
  rw [settledWidth, List.take_succ_cons, List.drop_succ_cons, afterWindow_cons]
  rfl

theorem settledWidth_zero {width : Nat} (h : width ≠ unmeasured) (lines : List Text) :
    settledWidth width 0 lines = width :=
  if_neg h

theorem settledWidth_window (lines : List Text) :
    settledWidth unmeasured 16 lines = (firstSmallest? lines).getD unmeasured := by
  rw [settledWidth, firstSmallest?_eq lines, afterWindow_unmeasured]
  cases hwindow : smallest? (lines.take 16) with
  | none => exact if_pos rfl
  | some run => exact if_neg (Nat.ne_of_lt (smallest?_lt hwindow))

theorem probe_eq_settledWidth {width seen : Nat} (hseen : seen < windowSize)
    (hwidth : width ≤ unmeasured) (state : State) (lines : List Text) :
    probe state width seen lines =
      settledWidth width (windowSize - seen) (Comment.outsideLines state lines) := by
  induction lines generalizing state width seen with
  | nil => exact (settledWidth_nil _ _).symm
  | cons line rest ih =>
      have hnotFull : ¬ windowSize ≤ seen := Nat.not_le.mpr hseen
      cases hstate : state.advance line with
      | inside =>
          have houtside : Comment.outsideLines state (line :: rest) =
              Comment.outsideLines .inside rest := by
            rw [Comment.outsideLines, hstate, if_neg (by decide)]
          rw [probe_cons_inside hnotFull hstate, houtside]
          exact ih hseen hwidth .inside
      | outside =>
          have houtside : Comment.outsideLines state (line :: rest) =
              line :: Comment.outsideLines .outside rest := by
            rw [Comment.outsideLines, hstate, if_pos rfl]
          have hleft : windowSize - seen = windowSize - (seen + 1) + 1 := by omega
          rw [probe_cons hnotFull, hstate, narrow_measure_outside hwidth, houtside, hleft,
            settledWidth_cons]
          have hnext : afterWindow width [line] ≤ unmeasured :=
            Nat.le_trans (afterWindow_le width [line]) hwidth
          generalize afterWindow width [line] = width' at hnext
          by_cases hlast : seen + 1 = windowSize
          · -- The line ends its window, and the count starts anew if nothing was found.
            rw [hlast, Nat.sub_self]
            by_cases hunset : width' = unmeasured
            · have htally : tally .outside width' seen = 0 := by
                simp [tally, hlast, hunset]
              rw [htally, hunset, ih (by decide) (Nat.le_refl _), Nat.sub_zero]
              exact settledWidth_window _
            · have htally : tally .outside width' seen = windowSize := by
                simp [tally, hlast, hunset]
              rw [htally, probe_full (Nat.le_refl _), settledWidth_zero hunset]
          · have htally : tally .outside width' seen = seen + 1 := by
              simp [tally, hlast]
            rw [htally]
            exact ih (by omega) hnext .outside

/-- The estimate is the smallest indentation of the first window outside of comments that
has any, or else zero.  So it is zero or lies in the range that is measured. -/
theorem infer_eq_firstSmallest (lines : List Text) :
    infer lines =
        ((windows (Comment.outsideLines .outside lines)).findSome? smallest?).getD 0 ∧
      (infer lines = 0 ∨ 2 ≤ infer lines ∧ infer lines ≤ 119) := by
  constructor
  · have hprobe : probe .outside unmeasured 0 lines =
        (firstSmallest? (Comment.outsideLines .outside lines)).getD unmeasured := by
      rw [probe_eq_settledWidth (by decide) (Nat.le_refl _), Nat.sub_zero]
      exact settledWidth_window _
    change infer lines = (firstSmallest? (Comment.outsideLines .outside lines)).getD 0
    rw [infer, hprobe]
    cases hfirst : firstSmallest? (Comment.outsideLines .outside lines) with
    | none => rfl
    | some run =>
        have hrun := firstSmallest?_lt hfirst
        exact if_neg (Nat.ne_of_lt hrun)
  · rcases infer_cases lines with hzero | ⟨hlong, hshort, _⟩
    · exact Or.inl hzero
    · exact Or.inr ⟨hlong, Nat.le_of_lt_succ hshort⟩

end Indent
end SourceTidy
