import SourceTidy.Proofs.Comment.Toggling
import SourceTidy.Proofs.Indent.Runs

/-!
# The estimated unit

The estimate is zero or the length of the run at the beginning of some line, so a
change that is called for finds something to change.  After the change the
estimate is the new unit, as long as the new unit is long enough to be measured
and no line outside of comments starts with a run that is too long.
-/

namespace SourceTidy
namespace Indent

open Comment (State)

/-!
# One line
-/

def narrow (width current : Nat) : Nat :=
  if 0 < current then min width current else width

def tally (state : State) (width seen : Nat) : Nat :=
  let seen := if state = .outside then seen + 1 else seen
  if seen = windowSize ∧ width = unmeasured then 0 else seen

theorem probe_full {seen : Nat} (h : windowSize ≤ seen) (state : State) (width : Nat)
    (lines : List Text) : probe state width seen lines = width := by
  cases lines with
  | nil => rfl
  | cons line rest => rw [probe, if_pos h]

theorem probe_cons {seen : Nat} (h : ¬ windowSize ≤ seen) (state : State) (width : Nat)
    (line : Text) (rest : List Text) :
    probe state width seen (line :: rest) =
      probe (state.advance line) (narrow width (measure line (state.advance line)))
        (tally (state.advance line) (narrow width (measure line (state.advance line))) seen)
        rest := by
  rw [probe, if_neg h]
  rfl

theorem narrow_le (width current : Nat) : narrow width current ≤ width := by
  rw [narrow]
  split
  · exact Nat.min_le_left _ _
  · exact Nat.le_refl _

theorem narrow_cases (width current : Nat) :
    narrow width current = width ∨ narrow width current = current ∧ 0 < current := by
  rw [narrow]
  split
  · next hpos =>
      rcases Nat.le_total width current with hle | hle
      · exact Or.inl (Nat.min_eq_left hle)
      · exact Or.inr ⟨Nat.min_eq_right hle, hpos⟩
  · exact Or.inl rfl

theorem measure_cases (line : Text) (state : State) :
    measure line state = 0 ∨
      state = .outside ∧ shortestRun ≤ leadingSpaces line ∧
        measure line state = leadingSpaces line := by
  cases state with
  | inside => exact Or.inl rfl
  | outside =>
      rw [measure]
      split
      · exact Or.inl rfl
      · next hlong => exact Or.inr ⟨rfl, Nat.le_of_not_lt hlong, rfl⟩

/-!
# All lines
-/

theorem probe_le (state : State) (width seen : Nat) (lines : List Text) :
    probe state width seen lines ≤ width := by
  induction lines generalizing state width seen with
  | nil => exact Nat.le_refl _
  | cons line rest ih =>
      by_cases hfull : windowSize ≤ seen
      · exact Nat.le_of_eq (probe_full hfull _ _ _)
      · rw [probe_cons hfull]
        exact Nat.le_trans (ih _ _ _) (narrow_le _ _)

/-- The minimum is the one it started with or the run of some line. -/
theorem probe_cases (state : State) (width seen : Nat) (lines : List Text) :
    probe state width seen lines = width ∨
      ∃ line ∈ lines, leadingSpaces line = probe state width seen lines ∧
        shortestRun ≤ leadingSpaces line := by
  induction lines generalizing state width seen with
  | nil => exact Or.inl rfl
  | cons line rest ih =>
      by_cases hfull : windowSize ≤ seen
      · exact Or.inl (probe_full hfull _ _ _)
      · rw [probe_cons hfull]
        rcases ih (state.advance line) (narrow width (measure line (state.advance line)))
          (tally (state.advance line) (narrow width (measure line (state.advance line))) seen) with
          hstart | ⟨other, hother, hrun⟩
        · rw [hstart]
          rcases narrow_cases width (measure line (state.advance line)) with
            hsame | ⟨hnew, hpos⟩
          · exact Or.inl hsame
          · rcases measure_cases line (state.advance line) with hzero | ⟨_, hlong, hmeasure⟩
            · omega
            · rw [hnew, hmeasure]
              exact Or.inr ⟨line, List.mem_cons_self, rfl, hlong⟩
        · exact Or.inr ⟨other, List.mem_cons_of_mem line hother, hrun⟩

theorem infer_cases (lines : List Text) :
    infer lines = 0 ∨
      shortestRun ≤ infer lines ∧ infer lines < unmeasured ∧
        infer lines = probe .outside unmeasured 0 lines ∧
        ∃ line ∈ lines, leadingSpaces line = infer lines := by
  rw [infer]
  split
  · exact Or.inl rfl
  · next hfound =>
      rcases probe_cases .outside unmeasured 0 lines with hnone | ⟨line, hline, hrun, hlong⟩
      · exact absurd hnone hfound
      · have hle := probe_le .outside unmeasured 0 lines
        rw [hrun] at hlong
        exact Or.inr ⟨hlong, by omega, rfl, line, hline, hrun⟩

theorem changeUnit_changes {lines : List Text} {target : Nat}
    (h : shouldChange (infer lines) target = true) :
    (changeUnit (infer lines) target lines).2 = true := by
  rw [changeUnit, if_pos h]
  rcases infer_cases lines with hzero | ⟨_, _, _, line, hline, hrun⟩
  · rw [hzero] at h
    cases h
  · apply List.any_eq_true.mpr
    exact ⟨line, hline, occurs_of_leadingSpaces (Nat.le_of_eq hrun.symm)⟩

/-!
# After the change

The scan over the changed lines runs in step with the one over the old lines.  Its
minimum is still unset as long as the old one is, is never below the new unit, and
is the new unit as soon as the old minimum is the old unit.
-/

section AfterChange

variable {source target : Nat}

/-- How the minimum over changed lines goes with the minimum over the old ones. -/
def InStep (source target width width' : Nat) : Prop :=
  width = unmeasured ∧ width' = unmeasured ∨
    width ≠ unmeasured ∧ target ≤ width' ∧ (width = source → width' = target)

theorem InStep.narrow {width width' current current' : Nat} (h : InStep source target width width')
    (hsource : source ≤ min width current) (hmeasured : current < unmeasured)
    (htarget : target < unmeasured) (hle : target ≤ current')
    (hunit : current = source → current' = target) :
    InStep source target (min width current) (min width' current') := by
  refine Or.inr ?_
  rcases h with ⟨rfl, rfl⟩ | ⟨_, hwide, hunit'⟩
  · refine ⟨by omega, by omega, ?_⟩
    intro heq
    have hcurrent := hunit (by omega)
    omega
  · refine ⟨by omega, by omega, ?_⟩
    intro heq
    by_cases hwidth : width = source
    · have hnew := hunit' hwidth
      omega
    · have hcurrent := hunit (by omega)
      omega

theorem measure_changeLine_eq_zero (hsource : shortestRun ≤ source) {line : Text} {state : State}
    (h : measure line state = 0) : measure (changeLine source target line) state = 0 := by
  cases state with
  | inside => rfl
  | outside =>
      have hpos : 0 < source := Nat.lt_of_lt_of_le (by decide) hsource
      have hshort : leadingSpaces line < shortestRun := by
        rw [measure] at h
        split at h
        · next hshort => exact hshort
        · next hlong =>
            rw [h] at hlong
            exact absurd (by decide) hlong
      rw [measure, leadingSpaces_changeLine target hpos,
        changedRun_of_lt target (Nat.lt_of_lt_of_le hshort hsource), if_pos hshort]

theorem InStep.line (hsource : shortestRun ≤ source) (htarget : shortestRun ≤ target)
    (htarget' : target < unmeasured) {width width' : Nat} (h : InStep source target width width')
    {line : Text} {state : State} (hrun : state = .outside → leadingSpaces line < unmeasured)
    (hle : source ≤ Indent.narrow width (measure line state)) :
    InStep source target (Indent.narrow width (measure line state))
      (Indent.narrow width' (measure (changeLine source target line) state)) := by
  have hpos : 0 < source := Nat.lt_of_lt_of_le (by decide) hsource
  rcases measure_cases line state with hzero | ⟨rfl, hlong, hmeasure⟩
  · rw [hzero, measure_changeLine_eq_zero hsource hzero]
    exact h
  · have hnarrow : Indent.narrow width (measure line .outside) =
        min width (leadingSpaces line) := by
      rw [hmeasure, Indent.narrow, if_pos (Nat.lt_of_lt_of_le (by decide) hlong)]
    rw [hnarrow] at hle ⊢
    have hreach : target ≤ changedRun source target (leadingSpaces line) :=
      le_changedRun target hpos (Nat.le_trans hle (Nat.min_le_right _ _))
    have hmeasure' : measure (changeLine source target line) .outside =
        changedRun source target (leadingSpaces line) := by
      rw [measure, leadingSpaces_changeLine target hpos,
        if_neg (Nat.not_lt.mpr (Nat.le_trans htarget hreach))]
    rw [hmeasure', Indent.narrow,
      if_pos (Nat.lt_of_lt_of_le (by decide) (Nat.le_trans htarget hreach))]
    apply h.narrow hle (hrun rfl) htarget' hreach
    intro hunit
    rw [hunit, changedRun_self target hpos]

theorem InStep.eq_target (hsource : source < unmeasured) {width width' : Nat}
    (h : InStep source target width width') (heq : width = source) : width' = target := by
  rcases h with ⟨hunset, _⟩ | ⟨_, _, hunit⟩
  · omega
  · exact hunit heq

/-- The windows end at the same lines: a full one is the last, unless both minima
are unset. -/
theorem tally_eq (htarget : target < unmeasured) {state : State} {width width' seen : Nat}
    (h : InStep source target width width') {rest : List Text}
    (hprobe : probe state width (tally state width seen) rest = source) :
    tally state width' seen = tally state width seen := by
  rcases h with ⟨rfl, rfl⟩ | hset
  · rfl
  · have hmeasured : ¬ ((if state = .outside then seen + 1 else seen) = windowSize ∧
        width = unmeasured) := fun hreset => hset.1 hreset.2
    have htally : tally state width seen = if state = .outside then seen + 1 else seen :=
      if_neg hmeasured
    rw [htally] at hprobe ⊢
    apply if_neg
    intro hreset
    rcases hreset with ⟨hfull, hunset⟩
    rw [probe_full (Nat.le_of_eq hfull.symm)] at hprobe
    have hwidth := hset.2.2 hprobe
    omega

theorem probe_changeLine (hsource : shortestRun ≤ source) (hsource' : source < unmeasured)
    (htarget : shortestRun ≤ target) (htarget' : target < unmeasured)
    {state : State} {width width' seen : Nat} {lines : List Text}
    (hruns : ∀ line ∈ Comment.outsideLines state lines, leadingSpaces line < unmeasured)
    (hprobe : probe state width seen lines = source) (hstep : InStep source target width width') :
    probe state width' seen (lines.map (changeLine source target)) = target := by
  induction lines generalizing state width width' seen with
  | nil => exact hstep.eq_target hsource' hprobe
  | cons line rest ih =>
      by_cases hfull : windowSize ≤ seen
      · rw [probe_full hfull] at hprobe ⊢
        exact hstep.eq_target hsource' hprobe
      · have hspaces : Text.Respaced line (changeLine source target line) :=
          respaced_changeLine target (Nat.lt_of_lt_of_le (by decide) hsource)
            (Nat.lt_of_lt_of_le (by decide) htarget) line
        rw [probe_cons hfull] at hprobe
        rw [List.map_cons, probe_cons hfull, Comment.advance_respaced hspaces]
        have hle : source ≤ Indent.narrow width (measure line (state.advance line)) := by
          rw [← hprobe]
          exact probe_le _ _ _ _
        have hrun : state.advance line = .outside → leadingSpaces line < unmeasured := by
          intro houtside
          exact hruns line (Comment.mem_outsideLines_head houtside)
        have hstep' := InStep.line hsource htarget htarget' hstep hrun hle
        rw [tally_eq htarget' hstep' hprobe]
        apply ih _ hprobe hstep'
        intro other hother
        exact hruns other (Comment.mem_outsideLines_tail hother)

/-- Unless a run outside of comments is too long, the new unit is the one that is found. -/
theorem infer_changeUnit (htarget : shortestRun ≤ target) (htarget' : target < unmeasured)
    {lines : List Text}
    (hruns : ∀ line ∈ Comment.outsideLines .outside lines, leadingSpaces line < unmeasured)
    (hcalled : shouldChange (infer lines) target = true) :
    infer (changeUnit (infer lines) target lines).1 = target := by
  rw [changeUnit, if_pos hcalled]
  rcases infer_cases lines with hzero | ⟨hlong, hshort, hprobe, _⟩
  · rw [hzero] at hcalled
    cases hcalled
  · have hnew := probe_changeLine hlong hshort htarget htarget' hruns hprobe.symm
      (Or.inl ⟨rfl, rfl⟩)
    rw [infer, hnew]
    exact if_neg (Nat.ne_of_lt htarget')

theorem shouldChange_self (unit : Nat) : shouldChange unit unit = false := by
  simp [shouldChange]

end AfterChange

/-!
# Passing over a comment

A comment that starts from the outside and ends in a line without indentation
counts for one line, whatever it holds.
-/

theorem probe_cons_inside {seen : Nat} (hseen : ¬ windowSize ≤ seen) {state : State} {line : Text}
    (h : state.advance line = .inside) (width : Nat) (rest : List Text) :
    probe state width seen (line :: rest) = probe .inside width seen rest := by
  have hnot : ¬ (seen = windowSize ∧ width = unmeasured) := by
    intro hreset
    rcases hreset with ⟨hfull, _⟩
    exact hseen (Nat.le_of_eq hfull.symm)
  have htally : tally .inside width seen = seen := by
    simp [tally, hnot]
  have hnarrow : narrow width (measure line .inside) = width := rfl
  rw [probe_cons hseen, h, hnarrow, htally]

end Indent
end SourceTidy
