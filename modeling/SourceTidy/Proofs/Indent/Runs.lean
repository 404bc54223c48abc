import SourceTidy.Indent
import SourceTidy.Proofs.Text.Markers
import SourceTidy.Proofs.Text.Respacing
import SourceTidy.Proofs.Text.Spacing

/-!
# Runs of spaces under a change of unit

Changing the unit works through a run of spaces unit by unit and leaves what is
too short for another one.  So the result is a respaced form of the line, in which
the length of each run can be computed from the old one.
-/

namespace SourceTidy
namespace Indent

open Text (Spacing)

/-!
# Leading spaces
-/

theorem leadingSpaces_space (rest : Text) :
    leadingSpaces (' ' :: rest) = leadingSpaces rest + 1 := by
  simp [leadingSpaces]

theorem leadingSpaces_other {c : Char} (hc : c ≠ ' ') (rest : Text) :
    leadingSpaces (c :: rest) = 0 := by
  simp [leadingSpaces, hc]

theorem replicate_prefix_iff (n : Nat) (line : Text) :
    List.replicate n ' ' <+: line ↔ n ≤ leadingSpaces line := by
  induction line generalizing n with
  | nil => simp [leadingSpaces]
  | cons c rest ih =>
      cases n with
      | zero => simp
      | succ n =>
          rw [List.replicate_succ, List.cons_prefix_cons, ih]
          by_cases hc : c = ' '
          · rw [hc, leadingSpaces_space]
            simp
          · rw [leadingSpaces_other hc]
            simp [Ne.symm hc]

theorem leadingSpaces_eq_first (line : Text) :
    leadingSpaces line = (Spacing.ofText line).first := by
  induction line with
  | nil => rfl
  | cons c rest ih =>
      by_cases hc : c = ' '
      · rw [hc, leadingSpaces_space, Spacing.ofText_space, ih, Nat.add_comm]
        rfl
      · rw [leadingSpaces_other hc, Spacing.ofText_other hc]
        rfl

theorem occurs_replicate_iff (n : Nat) (line : Text) :
    Text.occurs (List.replicate n ' ') line = true ↔
      ∃ run ∈ (Spacing.ofText line).runs, n ≤ run := by
  induction line with
  | nil => simp [Text.occurs, Spacing.ofText, Spacing.runs]
  | cons c rest ih =>
      rw [Text.occurs, Bool.or_eq_true, List.isPrefixOf_iff_prefix, replicate_prefix_iff, ih]
      by_cases hc : c = ' '
      · -- The first run is the only one that is longer by the space.
        rw [hc, leadingSpaces_space, leadingSpaces_eq_first, Spacing.ofText_space]
        simp only [Spacing.runs, Spacing.widen, List.mem_cons, exists_eq_or_imp]
        rw [← or_assoc]
        apply or_congr_left
        omega
      · rw [leadingSpaces_other hc, Spacing.ofText_other hc]
        simp [Spacing.runs, Spacing.push]

theorem occurs_of_leadingSpaces {n : Nat} {line : Text} (h : n ≤ leadingSpaces line) :
    Text.occurs (List.replicate n ' ') line = true := by
  rw [Text.occurs_iff]
  exact ((replicate_prefix_iff n line).mpr h).isInfix

/-!
# Changing the unit of a line
-/

section Change

variable {source : Nat} (target : Nat)

theorem replicate_ne_nil (h : 0 < source) : List.replicate source ' ' ≠ [] := by
  simp
  omega

theorem changeLine_append (h : 0 < source) (rest : Text) :
    changeLine source target (List.replicate source ' ' ++ rest) =
      List.replicate target ' ' ++ changeLine source target rest :=
  Text.substitute_append (replicate_ne_nil h) rest

theorem changeLine_cons {c : Char} {rest : Text}
    (h : ¬ List.replicate source ' ' <+: c :: rest) :
    changeLine source target (c :: rest) = c :: changeLine source target rest :=
  Text.substitute_cons h

/-- The length that a run of spaces gets. -/
def changedRun (source target run : Nat) : Nat :=
  run / source * target + run % source

theorem changedRun_of_lt {run : Nat} (h : run < source) :
    changedRun source target run = run := by
  rw [changedRun, Nat.div_eq_of_lt h, Nat.mod_eq_of_lt h, Nat.zero_mul, Nat.zero_add]

theorem changedRun_add (h : 0 < source) (run : Nat) :
    changedRun source target (source + run) = target + changedRun source target run := by
  rw [changedRun, changedRun, Nat.add_div_left run h, Nat.add_mod_left, Nat.succ_mul]
  omega

theorem le_changedRun (h : 0 < source) {run : Nat} (hrun : source ≤ run) :
    target ≤ changedRun source target run := by
  rcases Nat.exists_eq_add_of_le hrun with ⟨rest, rfl⟩
  rw [changedRun_add target h]
  exact Nat.le_add_right _ _

theorem changedRun_self (h : 0 < source) : changedRun source target source = target := by
  have hrun := changedRun_add target h 0
  rwa [Nat.add_zero, changedRun_of_lt target h, Nat.add_zero] at hrun

/-- Each run gets the length that is computed for it, and nothing else changes. -/
theorem ofText_changeLine (h : 0 < source) (line : Text) :
    Spacing.ofText (changeLine source target line) =
      (Spacing.ofText line).mapRuns (changedRun source target) := by
  have hzero : changedRun source target 0 = 0 := changedRun_of_lt target h
  induction line using Text.substitute_induction (replicate_ne_nil h) with
  | nil => exact congrArg (Spacing.mk · []) hzero.symm
  | found rest ih =>
      rw [changeLine_append target h, Spacing.ofText_replicate_append, ih,
        Spacing.ofText_replicate_append]
      simp only [Spacing.mapRuns, Spacing.widen, changedRun_add target h]
  | other c rest hrun ih =>
      rw [changeLine_cons target hrun]
      by_cases hc : c = ' '
      · -- The run is too short for a unit, and so is the rest of it.
        rw [replicate_prefix_iff, hc, leadingSpaces_space, leadingSpaces_eq_first] at hrun
        rw [hc, Spacing.ofText_space, Spacing.ofText_space, ih]
        simp only [Spacing.mapRuns, Spacing.widen, Spacing.mk.injEq, and_true]
        rw [changedRun_of_lt target (by omega), changedRun_of_lt target (by omega)]
      · rw [Spacing.ofText_other hc, Spacing.ofText_other hc, ih, Spacing.mapRuns_push hzero]

theorem leadingSpaces_changeLine (h : 0 < source) (line : Text) :
    leadingSpaces (changeLine source target line) =
      changedRun source target (leadingSpaces line) := by
  rw [leadingSpaces_eq_first, leadingSpaces_eq_first, ofText_changeLine target h]
  rfl

theorem isGap_replicate (n : Nat) : ∀ c ∈ List.replicate n ' ', Text.IsGap c := by
  intro c hc
  exact Or.inl (List.eq_of_mem_replicate hc)

theorem respaced_changeLine (hsource : 0 < source) (htarget : 0 < target) (line : Text) :
    Text.Respaced line (changeLine source target line) := by
  induction line using Text.substitute_induction (replicate_ne_nil hsource) with
  | nil => exact Text.Respaced.nil
  | found rest ih =>
      rw [changeLine_append target hsource]
      exact Text.Respaced.gap (replicate_ne_nil hsource) (replicate_ne_nil htarget)
        (isGap_replicate source) (isGap_replicate target) ih
  | other c rest hrun ih =>
      rw [changeLine_cons target hrun]
      exact ih.cons c

theorem mem_changeLine (h : 0 < source) {line : Text} {c : Char}
    (hc : c ∈ changeLine source target line) : c = ' ' ∨ c ∈ line := by
  induction line using Text.substitute_induction (replicate_ne_nil h) with
  | nil => exact Or.inr hc
  | found rest ih =>
      rw [changeLine_append target h] at hc
      rcases List.mem_append.mp hc with hspace | hrest
      · exact Or.inl (List.eq_of_mem_replicate hspace)
      · rcases ih hrest with hspace | hmem
        · exact Or.inl hspace
        · exact Or.inr (List.mem_append_right _ hmem)
  | other d rest hrun ih =>
      rw [changeLine_cons target hrun] at hc
      rcases List.mem_cons.mp hc with rfl | hrest
      · exact Or.inr List.mem_cons_self
      · rcases ih hrest with hspace | hmem
        · exact Or.inl hspace
        · exact Or.inr (List.mem_cons_of_mem d hmem)

end Change

theorem pos_of_shouldChange {source target : Nat} (h : shouldChange source target = true) :
    0 < source := by
  apply Nat.pos_of_ne_zero
  rintro rfl
  cases h

end Indent
end SourceTidy
