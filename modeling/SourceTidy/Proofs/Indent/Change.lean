import Mathlib.Order.Monotone.Defs
import SourceTidy.Proofs.Indent.Inference
import SourceTidy.Tidy

/-!
# Changing the unit of a file

The new length of a run is that of its whole units in the new measure and of what is left
over.  From this it follows when a file is changed at all, that no line overtakes another
one unless the unit shrinks by more than a space, and that a wider unit can be taken back.
The unit that is found after a change is the one that was asked for.
-/

namespace SourceTidy
namespace Indent

open Text (Spacing)

/-!
# The length of one run
-/

section Length

variable {source target : Nat}

theorem changedRun_eq_self_iff (hsource : 0 < source) (hne : source ≠ target) (run : Nat) :
    changedRun source target run = run ↔ run < source := by
  constructor
  · intro h
    by_contra hlong
    have hunits : run / source * target = run / source * source := by
      have hrun := Nat.div_add_mod' run source
      rw [changedRun] at h
      omega
    have hpos : 0 < run / source := Nat.div_pos (Nat.le_of_not_lt hlong) hsource
    exact hne (Nat.eq_of_mul_eq_mul_left hpos hunits).symm
  · exact changedRun_of_lt target

/-- Of two runs the longer one has as many units and more left over, or it has more units. -/
theorem changedRun_gap (source target : Nat) {a b : Nat} (h : a ≤ b) :
    changedRun source target a + (b - a) = changedRun source target b ∨
      changedRun source target a + target ≤ changedRun source target b + a % source := by
  have ha := Nat.div_add_mod' a source
  have hb := Nat.div_add_mod' b source
  rw [changedRun, changedRun]
  rcases Nat.lt_or_eq_of_le (Nat.div_le_div_right h : a / source ≤ b / source) with hless | hsame
  · have hunits : (a / source + 1) * target ≤ b / source * target :=
      Nat.mul_le_mul_right target hless
    rw [Nat.succ_mul] at hunits
    exact Or.inr (by omega)
  · rw [hsame] at ha ⊢
    exact Or.inl (by omega)

theorem changedRun_monotone (hsource : 0 < source) (h : source ≤ target + 1) :
    Monotone (changedRun source target) := by
  intro a b hle
  have hrest := Nat.mod_lt a hsource
  rcases changedRun_gap source target hle with hsame | hmore
  · omega
  · omega

theorem changedRun_strictMono (hsource : 0 < source) (h : source ≤ target) :
    StrictMono (changedRun source target) := by
  intro a b hlt
  have hrest := Nat.mod_lt a hsource
  rcases changedRun_gap source target (Nat.le_of_lt hlt) with hsame | hmore
  · omega
  · omega

theorem changedRun_changedRun (hsource : 0 < source) (h : source < target) (run : Nat) :
    changedRun target source (changedRun source target run) = run := by
  have hpos : 0 < target := Nat.lt_trans hsource h
  have hrest : run % source < target := Nat.lt_trans (Nat.mod_lt run hsource) h
  have hunits : changedRun source target run / target = run / source := by
    rw [changedRun, Nat.add_comm, Nat.add_mul_div_right _ _ hpos, Nat.div_eq_of_lt hrest,
      Nat.zero_add]
  have hleft : changedRun source target run % target = run % source := by
    rw [changedRun, Nat.add_comm, Nat.add_mul_mod_self_right, Nat.mod_eq_of_lt hrest]
  rw [changedRun, hunits, hleft, Nat.div_add_mod']

theorem le_changedRun_iff (hsource : 0 < source) (h : source < target) (run : Nat) :
    target ≤ changedRun source target run ↔ source ≤ run := by
  constructor
  · intro hle
    by_contra hshort
    rw [changedRun_of_lt target (Nat.lt_of_not_le hshort)] at hle
    omega
  · exact le_changedRun target hsource

end Length

/-!
# The runs of a file
-/

theorem ne_of_shouldChange {source target : Nat} (h : shouldChange source target = true) :
    source ≠ target := by
  rintro rfl
  rw [shouldChange_self] at h
  cases h

theorem changeUnit_flag_iff {source target : Nat} (h : shouldChange source target = true)
    (lines : List Text) :
    (changeUnit source target lines).2 = true ↔
      ∃ line ∈ lines, ∃ run ∈ (Spacing.ofText line).runs, source ≤ run := by
  rw [changeUnit, if_pos h, List.any_eq_true]
  simp only [occurs_replicate_iff]

theorem changeLine_eq_self_iff {source target : Nat} (h : shouldChange source target = true)
    (line : Text) :
    changeLine source target line = line ↔
      ∀ run ∈ (Spacing.ofText line).runs, run < source := by
  have hpos := pos_of_shouldChange h
  rw [← Spacing.ofText_injective.eq_iff, ofText_changeLine target hpos,
    Spacing.mapRuns_eq_self_iff]
  simp only [changedRun_eq_self_iff hpos (ne_of_shouldChange h)]

theorem changeUnit_flag_iff_ne {source target : Nat} (h : shouldChange source target = true)
    (lines : List Text) :
    (changeUnit source target lines).2 = true ↔ (changeUnit source target lines).1 ≠ lines := by
  have hsame : lines.map (changeLine source target) = lines.map id ↔
      ∀ line ∈ lines, changeLine source target line = line := List.map_inj_left
  rw [List.map_id] at hsame
  rw [changeUnit_flag_iff h, changeUnit, if_pos h, Ne, hsame]
  simp only [changeLine_eq_self_iff h, not_forall, exists_prop, Nat.not_lt]

/-- Two lines whose leading spaces stand in some order stand in it still. -/
def KeepsOrder (order : Nat → Nat → Prop) (old new : List Text) : Prop :=
  ∀ a ∈ old.zip new, ∀ b ∈ old.zip new,
    order (leadingSpaces a.1) (leadingSpaces b.1) → order (leadingSpaces a.2) (leadingSpaces b.2)

theorem keepsOrder_map_changeLine {source target : Nat} (hsource : 0 < source)
    {order : Nat → Nat → Prop}
    (h : ∀ a b, order a b → order (changedRun source target a) (changedRun source target b))
    (lines : List Text) : KeepsOrder order lines (lines.map (changeLine source target)) := by
  have hpair : ∀ pair ∈ lines.zip (lines.map (changeLine source target)),
      leadingSpaces pair.2 = changedRun source target (leadingSpaces pair.1) := by
    intro pair hmem
    rw [← List.map_prod_left_eq_zip] at hmem
    rcases List.mem_map.mp hmem with ⟨line, _, rfl⟩
    exact leadingSpaces_changeLine target hsource line
  intro a ha b hb horder
  rw [hpair a ha, hpair b hb]
  exact h _ _ horder

/-- Every run of spaces gets the length of its whole units in the new measure and of what
is left over, and the other characters stay as they are.  The flag says whether there is a
run of a unit or more, and also whether any line is changed.  The order of the lines by
their leading spaces is kept if the unit shrinks by one space at most, and strictly so if
it grows. -/
theorem changeUnit_by_runs {source target : Nat} (h : shouldChange source target = true)
    (lines : List Text) :
    (changeUnit source target lines).1.map Spacing.ofText =
        lines.map (fun line =>
          (Spacing.ofText line).mapRuns fun run => run / source * target + run % source) ∧
      ((changeUnit source target lines).2 = true ↔
        ∃ line ∈ lines, ∃ run ∈ (Spacing.ofText line).runs, source ≤ run) ∧
      ((changeUnit source target lines).2 = true ↔ (changeUnit source target lines).1 ≠ lines) ∧
      (source - 1 ≤ target → KeepsOrder (· ≤ ·) lines (changeUnit source target lines).1) ∧
      (source ≤ target → KeepsOrder (· < ·) lines (changeUnit source target lines).1) := by
  have hpos := pos_of_shouldChange h
  have hlines : (changeUnit source target lines).1 = lines.map (changeLine source target) := by
    rw [changeUnit, if_pos h]
  refine ⟨?_, changeUnit_flag_iff h lines, changeUnit_flag_iff_ne h lines, ?_, ?_⟩
  · rw [hlines, List.map_map]
    apply List.map_congr_left
    intro line _
    exact ofText_changeLine target hpos line
  · intro hunit
    rw [hlines]
    refine keepsOrder_map_changeLine hpos ?_ lines
    intro a b hle
    exact changedRun_monotone hpos (by omega) hle
  · intro hunit
    rw [hlines]
    refine keepsOrder_map_changeLine hpos ?_ lines
    intro a b hlt
    exact changedRun_strictMono hpos hunit hlt

def ragged : List Text :=
  ["    x     = 1;  ".toList, "   y".toList, " z".toList, "\t        ".toList]

theorem changeUnit_by_runs_ragged :
    shouldChange 4 3 = true ∧
      (changeUnit 4 3 ragged).1 =
        ["   x    = 1;  ".toList, "   y".toList, " z".toList, "\t      ".toList] ∧
      (changeUnit 4 3 ragged).1 ≠ ragged ∧
      KeepsOrder (· ≤ ·) ragged (changeUnit 4 3 ragged).1 := by
  have hcalled : shouldChange 4 3 = true := rfl
  rcases changeUnit_by_runs hcalled ragged with ⟨_, _, hchanged, horder, _⟩
  exact ⟨hcalled, by decide, hchanged.mp (by decide), horder (by decide)⟩

/-!
# Taking a wider unit back
-/

theorem changeLine_changeLine {source target : Nat} (hsource : 0 < source)
    (h : source < target) (line : Text) :
    changeLine target source (changeLine source target line) = line := by
  have hpos : 0 < target := Nat.lt_trans hsource h
  apply Spacing.ofText_injective
  rw [ofText_changeLine source hpos, ofText_changeLine target hsource, Spacing.mapRuns_mapRuns,
    Spacing.mapRuns_eq_self_iff]
  intro run _
  exact changedRun_changedRun hsource h run

/-- A wider unit appears exactly where the old one was. -/
theorem occurs_changeLine {source target : Nat} (hsource : 0 < source) (h : source < target)
    (line : Text) :
    Text.occurs (List.replicate target ' ') (changeLine source target line) =
      Text.occurs (List.replicate source ' ') line := by
  rw [Bool.eq_iff_iff, occurs_replicate_iff, occurs_replicate_iff, ofText_changeLine target hsource,
    Spacing.runs_mapRuns]
  simp only [List.mem_map, exists_exists_and_eq_and, le_changedRun_iff hsource h]

/-- Widening the unit and narrowing it again gives back every line, with the same flag. -/
theorem changeUnit_undone {source target : Nat} (hless : source < target)
    (hthere : shouldChange source target = true) (hback : shouldChange target source = true)
    (lines : List Text) :
    changeUnit target source (changeUnit source target lines).1 =
      (lines, (changeUnit source target lines).2) := by
  have hpos := pos_of_shouldChange hthere
  have hlines : changeLine target source ∘ changeLine source target = id :=
    funext (changeLine_changeLine hpos hless)
  have hflag : Text.occurs (List.replicate target ' ') ∘ changeLine source target =
      Text.occurs (List.replicate source ' ') := funext (occurs_changeLine hpos hless)
  simp only [changeUnit, hthere, hback, if_true, List.map_map, hlines, List.map_id, List.any_map,
    hflag]

theorem changeUnit_undone_ragged :
    shouldChange 2 4 = true ∧ shouldChange 4 2 = true ∧
      (changeUnit 2 4 ragged).1 ≠ ragged ∧
      changeUnit 4 2 (changeUnit 2 4 ragged).1 = (ragged, true) := by
  have hthere : shouldChange 2 4 = true := rfl
  have hback : shouldChange 4 2 = true := rfl
  exact ⟨hthere, hback, by decide, changeUnit_undone (by decide) hthere hback ragged⟩

/-- A narrower unit cannot be taken back, since what was left over can make a unit then. -/
example : (changeUnit 2 4 (changeUnit 4 2 ragged).1).1 ≠ ragged := by decide

/-!
# The unit that is found after a change
-/

/-- If no line outside of comments starts with a run that is too long to be measured, then
after a change that was called for the new unit is found, and the stage of indentation with
this unit leaves the lines as they are. -/
theorem changeUnit_reaches_target {target : Nat} (htarget : 2 ≤ target) (htarget' : target < 120)
    {lines : List Text}
    (hruns : ∀ line ∈ Comment.outsideLines .outside lines, leadingSpaces line < 120)
    (hcalled : shouldChange (infer lines) target = true) :
    infer (changeUnit (infer lines) target lines).1 = target ∧
      ∀ config : Config, config.indentWidth = target →
        config.tidyIndent (changeUnit (infer lines) target lines).1 =
          ((changeUnit (infer lines) target lines).1, false) := by
  have hfound := infer_changeUnit htarget htarget' hruns hcalled
  refine ⟨hfound, ?_⟩
  intro config hwidth
  rw [Config.tidyIndent]
  split
  · rw [hfound, hwidth, changeUnit, shouldChange_self]
    rfl
  · rfl

def longComment : List Text :=
  ["/*".toList, List.replicate 130 ' ' ++ ['x'], "*/".toList, "      f();".toList,
   "    g();".toList]

theorem changeUnit_reaches_target_longComment :
    shouldChange (infer longComment) 2 = true ∧
      infer (changeUnit (infer longComment) 2 longComment).1 = 2 ∧
      Config.standard.tidyIndent (changeUnit (infer longComment) 2 longComment).1 =
        ((changeUnit (infer longComment) 2 longComment).1, false) := by
  have hruns : ∀ line ∈ Comment.outsideLines .outside longComment, leadingSpaces line < 120 := by
    decide +kernel
  have hcalled : shouldChange (infer longComment) 2 = true := by decide +kernel
  rcases changeUnit_reaches_target (by decide) (by decide) hruns hcalled with ⟨hfound, hstage⟩
  exact ⟨hcalled, hfound, hstage Config.standard rfl⟩

end Indent
end SourceTidy
