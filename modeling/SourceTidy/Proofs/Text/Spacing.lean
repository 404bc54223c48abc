import Mathlib.Logic.Equiv.Defs
import SourceTidy.Text.Basic

/-!
# Texts by their runs of spaces

A text is told by the length of the run of spaces at its beginning and, for each of its other
characters, the length of the run behind it.  A run may be empty.  It cannot be continued,
since what keeps two runs apart is not a space, so every text is told in exactly one way.
-/

namespace SourceTidy
namespace Text

/-- The runs of spaces of a text, and the characters between them. -/
structure Spacing where
  first : Nat
  others : List ({c : Char // c ≠ ' '} × Nat)
  deriving DecidableEq

namespace Spacing

def widen (n : Nat) (spacing : Spacing) : Spacing :=
  { spacing with first := n + spacing.first }

def push (c : {c : Char // c ≠ ' '}) (spacing : Spacing) : Spacing :=
  { first := 0, others := (c, spacing.first) :: spacing.others }

def ofText : Text → Spacing
  | [] => { first := 0, others := [] }
  | c :: rest => if h : c = ' ' then (ofText rest).widen 1 else (ofText rest).push ⟨c, h⟩

def text (spacing : Spacing) : Text :=
  List.replicate spacing.first ' ' ++
    spacing.others.flatMap fun mark => mark.1.val :: List.replicate mark.2 ' '

def runs (spacing : Spacing) : List Nat :=
  spacing.first :: spacing.others.map Prod.snd

/-- The same characters with runs of other lengths between them. -/
def mapRuns (length : Nat → Nat) (spacing : Spacing) : Spacing :=
  { first := length spacing.first, others := spacing.others.map (Prod.map id length) }

/-!
# Reading and writing
-/

theorem ofText_space (rest : Text) : ofText (' ' :: rest) = (ofText rest).widen 1 :=
  dif_pos rfl

theorem ofText_other {c : Char} (hc : c ≠ ' ') (rest : Text) :
    ofText (c :: rest) = (ofText rest).push ⟨c, hc⟩ :=
  dif_neg hc

theorem ofText_replicate_append (n : Nat) (rest : Text) :
    ofText (List.replicate n ' ' ++ rest) = (ofText rest).widen n := by
  induction n with
  | zero => simp [widen]
  | succ n ih =>
      rw [List.replicate_succ, List.cons_append, ofText_space, ih]
      simp only [widen, Spacing.mk.injEq, and_true]
      omega

theorem text_widen (n : Nat) (spacing : Spacing) :
    (spacing.widen n).text = List.replicate n ' ' ++ spacing.text := by
  simp only [text, widen, ← List.replicate_append_replicate, List.append_assoc]

theorem text_push (c : {c : Char // c ≠ ' '}) (spacing : Spacing) :
    (spacing.push c).text = c.val :: spacing.text := by
  simp only [text, push, List.replicate_zero, List.nil_append, List.flatMap_cons,
    List.cons_append]

theorem text_ofText (text : Text) : (ofText text).text = text := by
  induction text with
  | nil => rfl
  | cons c rest ih =>
      by_cases hc : c = ' '
      · rw [hc, ofText_space, text_widen, ih]
        rfl
      · rw [ofText_other hc, text_push, ih]

theorem ofText_text (spacing : Spacing) : ofText spacing.text = spacing := by
  rcases spacing with ⟨first, others⟩
  induction others generalizing first with
  | nil => exact ofText_replicate_append first []
  | cons mark others ih =>
      rcases mark with ⟨c, run⟩
      have htext : text ⟨first, (c, run) :: others⟩ =
          List.replicate first ' ' ++ c.val :: text ⟨run, others⟩ := rfl
      rw [htext, ofText_replicate_append, ofText_other c.property, ih]
      rfl

def equivText : Text ≃ Spacing where
  toFun := ofText
  invFun := text
  left_inv := text_ofText
  right_inv := ofText_text

theorem ofText_injective : Function.Injective ofText :=
  equivText.injective

/-!
# Changing the runs
-/

theorem runs_mapRuns (length : Nat → Nat) (spacing : Spacing) :
    (spacing.mapRuns length).runs = spacing.runs.map length := by
  simp [runs, mapRuns]

theorem mapRuns_mapRuns (first second : Nat → Nat) (spacing : Spacing) :
    (spacing.mapRuns first).mapRuns second = spacing.mapRuns (second ∘ first) := by
  simp [mapRuns]

theorem mapRuns_push {length : Nat → Nat} (h : length 0 = 0) (c : {c : Char // c ≠ ' '})
    (spacing : Spacing) :
    (spacing.push c).mapRuns length = (spacing.mapRuns length).push c := by
  simp [mapRuns, push, h]

theorem mapRuns_eq_self_iff {length : Nat → Nat} {spacing : Spacing} :
    spacing.mapRuns length = spacing ↔ ∀ run ∈ spacing.runs, length run = run := by
  rcases spacing with ⟨first, others⟩
  have hothers : others.map (Prod.map id length) = others.map id ↔
      ∀ run ∈ others.map Prod.snd, length run = run := by
    rw [List.map_inj_left, List.forall_mem_map]
    simp only [Prod.ext_iff, Prod.map_fst, Prod.map_snd, id_eq, true_and]
  rw [List.map_id] at hothers
  simp only [mapRuns, runs, Spacing.mk.injEq, List.forall_mem_cons, hothers]

end Spacing

end Text
end SourceTidy
