import Mathlib.Data.List.DropRight
import SourceTidy.Text.Blank

/-!
# Trimmed texts

A text is trimmed if it has no blank at either end.  Trimming gives a trimmed
text, keeps a trimmed one, and takes away nothing but blanks.
-/

namespace SourceTidy
namespace Text

structure Trimmed (text : Text) : Prop where
  first : ∀ c, text.head? = some c → isBlank c = false
  last : ∀ c, text.getLast? = some c → isBlank c = false

theorem isBlank_space : ∀ c ∈ [' '], isBlank c = true := by
  intro c hc
  rw [List.mem_singleton.mp hc]
  decide

/-!
# One end
-/

theorem trimStart_eq_self {text : Text} (h : ∀ c, text.head? = some c → isBlank c = false) :
    trimStart text = text := by
  cases text with
  | nil => rfl
  | cons c rest =>
      apply List.dropWhile_cons_of_neg
      simp [h c rfl]

theorem trimEnd_eq_self {text : Text} (h : ∀ c, text.getLast? = some c → isBlank c = false) :
    trimEnd text = text := by
  apply List.rdropWhile_eq_self_iff.mpr
  intro hne
  simp [h _ (List.getLast?_eq_some_getLast hne)]

theorem trimStart_append_of_blank {a : Text} (h : ∀ c ∈ a, isBlank c = true) (b : Text) :
    trimStart (a ++ b) = trimStart b :=
  List.dropWhile_append_of_pos h

theorem trimEnd_append_of_blank {b : Text} (a : Text) (h : ∀ c ∈ b, isBlank c = true) :
    trimEnd (a ++ b) = trimEnd a := by
  have hreverse : ∀ c ∈ b.reverse, isBlank c = true := by
    intro c hc
    exact h c (List.mem_reverse.mp hc)
  rw [trimEnd, List.reverse_append, List.dropWhile_append_of_pos hreverse, trimEnd]

theorem exists_blank_append_trimStart (text : Text) :
    ∃ lead, (∀ c ∈ lead, isBlank c = true) ∧ text = lead ++ trimStart text := by
  refine ⟨text.takeWhile isBlank, ?_, ?_⟩
  · intro c hc
    exact List.mem_takeWhile_imp hc
  · exact List.takeWhile_append_dropWhile.symm

theorem exists_trimEnd_append_blank (text : Text) :
    ∃ tail, (∀ c ∈ tail, isBlank c = true) ∧ text = trimEnd text ++ tail := by
  refine ⟨text.rtakeWhile isBlank, ?_, ?_⟩
  · intro c hc
    exact List.mem_rtakeWhile_imp hc
  · exact List.rdropWhile_append_rtakeWhile.symm

theorem head?_trimStart {text : Text} {c : Char} (h : (trimStart text).head? = some c) :
    isBlank c = false := by
  have hnot := List.head?_dropWhile_not isBlank text
  rw [trimStart] at h
  rw [h] at hnot
  exact hnot

theorem getLast?_trimEnd {text : Text} {c : Char} (h : (trimEnd text).getLast? = some c) :
    isBlank c = false := by
  rw [trimEnd, List.getLast?_reverse] at h
  exact head?_trimStart h

theorem trimEnd_trimEnd (text : Text) : trimEnd (trimEnd text) = trimEnd text :=
  trimEnd_eq_self fun _ h => getLast?_trimEnd h

theorem head?_trimEnd {text : Text} {c : Char} (h : (trimEnd text).head? = some c) :
    text.head? = some c := by
  rcases exists_trimEnd_append_blank text with ⟨tail, _, htext⟩
  rw [htext, List.head?_append, h]
  rfl

/-!
# Both ends
-/

theorem trimmed_trim (text : Text) : Trimmed (trim text) where
  first := by
    intro c h
    exact head?_trimStart (head?_trimEnd h)
  last := by
    intro c h
    exact getLast?_trimEnd h

theorem Trimmed.trim_eq {text : Text} (h : Trimmed text) : trim text = text := by
  rw [trim, trimStart_eq_self h.first, trimEnd_eq_self h.last]

theorem Trimmed.trimEnd_eq {text : Text} (h : Trimmed text) : trimEnd text = text :=
  trimEnd_eq_self h.last

theorem trim_append_of_blank {a : Text} (h : ∀ c ∈ a, isBlank c = true) (b : Text) :
    trim (a ++ b) = trim b := by
  rw [trim, trimStart_append_of_blank h, trim]

theorem trim_append_blank {b : Text} (a : Text) (h : ∀ c ∈ b, isBlank c = true) :
    trim (a ++ b) = trim a := by
  by_cases ha : trimStart a = []
  · have hblank : ∀ c ∈ a, isBlank c = true := List.dropWhile_eq_nil_iff.mp ha
    have hb : trimStart b = [] := List.dropWhile_eq_nil_iff.mpr h
    rw [trim_append_of_blank hblank, trim, hb, trim, ha]
  · have hstart : trimStart (a ++ b) = trimStart a ++ b := by
      have hne : ¬ (a.dropWhile isBlank).isEmpty = true := fun h => ha (List.isEmpty_iff.mp h)
      rw [trimStart, List.dropWhile_append, if_neg hne]
      rfl
    rw [trim, hstart, trimEnd_append_of_blank _ h, trim]

theorem trim_trimEnd (text : Text) : trim (trimEnd text) = trim text := by
  rcases exists_trimEnd_append_blank text with ⟨tail, htail, htext⟩
  nth_rewrite 2 [htext]
  exact (trim_append_blank _ htail).symm

theorem exists_blanks_around_trim (text : Text) :
    ∃ lead tail, (∀ c ∈ lead, isBlank c = true) ∧ (∀ c ∈ tail, isBlank c = true) ∧
      text = lead ++ trim text ++ tail := by
  rcases exists_blank_append_trimStart text with ⟨lead, hlead, htext⟩
  rcases exists_trimEnd_append_blank (trimStart text) with ⟨tail, htail, hstart⟩
  refine ⟨lead, tail, hlead, htail, ?_⟩
  rw [trim, List.append_assoc, ← hstart, ← htext]

theorem mem_of_mem_trim {text : Text} {c : Char} (h : c ∈ trim text) : c ∈ text := by
  rcases exists_blanks_around_trim text with ⟨lead, tail, _, _, htext⟩
  rw [htext]
  exact List.mem_append_left tail (List.mem_append_right lead h)

theorem trimEnd_append {text : Text} (front : Text) (h : Trimmed text) (hne : text ≠ []) :
    trimEnd (front ++ text) = front ++ text := by
  apply trimEnd_eq_self
  intro c hc
  apply h.last c
  rwa [List.getLast?_append_of_ne_nil front hne] at hc

/-- What stands in front of a visible character is not reached from the end. -/
theorem trimEnd_append_cons {c : Char} (a b : Text) (hc : isBlank c = false) :
    trimEnd (a ++ c :: b) = a ++ c :: trimEnd b := by
  rcases exists_trimEnd_append_blank b with ⟨tail, htail, hb⟩
  have hkept : trimEnd (a ++ c :: trimEnd b) = a ++ c :: trimEnd b := by
    apply trimEnd_eq_self
    intro d hd
    rw [List.getLast?_append_of_ne_nil a (List.cons_ne_nil _ _), List.getLast?_cons] at hd
    cases hlast : (trimEnd b).getLast? with
    | none =>
        rw [hlast] at hd
        cases hd
        exact hc
    | some e =>
        rw [hlast] at hd
        cases hd
        exact getLast?_trimEnd hlast
  calc
    trimEnd (a ++ c :: b) = trimEnd ((a ++ c :: trimEnd b) ++ tail) := by
      rw [List.append_assoc, List.cons_append, ← hb]
    _ = trimEnd (a ++ c :: trimEnd b) := trimEnd_append_of_blank _ htail
    _ = a ++ c :: trimEnd b := hkept

theorem trimStart_append_cons {c : Char} (a b : Text) (hc : isBlank c = false) :
    trimStart (a ++ c :: b) = trimStart a ++ c :: b := by
  rcases exists_blank_append_trimStart a with ⟨lead, hlead, ha⟩
  have hkept : trimStart (trimStart a ++ c :: b) = trimStart a ++ c :: b := by
    apply trimStart_eq_self
    intro d hd
    cases hfirst : (trimStart a).head? with
    | none =>
        rw [List.head?_eq_none_iff.mp hfirst] at hd
        cases hd
        exact hc
    | some e =>
        rw [List.head?_append, hfirst] at hd
        cases hd
        exact head?_trimStart hfirst
  calc
    trimStart (a ++ c :: b) = trimStart (lead ++ (trimStart a ++ c :: b)) := by
      rw [← List.append_assoc, ← ha]
    _ = trimStart (trimStart a ++ c :: b) := trimStart_append_of_blank hlead _
    _ = trimStart a ++ c :: b := hkept

theorem trim_append_cons {c : Char} (a b : Text) (hc : isBlank c = false) :
    trim (a ++ c :: b) = trimStart a ++ c :: trimEnd b := by
  rw [trim, trimStart_append_cons a b hc, trimEnd_append_cons _ _ hc]

theorem exists_blank_append_trim {text : Text} (h : trimEnd text = text) :
    ∃ lead, (∀ c ∈ lead, isBlank c = true) ∧ text = lead ++ trim text := by
  rcases exists_blank_append_trimStart text with ⟨lead, hlead, htext⟩
  have hend : trimEnd (trimStart text) = trimStart text := by
    apply trimEnd_eq_self
    intro c hc
    have hlast : (trimEnd text).getLast? = some c := by
      rw [h, htext, List.getLast?_append, hc]
      rfl
    exact getLast?_trimEnd hlast
  refine ⟨lead, hlead, ?_⟩
  rw [trim, hend, ← htext]

theorem Trimmed.append {first last : Text} (middle : Text) (hfirst : Trimmed first)
    (hlast : Trimmed last) (hne : first ≠ []) (hne' : last ≠ []) :
    Trimmed (first ++ middle ++ last) where
  first := by
    intro c hc
    cases first with
    | nil => exact absurd rfl hne
    | cons d rest => exact hfirst.first c hc
  last := by
    intro c hc
    rw [List.getLast?_append_of_ne_nil _ hne'] at hc
    exact hlast.last c hc

end Text
end SourceTidy
