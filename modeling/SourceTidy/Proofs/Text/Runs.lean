import SourceTidy.Proofs.Text.Separators
import SourceTidy.Proofs.Text.Trimming
import SourceTidy.Text.WordChar

/-!
# Words

A text is cut in two ways, into runs of word characters and of others, and into the words
between its blanks.  In both ways a text that has been put together is taken apart again: the
runs of two texts stay apart where a word ends, and the words where a blank stands.
-/

namespace SourceTidy
namespace Text

/-!
# Runs
-/

section Runs

variable {kind : Char → Bool} {c d : Char}

theorem runs_cons_same {rest run : Text} {others : List Text} (hkind : kind c = kind d)
    (h : runs kind rest = (d :: run) :: others) :
    runs kind (c :: rest) = (c :: d :: run) :: others := by
  simp [runs, h, hkind]

theorem runs_cons_other {rest run : Text} {others : List Text} (hkind : kind c ≠ kind d)
    (h : runs kind rest = (d :: run) :: others) :
    runs kind (c :: rest) = [c] :: (d :: run) :: others := by
  simp [runs, h, hkind]

theorem exists_runs_cons (kind : Char → Bool) (c : Char) (rest : Text) :
    ∃ run others, runs kind (c :: rest) = (c :: run) :: others := by
  induction rest generalizing c with
  | nil => exact ⟨[], [], rfl⟩
  | cons d rest ih =>
      rcases ih d with ⟨run, others, hrest⟩
      by_cases hkind : kind c = kind d
      · exact ⟨d :: run, others, runs_cons_same hkind hrest⟩
      · exact ⟨[], (d :: run) :: others, runs_cons_other hkind hrest⟩

theorem runs_append {run rest : Text} {b : Bool} (hne : run ≠ []) (hrun : ∀ c ∈ run, kind c = b)
    (hrest : ∀ c, rest.head? = some c → kind c ≠ b) :
    runs kind (run ++ rest) = run :: runs kind rest := by
  induction run with
  | nil => exact absurd rfl hne
  | cons c run ih =>
      rw [List.forall_mem_cons] at hrun
      cases run with
      | nil =>
          cases rest with
          | nil => rfl
          | cons d rest =>
              rcases exists_runs_cons kind d rest with ⟨others, more, hruns⟩
              have hkind : kind c ≠ kind d := by
                rw [hrun.1]
                exact Ne.symm (hrest d rfl)
              rw [List.singleton_append, runs_cons_other hkind hruns, hruns]
      | cons d run =>
          have htail := ih (List.cons_ne_nil d run) hrun.2
          have hkind : kind c = kind d := by
            rw [hrun.1, hrun.2 d List.mem_cons_self]
          exact runs_cons_same hkind htail

theorem kind_of_mem_runs {text run : Text} (h : run ∈ runs kind text) :
    ∃ c rest, run = c :: rest ∧ ∀ d ∈ run, kind d = kind c := by
  induction text generalizing run with
  | nil => cases h
  | cons c rest ih =>
      cases rest with
      | nil =>
          rw [runs, runs, List.mem_singleton] at h
          exact ⟨c, [], h, by simp [h]⟩
      | cons d rest =>
          rcases exists_runs_cons kind d rest with ⟨first, others, hruns⟩
          rw [hruns] at ih
          by_cases hkind : kind c = kind d
          · rw [runs_cons_same hkind hruns] at h
            rcases List.mem_cons.mp h with rfl | hothers
            · rcases ih List.mem_cons_self with ⟨e, tail, heq, hsame⟩
              cases heq
              refine ⟨c, d :: first, rfl, List.forall_mem_cons.mpr ⟨rfl, ?_⟩⟩
              rw [hkind]
              exact hsame
            · exact ih (List.mem_cons_of_mem _ hothers)
          · rw [runs_cons_other hkind hruns] at h
            rcases List.mem_cons.mp h with rfl | hothers
            · exact ⟨c, [], rfl, by simp⟩
            · exact ih hothers

/-- Induction along the words of a text: what is no word character is passed one by one, and a
run of word characters as a whole. -/
theorem word_induction {motive : Text → Prop} (nil : motive [])
    (gap : ∀ c rest, isWordChar c = false → motive rest → motive (c :: rest))
    (word : ∀ word rest, word ≠ [] → (∀ c ∈ word, isWordChar c = true) →
      (∀ c, rest.head? = some c → isWordChar c = false) → motive rest → motive (word ++ rest))
    (text : Text) : motive text := by
  induction hn : text.length using Nat.strongRecOn generalizing text with
  | ind n ih =>
      cases text with
      | nil => exact nil
      | cons c rest =>
          cases hc : isWordChar c with
          | false => exact gap c rest hc (ih rest.length (by simp [← hn]) rest rfl)
          | true =>
              have htext := List.takeWhile_append_dropWhile (p := isWordChar) (l := c :: rest)
              have hne : (c :: rest).takeWhile isWordChar ≠ [] := by simp [hc]
              have hless : ((c :: rest).dropWhile isWordChar).length < n := by
                have hpos := List.length_pos_iff.mpr hne
                have hlength := congrArg List.length htext
                rw [List.length_append] at hlength
                omega
              rw [← htext]
              apply word _ _ hne
              · intro d hd
                exact List.mem_takeWhile_imp hd
              · intro d hd
                have hnot := List.head?_dropWhile_not isWordChar (c :: rest)
                rw [hd] at hnot
                simpa using hnot
              · exact ih _ hless _ rfl

end Runs

/-!
# Word characters
-/

theorem isWordChar_of_isAlphanum {c : Char} (h : c.isAlphanum = true) : isWordChar c = true := by
  simp [isWordChar, h]

theorem isWordChar_of_isBlank {c : Char} (h : isBlank c = true) : isWordChar c = false := by
  have htable : ∀ range ∈ blankRanges, ∀ i ≤ range.2 - range.1,
      isWordChar (Char.ofNat (range.1 + i)) = false := by
    decide +kernel
  rcases List.any_eq_true.mp h with ⟨range, hrange, hwithin⟩
  simp only [Bool.and_eq_true, decide_eq_true_eq] at hwithin
  have hc := htable range hrange (c.toNat - range.1) (by omega)
  rwa [Nat.add_sub_cancel' hwithin.1, Char.ofNat_toNat] at hc

theorem not_isBlank_of_isWordChar {c : Char} (h : isWordChar c = true) : isBlank c = false := by
  cases hblank : isBlank c with
  | false => rfl
  | true =>
      rw [isWordChar_of_isBlank hblank] at h
      cases h

/-!
# Words between blanks
-/

theorem words_append_cons {c : Char} (hc : isBlank c = true) (a b : Text) :
    words (a ++ c :: b) = words a ++ words b := by
  rw [words, List.splitOnP_append_cons _ _ hc, List.filter_append]
  rfl

theorem words_append_gap {gap : Text} (hne : gap ≠ []) (h : ∀ c ∈ gap, isBlank c = true)
    (a b : Text) : words (a ++ (gap ++ b)) = words a ++ words b := by
  induction gap generalizing a with
  | nil => exact absurd rfl hne
  | cons c gap ih =>
      rw [List.forall_mem_cons] at h
      rw [List.cons_append, words_append_cons h.1]
      cases gap with
      | nil => rfl
      | cons d gap =>
          have hrest := ih (List.cons_ne_nil d gap) h.2 []
          rw [List.nil_append] at hrest
          rw [hrest]
          rfl

theorem words_blank_append {gap : Text} (h : ∀ c ∈ gap, isBlank c = true) (text : Text) :
    words (gap ++ text) = words text := by
  cases gap with
  | nil => rfl
  | cons c gap => exact words_append_gap (List.cons_ne_nil c gap) h [] text

theorem words_append_blank {gap : Text} (h : ∀ c ∈ gap, isBlank c = true) (text : Text) :
    words (text ++ gap) = words text := by
  cases gap with
  | nil => rw [List.append_nil]
  | cons c gap =>
      have hgap := words_append_gap (List.cons_ne_nil c gap) h text []
      rw [List.append_nil] at hgap
      rw [hgap]
      exact List.append_nil _

/-- What is written right in front of a word belongs to it. -/
theorem words_visible_append {word : Text} (hword : ∀ d ∈ word, isBlank d = false) {c : Char}
    (hc : isBlank c = false) (rest : Text) :
    ∃ first others, words (c :: rest) = first :: others ∧
      words (word ++ c :: rest) = (word ++ first) :: others := by
  rcases List.exists_cons_of_ne_nil (List.splitOnP_ne_nil isBlank rest) with ⟨piece, pieces, hrest⟩
  have hcons : (c :: rest).splitOnP isBlank = (c :: piece) :: pieces :=
    splitOnP_cons_of_not_sep hc hrest
  have hcut : (word ++ c :: rest).splitOnP isBlank = (word ++ c :: piece) :: pieces := by
    induction word with
    | nil => exact hcons
    | cons d word ih =>
        rw [List.forall_mem_cons] at hword
        exact splitOnP_cons_of_not_sep hword.1 (ih hword.2)
  refine ⟨c :: piece, pieces.filter fun word => !word.isEmpty, ?_, ?_⟩
  · rw [words, hcons]
    rfl
  · rw [words, hcut]
    apply List.filter_cons_of_pos
    simp

theorem words_of_visible {word : Text} (hne : word ≠ []) (h : ∀ c ∈ word, isBlank c = false) :
    words word = [word] := by
  rw [words, List.splitOnP_eq_singleton h]
  simp [hne]

end Text
end SourceTidy
