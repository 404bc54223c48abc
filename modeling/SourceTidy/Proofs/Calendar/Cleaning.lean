import SourceTidy.Proofs.Calendar.Written
import SourceTidy.Proofs.Text.Runs

/-!
# Cleaning word by word

A date is cleaned in two steps.  It is undressed first: suffixes and dots are taken off its
words, and what stands between the words is passed over.  Then its spacing is made even, where a
run of blanks counts as one space and blanks around a comma do not count.  Both steps can be
taken word by word, from left to right.
-/

namespace SourceTidy
namespace Calendar

def undressed (text : Text) : Text :=
  dropAbbreviationDots (dropOrdinals text)

def commaSpaced (text : Text) : Text :=
  [',', ' '].intercalate ((List.splitOn ',' text).map Text.singleSpaced)

theorem clean_eq (text : Text) : clean text = Text.trim (commaSpaced (undressed text)) :=
  rfl

/-!
# Letters
-/

theorem isAlpha_of_isLower_toLower {c : Char} (h : c.toLower.isLower = true) :
    c.isAlpha = true := by
  cases hupper : c.isUpper with
  | true => exact Bool.or_eq_true_iff.mpr (Or.inl hupper)
  | false =>
      have hsame : c.toLower = c := by
        delta Char.toLower
        exact dif_neg (of_decide_eq_false hupper)
      rw [hsame] at h
      exact Bool.or_eq_true_iff.mpr (Or.inr h)

theorem isWordChar_of_isLower_foldCase {c : Char} (h : (foldCase c).isLower = true) :
    Text.isWordChar c = true := by
  unfold foldCase at h
  split at h
  · next hc =>
      rw [hc]
      decide +kernel
  · split at h
    · next hc =>
        rw [hc]
        decide +kernel
    · apply Text.isWordChar_of_isAlphanum
      simp [Char.isAlphanum, isAlpha_of_isLower_toLower h]

theorem isWordChar_of_isOrdinalSuffix {c d : Char} (h : isOrdinalSuffix c d = true) :
    Text.isWordChar c = true := by
  apply isWordChar_of_isLower_foldCase
  simp only [isOrdinalSuffix, List.contains_cons, List.contains_nil, Bool.or_false,
    Bool.or_eq_true, beq_iff_eq, Prod.mk.injEq] at h
  rcases h with h | h | h | h
  all_goals rw [h.1]; decide

/-!
# Suffixes
-/

theorem withoutSuffix_of_gap {gap : Text} (h : ∀ c ∈ gap, Text.isWordChar c = false) :
    withoutSuffix gap = gap := by
  have hsuffix : ∀ c d, c ∈ gap → isOrdinalSuffix c d = false := by
    intro c d hc
    cases hcase : isOrdinalSuffix c d with
    | false => rfl
    | true =>
        have hword := isWordChar_of_isOrdinalSuffix hcase
        rw [h c hc] at hword
        cases hword
  unfold withoutSuffix
  split
  · next a c d => rw [hsuffix c d (by simp), Bool.and_false, if_neg Bool.false_ne_true]
  · next a b c d => rw [hsuffix c d (by simp), Bool.and_false, if_neg Bool.false_ne_true]
  · rfl

theorem dropOrdinals_word {word rest : Text} (hne : word ≠ [])
    (hword : ∀ c ∈ word, Text.isWordChar c = true)
    (hrest : ∀ c, rest.head? = some c → Text.isWordChar c = false) :
    dropOrdinals (word ++ rest) = withoutSuffix word ++ dropOrdinals rest := by
  have hruns : Text.runs Text.isWordChar (word ++ rest) =
      word :: Text.runs Text.isWordChar rest := by
    apply Text.runs_append hne hword
    intro c hc
    rw [hrest c hc]
    exact Bool.false_ne_true
  rw [dropOrdinals, hruns, List.map_cons, List.flatten_cons]
  rfl

theorem dropOrdinals_cons {c : Char} (hc : Text.isWordChar c = false) (rest : Text) :
    dropOrdinals (c :: rest) = c :: dropOrdinals rest := by
  cases rest with
  | nil => rfl
  | cons d rest =>
      rcases Text.exists_runs_cons Text.isWordChar d rest with ⟨run, others, hruns⟩
      by_cases hkind : Text.isWordChar c = Text.isWordChar d
      · -- The gap goes on, and neither all of it nor the rest of it has a suffix.
        have hgap : ∀ e ∈ d :: run, Text.isWordChar e = false := by
          have hmem : d :: run ∈ Text.runs Text.isWordChar (d :: rest) := by simp [hruns]
          rcases Text.kind_of_mem_runs hmem with ⟨first, tail, heq, hsame⟩
          cases heq
          intro e he
          rw [hsame e he, ← hkind, hc]
        have hlong : ∀ e ∈ c :: d :: run, Text.isWordChar e = false :=
          List.forall_mem_cons.mpr ⟨hc, hgap⟩
        rw [dropOrdinals, dropOrdinals, Text.runs_cons_same hkind hruns, hruns, List.map_cons,
          List.map_cons, withoutSuffix_of_gap hgap, withoutSuffix_of_gap hlong]
        rfl
      · rw [dropOrdinals, dropOrdinals, Text.runs_cons_other hkind hruns, hruns]
        rfl

/-!
# Dots
-/

theorem isAbbreviation_of_gap {c : Char} (hc : Text.isWordChar c = false) (rest : Text) :
    isAbbreviation (c :: rest) = false := by
  cases hletter : (foldCase c).isLower with
  | false => simp [isAbbreviation, hletter]
  | true =>
      rw [isWordChar_of_isLower_foldCase hletter] at hc
      cases hc

theorem joinWithoutDots_cons {run : Text} (h : isAbbreviation run = false) (others : List Text) :
    joinWithoutDots (run :: others) = run ++ joinWithoutDots others := by
  cases others with
  | nil => simp [joinWithoutDots]
  | cons next others =>
      rw [joinWithoutDots.eq_def]
      split
      · next heq => cases heq
      · next heq => cases heq
      · next heq =>
          cases heq
          rw [h, if_neg Bool.false_ne_true]
      · next heq =>
          cases heq
          rfl

theorem joinWithoutDots_cons_of_not_dot {run next : Text} (h : ∀ gap, next ≠ '.' :: gap)
    (others : List Text) :
    joinWithoutDots (run :: next :: others) = run ++ joinWithoutDots (next :: others) := by
  rw [joinWithoutDots]
  exact h

theorem runs_gap {c : Char} (hc : Text.isWordChar c = false) (rest : Text) :
    ∃ gap others, Text.runs Text.isWordChar (c :: rest) = (c :: gap) :: others ∧
      joinWithoutDots (Text.runs Text.isWordChar (c :: rest)) =
        c :: (gap ++ joinWithoutDots others) := by
  rcases Text.exists_runs_cons Text.isWordChar c rest with ⟨gap, others, hruns⟩
  refine ⟨gap, others, hruns, ?_⟩
  rw [hruns, joinWithoutDots_cons (isAbbreviation_of_gap hc gap)]
  rfl

theorem dropAbbreviationDots_cons {c : Char} (hc : Text.isWordChar c = false) (rest : Text) :
    dropAbbreviationDots (c :: rest) = c :: dropAbbreviationDots rest := by
  cases rest with
  | nil => rfl
  | cons d rest =>
      by_cases hkind : Text.isWordChar c = Text.isWordChar d
      · rcases runs_gap (hkind ▸ hc) rest with ⟨gap, others, hruns, hjoin⟩
        have hlong := isAbbreviation_of_gap hc (d :: gap)
        rw [dropAbbreviationDots, dropAbbreviationDots, hjoin, Text.runs_cons_same hkind hruns,
          joinWithoutDots_cons hlong]
        rfl
      · rcases Text.exists_runs_cons Text.isWordChar d rest with ⟨run, others, hruns⟩
        rw [dropAbbreviationDots, dropAbbreviationDots, Text.runs_cons_other hkind hruns, hruns,
          joinWithoutDots_cons (isAbbreviation_of_gap hc [])]
        rfl

theorem runs_word_gap {word : Text} (hne : word ≠ [])
    (hword : ∀ c ∈ word, Text.isWordChar c = true) {c : Char} (hc : Text.isWordChar c = false)
    (rest : Text) :
    Text.runs Text.isWordChar (word ++ c :: rest) =
      word :: Text.runs Text.isWordChar (c :: rest) := by
  apply Text.runs_append hne hword
  intro d hd
  cases hd
  rw [hc]
  exact Bool.false_ne_true

theorem dropAbbreviationDots_word {word rest : Text} (hne : word ≠ [])
    (hword : ∀ c ∈ word, Text.isWordChar c = true)
    (hrest : ∀ c, rest.head? = some c →
      Text.isWordChar c = false ∧ (c = '.' → isAbbreviation word = false)) :
    dropAbbreviationDots (word ++ rest) = word ++ dropAbbreviationDots rest := by
  cases rest with
  | nil =>
      have hrun : Text.runs Text.isWordChar (word ++ []) = [word] :=
        Text.runs_append hne hword (by simp)
      rw [dropAbbreviationDots, hrun]
      exact (List.append_nil word).symm
  | cons c rest =>
      rcases hrest c rfl with ⟨hc, hdot⟩
      rcases runs_gap hc rest with ⟨gap, others, hruns, _⟩
      rw [dropAbbreviationDots, dropAbbreviationDots, runs_word_gap hne hword hc]
      by_cases hc' : c = '.'
      · rw [joinWithoutDots_cons (hdot hc')]
      · rw [hruns]
        apply joinWithoutDots_cons_of_not_dot
        intro other heq
        exact hc' (List.cons.inj heq).1

theorem isWordChar_of_isAbbreviation {word : Text} (h : isAbbreviation word = true) :
    word ≠ [] ∧ ∀ c ∈ word, Text.isWordChar c = true := by
  rw [isAbbreviation, Bool.and_eq_true, List.all_eq_true] at h
  constructor
  · rintro rfl
    cases h.1
  · intro c hc
    exact isWordChar_of_isLower_foldCase (h.2 c hc)

theorem not_isWordChar_dot : Text.isWordChar '.' = false := by
  decide +kernel

theorem dropAbbreviationDots_dot {word : Text} (h : isAbbreviation word = true) (rest : Text) :
    dropAbbreviationDots (word ++ '.' :: rest) = word ++ dropAbbreviationDots rest := by
  rcases isWordChar_of_isAbbreviation h with ⟨hne, hword⟩
  rcases runs_gap not_isWordChar_dot rest with ⟨gap, others, hruns, hjoin⟩
  have hrest := dropAbbreviationDots_cons not_isWordChar_dot rest
  rw [dropAbbreviationDots, hjoin] at hrest
  rw [← (List.cons.inj hrest).2, dropAbbreviationDots, runs_word_gap hne hword not_isWordChar_dot,
    hruns, joinWithoutDots, if_pos h, List.append_assoc]

/-!
# Undressing
-/

theorem undressed_cons {c : Char} (hc : Text.isWordChar c = false) (rest : Text) :
    undressed (c :: rest) = c :: undressed rest := by
  rw [undressed, dropOrdinals_cons hc, dropAbbreviationDots_cons hc]
  rfl

theorem undressed_gap {gap : Text} (h : ∀ c ∈ gap, Text.isWordChar c = false) (rest : Text) :
    undressed (gap ++ rest) = gap ++ undressed rest := by
  induction gap with
  | nil => rfl
  | cons c gap ih =>
      rw [List.forall_mem_cons] at h
      rw [List.cons_append, undressed_cons h.1, ih h.2]
      rfl

theorem head?_dropOrdinals {rest : Text}
    (h : ∀ c, rest.head? = some c → Text.isWordChar c = false) :
    (dropOrdinals rest).head? = rest.head? := by
  cases rest with
  | nil => rfl
  | cons c rest =>
      rw [dropOrdinals_cons (h c rfl)]
      rfl

theorem withoutSuffix_subset (word : Text) : withoutSuffix word ⊆ word := by
  unfold withoutSuffix
  split
  · split <;> simp
  · split <;> simp
  · exact List.Subset.refl _

theorem withoutSuffix_ne_nil {word : Text} (h : word ≠ []) : withoutSuffix word ≠ [] := by
  unfold withoutSuffix
  split
  · split <;> simp
  · split <;> simp
  · exact h

/-- A word that is followed by no dot, or is no abbreviation, loses its suffix only. -/
theorem undressed_word {word rest : Text} (hne : word ≠ [])
    (hword : ∀ c ∈ word, Text.isWordChar c = true)
    (hrest : ∀ c, rest.head? = some c →
      Text.isWordChar c = false ∧ (c = '.' → isAbbreviation (withoutSuffix word) = false)) :
    undressed (word ++ rest) = withoutSuffix word ++ undressed rest := by
  have hgap : ∀ c, rest.head? = some c → Text.isWordChar c = false := fun c hc => (hrest c hc).1
  rw [undressed, dropOrdinals_word hne hword hgap]
  apply dropAbbreviationDots_word (withoutSuffix_ne_nil hne)
  · intro c hc
    exact hword c (withoutSuffix_subset word hc)
  · rw [head?_dropOrdinals hgap]
    exact hrest

theorem undressed_dot {word : Text} (h : isAbbreviation (withoutSuffix word) = true)
    (hword : ∀ c ∈ word, Text.isWordChar c = true) (rest : Text) :
    undressed (word ++ '.' :: rest) = withoutSuffix word ++ undressed rest := by
  have hne : word ≠ [] := by
    rintro rfl
    cases h
  have hdot : ∀ c, ('.' :: rest).head? = some c → Text.isWordChar c = false := by
    rintro c ⟨⟩
    exact not_isWordChar_dot
  rw [undressed, dropOrdinals_word hne hword hdot, dropOrdinals_cons not_isWordChar_dot,
    dropAbbreviationDots_dot h]
  rfl

/-- A gap at the end of a text is kept. -/
theorem undressed_append_gap {gap : Text} (h : ∀ c ∈ gap, Text.isWordChar c = false)
    (hdot : '.' ∉ gap) (text : Text) : undressed (text ++ gap) = undressed text ++ gap := by
  induction text using Text.word_induction with
  | nil =>
      have hgap := undressed_gap h []
      rw [List.append_nil] at hgap
      rw [List.nil_append, hgap]
      exact List.append_nil gap
  | gap c rest hc ih => rw [List.cons_append, undressed_cons hc, ih, undressed_cons hc]; rfl
  | word word rest hne hword hrest ih =>
      rw [List.append_assoc]
      by_cases hlong : rest.head? = some '.' ∧ isAbbreviation (withoutSuffix word) = true
      · -- The dot behind the word goes, with the gap at the end or without it.
        rcases hlong with ⟨hhead, habbreviation⟩
        rcases List.head?_eq_some_iff.mp hhead with ⟨others, rfl⟩
        rw [List.cons_append, undressed_cons not_isWordChar_dot,
          undressed_cons not_isWordChar_dot] at ih
        rw [List.cons_append, undressed_dot habbreviation hword,
          undressed_dot habbreviation hword, List.append_assoc]
        exact congrArg _ (List.cons.inj ih).2
      · have hkept : ∀ c, rest.head? = some c →
            Text.isWordChar c = false ∧
              (c = '.' → isAbbreviation (withoutSuffix word) = false) := by
          intro c hc
          refine ⟨hrest c hc, ?_⟩
          rintro rfl
          exact Bool.eq_false_iff.mpr fun habbreviation => hlong ⟨hc, habbreviation⟩
        have hkept' : ∀ c, (rest ++ gap).head? = some c →
            Text.isWordChar c = false ∧
              (c = '.' → isAbbreviation (withoutSuffix word) = false) := by
          intro c hc
          cases rest with
          | nil =>
              have hmem : c ∈ gap := List.mem_of_mem_head? hc
              refine ⟨h c hmem, ?_⟩
              rintro rfl
              exact absurd hmem hdot
          | cons d rest => exact hkept c hc
        rw [undressed_word hne hword hkept', undressed_word hne hword hkept, ih,
          List.append_assoc]

/-!
# Spacing
-/

theorem intercalate_append (glue : Text) {pieces others : List Text} (h : pieces ≠ [])
    (h' : others ≠ []) :
    glue.intercalate (pieces ++ others) =
      glue.intercalate pieces ++ (glue ++ glue.intercalate others) := by
  induction pieces with
  | nil => exact absurd rfl h
  | cons piece pieces ih =>
      cases pieces with
      | nil =>
          rcases List.exists_cons_of_ne_nil h' with ⟨first, rest, rfl⟩
          rw [List.singleton_append, List.intercalate_cons_cons, List.intercalate_singleton,
            List.append_assoc]
      | cons next pieces =>
          rw [List.cons_append, List.cons_append, List.intercalate_cons_cons, ← List.cons_append,
            ih (List.cons_ne_nil next pieces), List.intercalate_cons_cons]
          simp only [List.append_assoc]

theorem commaSpaced_of_not_mem {text : Text} (h : ',' ∉ text) :
    commaSpaced text = Text.singleSpaced text := by
  rw [commaSpaced, List.splitOn_eq_singleton h]
  simp

theorem commaSpaced_append_comma (a b : Text) :
    commaSpaced (a ++ ',' :: b) = commaSpaced a ++ ',' :: ' ' :: commaSpaced b := by
  have hne : ∀ text : Text, (List.splitOn ',' text).map Text.singleSpaced ≠ [] := by
    intro text
    simp [List.splitOn_ne_nil]
  rw [commaSpaced, List.splitOn_append_cons_self, List.map_append,
    intercalate_append _ (hne a) (hne b)]
  rfl

theorem comma_not_mem_of_blank {gap : Text} (h : ∀ c ∈ gap, Text.isBlank c = true) :
    ',' ∉ gap := by
  intro hcomma
  cases h ',' hcomma

theorem commaSpaced_blank_append {gap : Text} (h : ∀ c ∈ gap, Text.isBlank c = true)
    (text : Text) : commaSpaced (gap ++ text) = commaSpaced text := by
  have hplain : ∀ text : Text, ',' ∉ text → commaSpaced (gap ++ text) = commaSpaced text := by
    intro text htext
    have hcomma : ',' ∉ gap ++ text := by
      simp [comma_not_mem_of_blank h, htext]
    rw [commaSpaced_of_not_mem hcomma, commaSpaced_of_not_mem htext, Text.singleSpaced,
      Text.words_blank_append h, Text.singleSpaced]
  by_cases hcomma : ',' ∈ text
  · rcases List.eq_append_cons_of_mem hcomma with ⟨a, b, rfl, ha⟩
    rw [← List.append_assoc, commaSpaced_append_comma, hplain a ha, commaSpaced_append_comma]
  · exact hplain text hcomma

theorem commaSpaced_append_blank {gap : Text} (h : ∀ c ∈ gap, Text.isBlank c = true)
    (text : Text) : commaSpaced (text ++ gap) = commaSpaced text := by
  have hplain : ∀ text : Text, ',' ∉ text → commaSpaced (text ++ gap) = commaSpaced text := by
    intro text htext
    have hcomma : ',' ∉ text ++ gap := by
      simp [comma_not_mem_of_blank h, htext]
    rw [commaSpaced_of_not_mem hcomma, commaSpaced_of_not_mem htext, Text.singleSpaced,
      Text.words_append_blank h, Text.singleSpaced]
  by_cases hcomma : ',' ∈ text
  · -- The last comma is the first one from the end.
    rcases List.eq_append_cons_of_mem (List.mem_reverse.mpr hcomma) with ⟨b, a, hreverse, hb⟩
    have htext : text = a.reverse ++ ',' :: b.reverse := by
      rw [← List.reverse_reverse text, hreverse]
      simp
    have hb' : ',' ∉ b.reverse := by simpa using hb
    rw [htext, List.append_assoc, List.cons_append, commaSpaced_append_comma, hplain _ hb',
      commaSpaced_append_comma]
  · exact hplain text hcomma

theorem commaSpaced_comma {before after : Text} (hbefore : ∀ c ∈ before, Text.isBlank c = true)
    (hafter : ∀ c ∈ after, Text.isBlank c = true) (a b : Text) :
    commaSpaced (a ++ (before ++ ',' :: (after ++ b))) =
      commaSpaced a ++ ',' :: ' ' :: commaSpaced b := by
  rw [← List.append_assoc, commaSpaced_append_comma, commaSpaced_append_blank hbefore,
    commaSpaced_blank_append hafter]

/-!
# Blanks around a date
-/

theorem clean_blanks_around {lead tail : Text} (hlead : ∀ c ∈ lead, Text.isBlank c = true)
    (htail : ∀ c ∈ tail, Text.isBlank c = true) (text : Text) :
    clean (lead ++ text ++ tail) = clean text := by
  have hgap : ∀ c ∈ lead, Text.isWordChar c = false :=
    fun c hc => Text.isWordChar_of_isBlank (hlead c hc)
  have hgap' : ∀ c ∈ tail, Text.isWordChar c = false :=
    fun c hc => Text.isWordChar_of_isBlank (htail c hc)
  have hdot : '.' ∉ tail := by
    intro hmem
    cases htail '.' hmem
  rw [clean_eq, undressed_append_gap hgap' hdot, undressed_gap hgap,
    commaSpaced_append_blank htail, commaSpaced_blank_append hlead, clean_eq]

theorem readDate?_blanks_around {lead tail : Text} (hlead : ∀ c ∈ lead, Text.isBlank c = true)
    (htail : ∀ c ∈ tail, Text.isBlank c = true) (text : Text) :
    readDate? (lead ++ text ++ tail) = readDate? text := by
  rw [readDate?, clean_blanks_around hlead htail, readDate?]

theorem readDate?_trim (text : Text) : readDate? (Text.trim text) = readDate? text := by
  rcases Text.exists_blanks_around_trim text with ⟨lead, tail, hlead, htail, htext⟩
  nth_rewrite 2 [htext]
  exact (readDate?_blanks_around hlead htail _).symm

end Calendar
end SourceTidy
