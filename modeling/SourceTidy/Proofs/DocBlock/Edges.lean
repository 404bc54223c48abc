import SourceTidy.DocBlock.Normal
import SourceTidy.Proofs.Comment.Toggling
import SourceTidy.Proofs.DocBlock.Lines

/-!
# The edges of a block

A line closes a block exactly if it ends in a closing marker that does not share
its asterisk with an opening one.  Whether it does is decided by the end of the
line, and the canonical form of a line keeps the end: so a line that does not
close the block does not close it in its canonical form either.
-/

namespace SourceTidy
namespace DocBlock

/-!
# Edges and toggling

Blanks at the ends do not matter for toggling, so the markers are all that the
edges have to be looked at without their blanks for.
-/

theorem isBlockStart_iff_toggles (line : Text) :
    isBlockStart line = true ↔
      Comment.opener <+: Text.trimStart line ∧ Comment.toggles line .outside = true := by
  unfold isBlockStart
  rw [Bool.and_eq_true, List.isPrefixOf_iff_prefix, Comment.toggles_trimStart]

theorem isBlockEnd_iff_toggles (line : Text) :
    isBlockEnd line = true ↔
      Comment.closer <:+ Text.trimEnd line ∧ Comment.toggles line .inside = true := by
  unfold isBlockEnd
  rw [Bool.and_eq_true, List.isSuffixOf_iff_suffix, Comment.toggles_trimEnd]

/-!
# Closing a block
-/

/-- A closing marker at the end whose asterisk is not that of an opening marker. -/
def Closes (text : Text) : Prop :=
  ∃ front, text = front ++ Comment.closer ∧ front.getLast? ≠ some '/'

theorem toggles_inside_of_closes {text : Text} (h : Closes text) :
    Comment.toggles text .inside = true := by
  rcases h with ⟨front, rfl, hfront⟩
  rw [Comment.toggles_inside_iff]
  exact ⟨front, [], rfl, hfront, by decide⟩

theorem closes_of_toggles_inside {front : Text}
    (h : Comment.toggles (front ++ Comment.closer) .inside = true) :
    front.getLast? ≠ some '/' := by
  rw [Comment.toggles_inside_iff_places] at h
  rcases h with ⟨j, hclose, hbefore⟩
  intro hslash
  rcases List.getLast?_eq_some_iff.mp hslash with ⟨rest, rfl⟩
  have hopen : Text.StandsAt '/' '*' (rest ++ ['/'] ++ Comment.closer) rest.length :=
    ⟨rest, ['/'], by simp [Comment.closer], rfl⟩
  have hfar := hbefore rest.length hopen
  have hlength := hclose.le_length
  simp [Comment.closer] at hlength
  omega

theorem isBlockEnd_iff (line : Text) : isBlockEnd line = true ↔ Closes (Text.trimEnd line) := by
  rw [isBlockEnd, Bool.and_eq_true, List.isSuffixOf_iff_suffix]
  constructor
  · intro h
    rcases h with ⟨⟨front, hfront⟩, htoggles⟩
    rw [← hfront] at htoggles
    exact ⟨front, hfront.symm, closes_of_toggles_inside htoggles⟩
  · intro h
    refine ⟨?_, toggles_inside_of_closes h⟩
    rcases h with ⟨front, hfront, _⟩
    exact ⟨front, hfront.symm⟩

/-!
# Only the end counts
-/

theorem Closes.change_front {a b text : Text} (h : Closes (a ++ text))
    (hstar : a.getLast? ≠ some '*') (hslash : a.getLast? ≠ some '/')
    (hb : b.getLast? ≠ some '/') : Closes (b ++ text) := by
  have hempty : ∀ middle : Text, (a ++ middle).getLast? ≠ some '/' →
      (b ++ middle).getLast? ≠ some '/' := by
    intro middle hmiddle
    cases middle with
    | nil => simpa using hb
    | cons c middle =>
        rwa [List.getLast?_append_of_ne_nil _ (List.cons_ne_nil _ _)] at hmiddle ⊢
  rcases h with ⟨front, htext, hfront⟩
  rcases List.append_eq_append_iff.mp htext with ⟨middle, rfl, rfl⟩ | ⟨cut, rfl, hcut⟩
  · refine ⟨b ++ middle, ?_, hempty middle hfront⟩
    rw [List.append_assoc]
  · -- The marker reaches into the beginning only if that ends in a part of it.
    rcases cut with _ | ⟨c, _ | ⟨d, _ | ⟨e, cut⟩⟩⟩
    · refine ⟨b, ?_, hb⟩
      rw [hcut, List.nil_append]
    · cases hcut
      simp at hstar
    · cases hcut
      simp at hslash
    · cases hcut

theorem not_closes_of_getLast? {text : Text} {c : Char} (h : text.getLast? = some c)
    (hc : c ≠ '/') : ¬ Closes text := by
  intro h
  rcases h with ⟨front, rfl, _⟩
  rw [List.getLast?_append_of_ne_nil front (by decide)] at h
  cases h
  exact hc rfl

/-!
# The end of a canonical line
-/

theorem exists_lead_withoutAsterisk (line : Text) :
    ∃ lead, line = lead ++ withoutAsterisk line ∧ lead.getLast? ≠ some '/' := by
  rw [withoutAsterisk]
  cases hspace : Text.afterBeginning? [' ', '*'] line with
  | some rest => exact ⟨[' ', '*'], Text.eq_append_of_afterBeginning? hspace, by decide⟩
  | none =>
      cases hstar : Text.afterBeginning? ['*'] line with
      | some rest => exact ⟨['*'], Text.eq_append_of_afterBeginning? hstar, by decide⟩
      | none => exact ⟨[], rfl, by decide⟩

theorem getLast?_append_blank {a b : Text} (ha : a.getLast? ≠ some '/')
    (hb : ∀ c ∈ b, Text.isBlank c = true) : (a ++ b).getLast? ≠ some '/' := by
  intro h
  rw [List.getLast?_append] at h
  cases hlast : b.getLast? with
  | none =>
      rw [hlast] at h
      exact ha h
  | some c =>
      rw [hlast] at h
      cases h
      exact absurd (hb '/' (List.mem_of_mem_getLast? hlast)) (by decide)

/-- A line ends in its text, and there is no marker across the beginning of it. -/
theorem exists_front_of_line {line : Text} (h : Text.trim (withoutAsterisk line) ≠ []) :
    ∃ front, Text.trimEnd line = front ++ Text.trim (withoutAsterisk line) ∧
      front.getLast? ≠ some '/' := by
  rcases exists_lead_withoutAsterisk line with ⟨lead, hline, hlead⟩
  rcases Text.exists_blanks_around_trim (withoutAsterisk line) with
    ⟨blanks, tail, hblanks, htail, htext⟩
  refine ⟨lead ++ blanks, ?_, getLast?_append_blank hlead hblanks⟩
  calc
    Text.trimEnd line =
        Text.trimEnd (lead ++ blanks ++ Text.trim (withoutAsterisk line) ++ tail) := by
      nth_rewrite 1 [hline, htext]
      simp only [List.append_assoc]
    _ = Text.trimEnd (lead ++ blanks ++ Text.trim (withoutAsterisk line)) :=
      Text.trimEnd_append_of_blank _ htail
    _ = lead ++ blanks ++ Text.trim (withoutAsterisk line) :=
      Text.trimEnd_append _ (Text.trimmed_trim _) h

theorem exists_front_of_entry {line before after : Text}
    (htext : Text.trim (withoutAsterisk line) = before ++ ':' :: after) :
    ∃ front, Text.trimEnd line = front ++ Text.trim after ∧ front.getLast? ≠ some '/' := by
  have hne : Text.trim (withoutAsterisk line) ≠ [] := by
    rw [htext]
    simp
  have hafter : Text.trimEnd after = after := by
    have htrimmed := (Text.trimmed_trim (withoutAsterisk line)).trimEnd_eq
    rw [htext, Text.trimEnd_append_cons _ _ (by decide)] at htrimmed
    exact (List.cons.inj (List.append_cancel_left htrimmed)).2
  rcases exists_front_of_line hne with ⟨front, hline, _⟩
  rcases Text.exists_blank_append_trim hafter with ⟨blanks, hblanks, hvalue⟩
  refine ⟨front ++ before ++ [':'] ++ blanks, ?_, ?_⟩
  · rw [hline, htext]
    nth_rewrite 1 [hvalue]
    simp only [List.append_assoc, List.cons_append, List.nil_append]
  · apply getLast?_append_blank _ hblanks
    simp

theorem entryLine_eq_append {value : Text} (key : Text) (h : Text.Trimmed value)
    (hne : value ≠ []) : ∃ front, entryLine key value = front ++ ' ' :: value := by
  have hend : Text.trimEnd (' ' :: value) = ' ' :: value := Text.trimEnd_append [' '] h hne
  refine ⟨'*' :: ' ' :: (Text.padRight keyColumn key ++ [':']), ?_⟩
  rw [entryLine_eq, hend]
  simp

theorem getLast?_entryLine_nil (key : Text) : (entryLine key []).getLast? = some ':' := by
  have hend : Text.trimEnd [' '] = [] := rfl
  rw [entryLine_eq, hend]
  simp [List.getLast?_cons]

theorem closes_of_closes_entryLine {key value front : Text} (hvalue : Text.Trimmed value)
    (h : Closes (entryLine key value)) (hfront : front.getLast? ≠ some '/') :
    Closes (front ++ value) := by
  by_cases hne : value = []
  · rw [hne] at h
    exact absurd h (not_closes_of_getLast? (getLast?_entryLine_nil key) (by decide))
  · rcases entryLine_eq_append key hvalue hne with ⟨beginning, hline⟩
    rw [hline, List.append_cons] at h
    exact h.change_front (by simp) (by simp) hfront

/-- A canonical date value ends in a digit, or as the value does. -/
theorem closes_of_closes_canonical {value written front : Text}
    (hcanonical : Calendar.canonical? value = some written) (hvalue : Text.Trimmed value)
    (h : Closes ([' '] ++ written)) (hfront : front.getLast? ≠ some '/') :
    Closes (front ++ value) := by
  have hending := Calendar.canonical?_ending hcanonical
  rw [hvalue.trim_eq] at hending
  rcases hending with ⟨c, hlast, hdigit⟩ | hkept | ⟨a, b, note, hnote, hwritten⟩
  · have hline : ([' '] ++ written).getLast? = some c := by
      rw [List.getLast?_append, hlast]
      rfl
    have hc : c ≠ '/' := by
      intro heq
      subst heq
      cases hdigit
    exact absurd h (not_closes_of_getLast? hline hc)
  · rw [← hkept]
    exact h.change_front (by decide) (by decide) hfront
  · -- The note is the same, and no marker reaches across its parenthesis.
    have hline : [' '] ++ written = ([' '] ++ b ++ ['(']) ++ note := by
      simp [hwritten]
    have hvalue' : front ++ value = (front ++ a ++ ['(']) ++ note := by
      simp [hnote]
    have hparen : ∀ text : Text, (text ++ ['(']).getLast? = some '(' := by
      intro text
      exact List.getLast?_concat
    rw [hline] at h
    rw [hvalue']
    apply h.change_front
    · rw [hparen]
      decide
    · rw [hparen]
      decide
    · rw [hparen]
      decide

theorem closes_of_closes_entry {key value written front : Text}
    (hwritten : entryValue key value = .ok written) (hvalue : Text.Trimmed value)
    (h : Closes (entryLine key written)) (hfront : front.getLast? ≠ some '/') :
    Closes (front ++ value) := by
  have htrimmed := (entryValue_entryValue hwritten hvalue).1
  rcases entryValue_cases hwritten with ⟨rfl, _⟩ | ⟨rfl, hcanonical⟩
  · exact closes_of_closes_entryLine htrimmed h hfront
  · have hspace : Closes ([' '] ++ written) :=
      closes_of_closes_entryLine htrimmed h (by decide)
    exact closes_of_closes_canonical hcanonical hvalue hspace hfront

theorem isBlockEnd_of_canonicalLine {keys : KeyTable} {line out : Text}
    (h : canonicalLine keys line = .ok out) (hend : isBlockEnd out = true) :
    isBlockEnd line = true := by
  rw [isBlockEnd_iff] at hend ⊢
  rcases canonicalLine_cases h with
    ⟨_, rfl⟩ | ⟨text, hline, rfl⟩ | ⟨key, value, target, written, hline, _, hwritten, rfl⟩
  · exact absurd hend (not_closes_of_getLast? (c := '*') rfl (by decide))
  · rw [Interior.ofLine_eq] at hline
    rcases Interior.ofText_eq_continuation hline with ⟨rfl, hne⟩
    rcases exists_front_of_line hne with ⟨front, hfront, hslash⟩
    rw [Text.trimEnd_append _ (Text.trimmed_trim _) hne] at hend
    rw [hfront]
    exact hend.change_front (by decide) (by decide) hslash
  · rw [Interior.ofLine_eq] at hline
    rcases Interior.ofText_eq_entry hline with ⟨before, after, htext, _, rfl⟩
    rcases exists_front_of_entry htext with ⟨front, hfront, hslash⟩
    rw [entryLine, Text.trimEnd_trimEnd, ← entryLine] at hend
    rw [hfront]
    exact closes_of_closes_entry hwritten (Text.trimmed_trim after) hend hslash

end DocBlock
end SourceTidy
