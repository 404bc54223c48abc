import SourceTidy.Proofs.Calendar.Cleaning
import SourceTidy.Proofs.Calendar.Unread

/-!
# Canonical values name the same date

The canonical form of a date value names the date that the value named.  Its date takes no more
room than before, and its note is the old one, one space behind the date.
-/

namespace SourceTidy
namespace Calendar

def datePart (value : Text) : Text :=
  value.takeWhile (· != '(')

def notePart (value : Text) : Text :=
  value.dropWhile (· != '(')

theorem bne_of_noNote {text : Text} (h : '(' ∉ text) : ∀ c ∈ text, (c != '(') = true := by
  intro c hc
  rw [bne, Text.beq_eq_false_of_not_mem h c hc]
  rfl

theorem parts_of_noNote {value : Text} (h : '(' ∉ value) :
    datePart value = value ∧ notePart value = [] := by
  constructor
  · exact List.takeWhile_eq_self_iff.mpr (bne_of_noNote h)
  · exact List.dropWhile_eq_nil_iff.mpr (bne_of_noNote h)

theorem parts_append_note {before : Text} (h : '(' ∉ before) (note : Text) :
    datePart (before ++ '(' :: note) = before ∧
      notePart (before ++ '(' :: note) = '(' :: note := by
  constructor
  · rw [datePart, List.takeWhile_append_of_pos (bne_of_noNote h)]
    exact List.append_nil before
  · rw [notePart, List.dropWhile_append_of_pos (bne_of_noNote h)]
    rfl

theorem exists_parts (value : Text) :
    '(' ∉ value ∨ ∃ before note, value = before ++ '(' :: note ∧ '(' ∉ before := by
  by_cases h : '(' ∈ value
  · exact Or.inr (List.eq_append_cons_of_mem h)
  · exact Or.inl h

theorem byteLength_shorterText (date : Date) (text : Text) :
    Text.byteLength (shorterText date text) ≤ Text.byteLength text := by
  unfold shorterText
  split
  · next hle => exact hle
  · exact Nat.le_refl _

theorem canonical?_of_parts {value out : Text} (h : canonical? value = some out) :
    ∃ date, readDate? (datePart value) = some date ∧
      Settled date (shorterText date (Text.trim (datePart value))) ∧
      (notePart value = [] ∧ out = shorterText date (Text.trim (datePart value)) ∨
        ∃ note, notePart value = '(' :: note ∧
          out = shorterText date (Text.trim (datePart value)) ++ ' ' :: '(' :: Text.trimEnd note) := by
  have hsettled : ∀ {before : Text} {date : Date}, '(' ∉ before →
      readDate? (Text.trim before) = some date →
      Settled date (shorterText date (Text.trim before)) := by
    intro before date hbefore hread
    apply settled_shorterText (Text.trimmed_trim before) _ hread
    exact fun hmem => hbefore (Text.mem_of_mem_trim hmem)
  rcases exists_parts value with hnone | ⟨before, note, rfl, hbefore⟩
  · rcases parts_of_noNote hnone with ⟨hdate, hnote⟩
    have htrim : '(' ∉ Text.trim value := fun hmem => hnone (Text.mem_of_mem_trim hmem)
    rw [canonical?, Value.ofText_of_noNote htrim] at h
    rcases Option.map_eq_some_iff.mp h with ⟨date, hread, hout⟩
    rw [hdate, hnote]
    exact ⟨date, readDate?_trim value ▸ hread, hsettled hnone hread, Or.inl ⟨rfl, hout.symm⟩⟩
  · rcases parts_append_note hbefore note with ⟨hdate, hnote⟩
    rw [canonical?_append_note hbefore] at h
    rcases Option.map_eq_some_iff.mp h with ⟨date, hread, hout⟩
    rw [hdate, hnote]
    exact ⟨date, readDate?_trim before ▸ hread, hsettled hbefore hread,
      Or.inr ⟨note, rfl, hout.symm⟩⟩

/-- A canonical value is its own canonical value, its date is the date of the value it was made
from, and its note is the old one without the blanks at its end.  The date, apart from the space
that divides it from a note, takes no more bytes than the trimmed text it replaces. -/
theorem canonical?_keeps_date {value out : Text} (h : canonical? value = some out) :
    canonical? out = some out ∧
      (∃ date, readDate? (datePart value) = some date ∧ readDate? (datePart out) = some date) ∧
      notePart out = Text.trimEnd (notePart value) ∧
      datePart out = Text.trim (datePart out) ++ (if notePart out = [] then [] else [' ']) ∧
      Text.byteLength (Text.trim (datePart out)) ≤
        Text.byteLength (Text.trim (datePart value)) := by
  refine ⟨canonical?_canonical? h, ?_⟩
  rcases canonical?_of_parts h with ⟨date, hread, hsettled, ⟨hnote, rfl⟩ | ⟨note, hnote, rfl⟩⟩
  · rcases parts_of_noNote hsettled.noNote with ⟨hdate, hempty⟩
    rw [hdate, hempty, hnote, hsettled.trimmed.trim_eq]
    refine ⟨⟨date, hread, hsettled.read⟩, rfl, ?_, byteLength_shorterText date _⟩
    rw [if_pos rfl, List.append_nil]
  · -- The space in front of the note belongs to what stands before the parenthesis.
    have hbefore : '(' ∉ shorterText date (Text.trim (datePart value)) ++ [' '] := by
      simpa using hsettled.noNote
    have hparts := parts_append_note hbefore (Text.trimEnd note)
    rw [List.append_assoc, List.singleton_append] at hparts
    have htrim := Text.trim_append_blank
      (shorterText date (Text.trim (datePart value))) Text.isBlank_space
    rw [hsettled.trimmed.trim_eq] at htrim
    have hend := Text.trimEnd_append_cons (c := '(') [] note (by decide)
    rw [hparts.1, hparts.2, hnote, htrim]
    refine ⟨⟨date, hread, ?_⟩, hend.symm, ?_, byteLength_shorterText date _⟩
    · rw [← readDate?_trim, htrim]
      exact hsettled.read
    · rw [if_neg (List.cons_ne_nil _ _)]

theorem canonical?_keeps_date_largeYear :
    canonical? " 1st Mar. +012020(draft) ".toList = some "+12020-03-01 (draft)".toList ∧
      readDate? "+12020-03-01 ".toList = some { year := 12020, month := 3, day := 1 } ∧
      readDate? " 1st Mar. +012020".toList = some { year := 12020, month := 3, day := 1 } := by
  have h : canonical? " 1st Mar. +012020(draft) ".toList = some "+12020-03-01 (draft)".toList := by
    decide +kernel
  rcases canonical?_keeps_date h with ⟨_, ⟨date, hvalue, hout⟩, _⟩
  have hread : readDate? " 1st Mar. +012020".toList =
      some { year := 12020, month := 3, day := 1 } := by
    decide +kernel
  have hdate : some date = some { year := 12020, month := 3, day := 1 } := hvalue.symm.trans hread
  exact ⟨h, hout.trans hdate, hread⟩

end Calendar
end SourceTidy
