import SourceTidy.Proofs.Calendar.Written

/-!
# Canonical date values are settled

A canonical date value is its own canonical value: its date is read as before and
either has its written form already or is the shorter text, and its note is found
again where it was put.
-/

namespace SourceTidy
namespace Calendar

/-!
# Settled dates
-/

/-- A text that stays as it is when it stands for the date of a value. -/
structure Settled (date : Date) (text : Text) : Prop where
  trimmed : Text.Trimmed text
  noNote : '(' ∉ text
  read : readDate? text = some date
  short : shorterText date text = text

theorem Settled.ne_nil {date : Date} {text : Text} (h : Settled date text) : text ≠ [] := by
  intro heq
  have hread := h.read
  rw [heq, readDate?_nil] at hread
  cases hread

theorem settled_text {date : Date} (h : date.Valid) : Settled date date.text where
  trimmed := trimmed_text date
  noNote := by
    intro hc
    exact (isDateChar_text hc).ne (by decide) rfl
  read := readDate?_text h
  short := if_pos (Nat.le_refl _)

theorem settled_shorterText {date : Date} {text : Text} (htrimmed : Text.Trimmed text)
    (hnote : '(' ∉ text) (hread : readDate? text = some date) :
    Settled date (shorterText date text) := by
  by_cases hle : Text.byteLength date.text ≤ Text.byteLength text
  · rw [shorterText, if_pos hle]
    exact settled_text (valid_of_readDate? hread)
  · have hshort : shorterText date text = text := if_neg hle
    rw [hshort]
    exact { trimmed := htrimmed, noNote := hnote, read := hread, short := hshort }

/-!
# Values
-/

theorem Value.ofText_of_noNote {text : Text} (h : '(' ∉ text) :
    Value.ofText text = { date := text, note := none } := by
  rw [Value.ofText, Text.cutBefore?_eq_none (Text.beq_eq_false_of_not_mem h)]

theorem Value.ofText_append {before : Text} (h : '(' ∉ before) (note : Text) :
    Value.ofText (before ++ '(' :: note) =
      { date := Text.trim before, note := some (Text.trimEnd ('(' :: note)) } := by
  rw [Value.ofText, Text.cutBefore?_append (Text.beq_eq_false_of_not_mem h) rfl]

theorem trimmed_note {text before note : Text} (h : Text.trim text = before ++ '(' :: note) :
    Text.Trimmed ('(' :: note) where
  first := by
    intro c hc
    cases hc
    decide
  last := by
    intro c hc
    apply (Text.trimmed_trim text).last c
    rw [h, List.getLast?_append_of_ne_nil before (List.cons_ne_nil _ _)]
    exact hc

/-- A canonical value has the date of a trimmed text without a note, which is the
whole value or is followed by the note that ends it. -/
theorem canonical?_cases {text out : Text} (h : canonical? text = some out) :
    ∃ date base, Settled date (shorterText date base) ∧
      (base = Text.trim text ∧ out = shorterText date base ∨
        ∃ before note, Text.trim text = before ++ '(' :: note ∧ base = Text.trim before ∧
          out = shorterText date base ++ ' ' :: '(' :: note) := by
  rw [canonical?] at h
  rcases Text.cutBefore?_cases (· == '(') (Text.trim text) with
    hnone | ⟨before, c, note, htext, hbefore, hc⟩
  · have hnote : '(' ∉ Text.trim text := fun hmem => by simpa using hnone '(' hmem
    rw [Value.ofText_of_noNote hnote] at h
    rcases Option.map_eq_some_iff.mp h with ⟨date, hread, hout⟩
    have hsettled := settled_shorterText (Text.trimmed_trim text) hnote hread
    exact ⟨date, Text.trim text, hsettled, Or.inl ⟨rfl, hout.symm⟩⟩
  · have hnote : '(' ∉ Text.trim before := by
      intro hmem
      simpa using hbefore '(' (Text.mem_of_mem_trim hmem)
    have hc' : c = '(' := by simpa using hc
    subst hc'
    rw [htext, Value.ofText, Text.cutBefore?_append hbefore rfl] at h
    simp only [(trimmed_note htext).trimEnd_eq] at h
    rcases Option.map_eq_some_iff.mp h with ⟨date, hread, hout⟩
    have hsettled := settled_shorterText (Text.trimmed_trim before) hnote hread
    exact ⟨date, Text.trim before, hsettled, Or.inr ⟨before, note, htext, rfl, hout.symm⟩⟩

theorem canonical?_of_settled {date : Date} {text : Text} (h : Settled date text) :
    canonical? text = some text := by
  rw [canonical?, h.trimmed.trim_eq, Value.ofText_of_noNote h.noNote]
  simp only [h.read, Option.map_some, h.short, Value.text]

theorem trimmed_append_note {date : Date} {text note : Text} (h : Settled date text)
    (hnote : Text.Trimmed ('(' :: note)) : Text.Trimmed (text ++ ' ' :: '(' :: note) := by
  have htrimmed := Text.Trimmed.append [' '] h.trimmed hnote h.ne_nil (List.cons_ne_nil _ _)
  rwa [List.append_assoc] at htrimmed

theorem canonical?_of_settled_note {date : Date} {text note : Text} (h : Settled date text)
    (hnote : Text.Trimmed ('(' :: note)) :
    canonical? (text ++ ' ' :: '(' :: note) = some (text ++ ' ' :: '(' :: note) := by
  have hbefore : '(' ∉ text ++ [' '] := by
    simpa using h.noNote
  have hdate : Text.trim (text ++ [' ']) = text := by
    rw [Text.trim_append_blank text Text.isBlank_space, h.trimmed.trim_eq]
  have hvalue := Value.ofText_append hbefore note
  rw [hdate, hnote.trimEnd_eq, List.append_assoc, List.singleton_append] at hvalue
  rw [canonical?, (trimmed_append_note h hnote).trim_eq, hvalue]
  simp only [h.read, Option.map_some, h.short, Value.text]

theorem canonical?_canonical? {text out : Text} (h : canonical? text = some out) :
    canonical? out = some out := by
  rcases canonical?_cases h with ⟨date, base, hsettled, ⟨_, rfl⟩ | ⟨before, note, htext, _, rfl⟩⟩
  · exact canonical?_of_settled hsettled
  · exact canonical?_of_settled_note hsettled (trimmed_note htext)

theorem trimmed_canonical? {text out : Text} (h : canonical? text = some out) :
    Text.Trimmed out := by
  rcases canonical?_cases h with ⟨date, base, hsettled, ⟨_, rfl⟩ | ⟨before, note, htext, _, rfl⟩⟩
  · exact hsettled.trimmed
  · exact trimmed_append_note hsettled (trimmed_note htext)

theorem canonical?_ending {text out : Text} (h : canonical? text = some out) :
    (∃ c, out.getLast? = some c ∧ c.isDigit = true) ∨ out = Text.trim text ∨
      ∃ before before' note, Text.trim text = before ++ '(' :: note ∧
        out = before' ++ '(' :: note := by
  rcases canonical?_cases h with ⟨date, base, _, ⟨rfl, rfl⟩ | ⟨before, note, htext, _, rfl⟩⟩
  · by_cases hle : Text.byteLength date.text ≤ Text.byteLength (Text.trim text)
    · rw [shorterText, if_pos hle]
      exact Or.inl (getLast?_text date)
    · rw [shorterText, if_neg hle]
      exact Or.inr (Or.inl rfl)
  · refine Or.inr (Or.inr ⟨before, shorterText date base ++ [' '], note, htext, ?_⟩)
    rw [List.append_assoc, List.singleton_append]

end Calendar
end SourceTidy
