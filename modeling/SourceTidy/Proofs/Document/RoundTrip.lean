import SourceTidy.Document
import SourceTidy.Proofs.Text.Separators
import SourceTidy.Proofs.Text.Markers

/-!
# Writing and reading documents

A text is a number of finished lines, each with a line feed behind it, and an
unfinished one.  Writing ends every line in the same way, so it gives a text back
exactly if its lines all end in this way already.  A document is read back from what
is written exactly if none of its lines can be mistaken for something else: for two
lines, for one with another ending, or for one with a byte order mark in front.
-/

namespace SourceTidy
namespace Document

/-- What stands in a file behind the byte order mark, if there is one. -/
def textOf (content : Text) : Text :=
  if content.head? = some byteOrderMark then content.tail else content

def written (ending : Text) (lines : List Text) : Text :=
  lines.flatMap fun line => line ++ ending

def returnAndFeed : Text := ['\r', '\n']

theorem parse_eq (content : Text) :
    parse content = ofPlainText (content.head? = some byteOrderMark) (textOf content) := by
  cases content with
  | nil => rfl
  | cons c rest =>
      by_cases hc : c = byteOrderMark
      · simp [parse, textOf, hc]
      · simp [parse, textOf, hc]

theorem render_eq (document : Document) :
    document.render =
      (if document.bom then [byteOrderMark] else []) ++
        written document.lineEnding document.lines :=
  rfl

theorem mark_append_textOf (content : Text) :
    (if (parse content).bom then [byteOrderMark] else []) ++ textOf content = content := by
  cases content with
  | nil => rfl
  | cons c rest =>
      by_cases hc : c = byteOrderMark
      · simp [parse, ofPlainText, textOf, hc]
      · simp [parse, ofPlainText, textOf, hc]

theorem lines_parse (content : Text) : (parse content).lines = linesOf (textOf content) := by
  rw [parse_eq]
  rfl

theorem crlf_parse_iff (content : Text) :
    (parse content).crlf = true ↔ returnAndFeed <:+: textOf content := by
  rw [parse_eq]
  exact Text.occurs_iff _ _

/-!
# Finished lines
-/

/-- Induction over the lines of a text: the unfinished one, and a finished one in
front of others. -/
theorem line_induction {motive : Text → Prop}
    (unfinished : ∀ text, '\n' ∉ text → motive text)
    (finished : ∀ line rest, '\n' ∉ line → motive rest → motive (line ++ '\n' :: rest))
    (text : Text) : motive text := by
  induction hn : text.length using Nat.strongRecOn generalizing text with
  | ind n ih =>
      rcases Text.cutBefore?_cases (· == '\n') text with hnone | ⟨line, c, rest, rfl, hline, hc⟩
      · apply unfinished
        intro hmem
        exact absurd (hnone '\n' hmem) (by decide)
      · have hfeed : c = '\n' := by simpa using hc
        rw [hfeed] at hn ⊢
        apply finished
        · intro hmem
          exact absurd (hline '\n' hmem) (by decide)
        · apply ih rest.length _ rest rfl
          rw [← hn, List.length_append, List.length_cons]
          omega

theorem linesOf_unfinished {text : Text} (h : '\n' ∉ text) :
    linesOf text = if text.isEmpty then [] else [text] := by
  rw [linesOf, List.splitOn_eq_singleton h]
  rfl

theorem linesOf_finished {line : Text} (h : '\n' ∉ line) (rest : Text) :
    linesOf (line ++ '\n' :: rest) = withoutReturn line :: linesOf rest := by
  rw [linesOf, List.splitOn_append_cons_self_of_not_mem h, linesOf]
  cases hrest : List.splitOn '\n' rest with
  | nil => exact absurd hrest (List.splitOn_ne_nil _ _)
  | cons piece pieces => rfl

theorem withoutReturn_append_return (line : Text) : withoutReturn (line ++ ['\r']) = line := by
  rw [withoutReturn, if_pos (by simp), List.dropLast_concat]

theorem withoutReturn_eq_self {line : Text} (h : line.getLast? ≠ some '\r') :
    withoutReturn line = line := by
  rw [withoutReturn, if_neg h]

theorem prefix_withoutReturn (line : Text) : withoutReturn line <+: line := by
  rw [withoutReturn]
  split
  · exact List.dropLast_prefix line
  · exact List.prefix_refl line

theorem feed_not_mem_linesOf (text : Text) : ∀ line ∈ linesOf text, '\n' ∉ line := by
  induction text using line_induction with
  | unfinished text htext =>
      rw [linesOf_unfinished htext]
      split
      · simp
      · simpa using htext
  | finished line rest hline ih =>
      rw [linesOf_finished hline, List.forall_mem_cons]
      exact ⟨fun hmem => hline ((prefix_withoutReturn line).mem hmem), ih⟩

/-!
# Texts whose lines end alike
-/

/-- Every line feed has a carriage return right in front of it. -/
def AllReturned (text : Text) : Prop :=
  ∀ before after, text = before ++ '\n' :: after → before.getLast? = some '\r'

def NoneReturned (text : Text) : Prop :=
  ∀ before after, text = before ++ '\n' :: after → before.getLast? ≠ some '\r'

/-- All lines of a text are finished, and all in the same way. -/
structure Uniform (text : Text) : Prop where
  finished : text = [] ∨ text.getLast? = some '\n'
  alike : AllReturned text ∨ NoneReturned text

theorem noneReturned_iff (text : Text) : NoneReturned text ↔ ¬ returnAndFeed <:+: text := by
  constructor
  · rintro hnone ⟨before, after, htext⟩
    apply hnone (before ++ ['\r']) after
    · rw [← htext]
      simp [returnAndFeed]
    · simp
  · intro hnot before after htext hlast
    rcases List.getLast?_eq_some_iff.mp hlast with ⟨front, rfl⟩
    apply hnot
    refine ⟨front, after, ?_⟩
    rw [htext]
    simp [returnAndFeed]

theorem withoutReturn_append_feed (line rest : Text) :
    withoutReturn (line ++ '\n' :: rest) = line ++ '\n' :: withoutReturn rest := by
  cases rest with
  | nil => exact withoutReturn_eq_self (by simp)
  | cons c rest =>
      have hlast : (line ++ '\n' :: c :: rest).getLast? = (c :: rest).getLast? := by
        simp [List.getLast?_append, List.getLast?_cons]
      rw [withoutReturn, withoutReturn, hlast]
      split
      · simp
      · rfl

/-- Writing gives a text back if every line feed in it, with what is taken away in front
of it, is the ending that is written. -/
theorem written_linesOf {ending text : Text} (hfinished : text = [] ∨ text.getLast? = some '\n')
    (hending : ∀ before after, text = before ++ '\n' :: after →
      withoutReturn before ++ ending = before ++ ['\n']) :
    written ending (linesOf text) = text := by
  induction text using line_induction with
  | unfinished text htext =>
      rcases hfinished with rfl | hlast
      · rfl
      · exact absurd (List.mem_of_getLast? hlast) htext
  | finished line rest hline ih =>
      have hrest : written ending (linesOf rest) = rest := by
        apply ih
        · rcases hfinished with hnil | hlast
          · simp at hnil
          · cases rest with
            | nil => exact Or.inl rfl
            | cons c rest => exact Or.inr (by simpa [List.getLast?_append] using hlast)
        · intro before after hcut
          have hlonger := hending (line ++ '\n' :: before) after (by rw [hcut]; simp)
          rw [withoutReturn_append_feed] at hlonger
          simpa using hlonger
      have hfirst := hending line rest rfl
      rw [linesOf_finished hline, written, List.flatMap_cons]
      change (withoutReturn line ++ ending) ++ written ending (linesOf rest) = _
      rw [hfirst, hrest]
      simp

theorem getLast?_written {ending : Text} (hending : ending.getLast? = some '\n')
    (lines : List Text) :
    written ending lines = [] ∨ (written ending lines).getLast? = some '\n' := by
  rcases List.eq_nil_or_concat lines with rfl | ⟨front, line, rfl⟩
  · exact Or.inl rfl
  · refine Or.inr ?_
    rw [written, List.concat_eq_append, List.flatMap_append, List.flatMap_singleton,
      List.getLast?_append, List.getLast?_append, hending]
    rfl

theorem written_cons (ending line : Text) (lines : List Text) :
    written ending (line :: lines) = line ++ (ending ++ written ending lines) := by
  rw [written, List.flatMap_cons, List.append_assoc]
  rfl

theorem allReturned_written {lines : List Text} (h : ∀ line ∈ lines, '\n' ∉ line) :
    AllReturned (written returnAndFeed lines) := by
  induction lines with
  | nil =>
      intro before after htext
      simp [written] at htext
  | cons line lines ih =>
      rw [List.forall_mem_cons] at h
      intro before after htext
      have hcut : (line ++ ['\r']) ++ '\n' :: written returnAndFeed lines =
          before ++ '\n' :: after := by
        rw [← htext, written_cons]
        simp [returnAndFeed]
      have hfeed : '\n' ∉ line ++ ['\r'] := by simp [h.1]
      rcases List.append_eq_append_iff.mp hcut with ⟨rest, rfl, hrest⟩ | ⟨rest, hline, hrest⟩
      · cases rest with
        | nil => simp
        | cons c rest =>
            injection hrest with _ hrest
            have hlast := ih h.2 rest after hrest
            rw [List.getLast?_append, List.getLast?_cons, hlast]
            rfl
      · cases rest with
        | nil =>
            rw [List.append_nil] at hline
            rw [← hline]
            simp
        | cons c rest =>
            cases hrest
            exact absurd (by rw [hline]; simp) hfeed

/-- A document that is written as it was read has a text whose lines end alike, and
every such text is written as it was read. -/
theorem render_parse_eq_iff (content : Text) :
    (parse content).render = content ↔ Uniform (textOf content) := by
  have hcontent : (parse content).render = content ↔
      written (parse content).lineEnding (linesOf (textOf content)) = textOf content := by
    rw [← List.append_cancel_left_eq (if (parse content).bom then [byteOrderMark] else [])
      (written _ _) (textOf content), mark_append_textOf, render_eq, lines_parse]
  rw [hcontent]
  cases hcrlf : (parse content).crlf with
  | true =>
      have hending : (parse content).lineEnding = returnAndFeed := by
        rw [lineEnding, hcrlf]
        rfl
      rw [hending]
      constructor
      · intro hsame
        rw [← hsame]
        exact ⟨getLast?_written rfl _, Or.inl (allReturned_written (feed_not_mem_linesOf _))⟩
      · intro huniform
        have hall : AllReturned (textOf content) := by
          rcases huniform.alike with hall | hnone
          · exact hall
          · exact absurd ((crlf_parse_iff content).mp hcrlf) ((noneReturned_iff _).mp hnone)
        apply written_linesOf huniform.finished
        intro before after htext
        rcases List.getLast?_eq_some_iff.mp (hall before after htext) with ⟨front, rfl⟩
        rw [withoutReturn_append_return]
        simp [returnAndFeed]
  | false =>
      have hending : (parse content).lineEnding = ['\n'] := by
        rw [lineEnding, hcrlf]
        rfl
      have hnone : NoneReturned (textOf content) := by
        rw [noneReturned_iff, ← crlf_parse_iff, hcrlf]
        exact Bool.false_ne_true
      rw [hending]
      constructor
      · intro hsame
        refine ⟨?_, Or.inr hnone⟩
        rw [← hsame]
        exact getLast?_written rfl _
      · intro huniform
        apply written_linesOf huniform.finished
        intro before after htext
        rw [withoutReturn_eq_self (hnone before after htext)]

/-!
# Documents that can be read back
-/

/-- Nothing in a document is mistaken for something else when it has been written. -/
structure Faithful (document : Document) : Prop where
  noFeed : ∀ line ∈ document.lines, '\n' ∉ line
  noReturn : document.crlf = false → ∀ line ∈ document.lines, line.getLast? ≠ some '\r'
  hasLine : document.crlf = true → document.lines ≠ []
  noMark : document.bom = false →
    ∀ line, document.lines.head? = some line → line.head? ≠ some byteOrderMark

theorem linesOf_written_returned {lines : List Text} (h : ∀ line ∈ lines, '\n' ∉ line) :
    linesOf (written returnAndFeed lines) = lines := by
  induction lines with
  | nil => rfl
  | cons line lines ih =>
      rw [List.forall_mem_cons] at h
      have hfeed : '\n' ∉ line ++ ['\r'] := by simp [h.1]
      have hcut : written returnAndFeed (line :: lines) =
          (line ++ ['\r']) ++ '\n' :: written returnAndFeed lines := by
        rw [written_cons]
        simp [returnAndFeed]
      rw [hcut, linesOf_finished hfeed, withoutReturn_append_return, ih h.2]

theorem linesOf_written_fed {lines : List Text} (h : ∀ line ∈ lines, '\n' ∉ line)
    (hreturn : ∀ line ∈ lines, line.getLast? ≠ some '\r') :
    linesOf (written ['\n'] lines) = lines := by
  induction lines with
  | nil => rfl
  | cons line lines ih =>
      rw [List.forall_mem_cons] at h hreturn
      rw [written_cons, List.singleton_append, linesOf_finished h.1,
        withoutReturn_eq_self hreturn.1, ih h.2 hreturn.2]

/-- With a line feed alone behind every line, a carriage return in front of a line feed
is the last character of a line. -/
theorem returnAndFeed_written_iff {lines : List Text} (h : ∀ line ∈ lines, '\n' ∉ line) :
    returnAndFeed <:+: written ['\n'] lines ↔ ∃ line ∈ lines, line.getLast? = some '\r' := by
  induction lines with
  | nil => simp [written, returnAndFeed]
  | cons line lines ih =>
      rw [List.forall_mem_cons] at h
      rw [written_cons, List.singleton_append]
      simp only [List.mem_cons, exists_eq_or_imp, ← ih h.2]
      constructor
      · intro hfound
        rcases Text.infix_append_cases hfound with hline | hrest | ⟨hlast, _⟩
        · exact absurd (hline.mem (by simp)) h.1
        · rcases List.infix_cons_iff.mp hrest with hfirst | hlater
          · exact absurd (List.cons_prefix_cons.mp hfirst).1 (by decide)
          · exact Or.inr hlater
        · exact Or.inl hlast
      · rintro (hlast | hlater)
        · rcases List.getLast?_eq_some_iff.mp hlast with ⟨front, rfl⟩
          exact ⟨front, written ['\n'] lines, by simp [returnAndFeed]⟩
        · exact hlater.trans ⟨line ++ ['\n'], [], by simp⟩

theorem returnAndFeed_written {lines : List Text} (h : lines ≠ []) :
    returnAndFeed <:+: written returnAndFeed lines := by
  rcases List.exists_cons_of_ne_nil h with ⟨line, rest, rfl⟩
  rw [written_cons]
  exact ⟨line, written returnAndFeed rest, by simp⟩

theorem head?_written {ending : Text} (hne : ending ≠ []) (lines : List Text) (c : Char)
    (h : (written ending lines).head? = some c) :
    (∃ line, lines.head? = some line ∧ line.head? = some c) ∨ ending.head? = some c := by
  cases lines with
  | nil => cases h
  | cons line lines =>
      rw [written_cons] at h
      cases line with
      | nil =>
          rcases List.exists_cons_of_ne_nil hne with ⟨d, rest, rfl⟩
          exact Or.inr h
      | cons d line => exact Or.inl ⟨d :: line, rfl, h⟩

theorem parse_mark_append (bom : Bool) {text : Text}
    (h : bom = false → text.head? ≠ some byteOrderMark) :
    parse ((if bom then [byteOrderMark] else []) ++ text) = ofPlainText bom text := by
  cases bom with
  | true => simp [parse]
  | false =>
      have hhead := h rfl
      rw [parse_eq, textOf]
      simp [hhead]

theorem lineEnding_of_crlf {document : Document} (h : document.crlf = true) :
    document.lineEnding = returnAndFeed := by
  rw [lineEnding, h]
  rfl

theorem lineEnding_of_not_crlf {document : Document} (h : document.crlf = false) :
    document.lineEnding = ['\n'] := by
  rw [lineEnding, h]
  rfl

theorem Faithful.linesOf_written {document : Document} (h : document.Faithful) :
    linesOf (written document.lineEnding document.lines) = document.lines := by
  cases hcrlf : document.crlf with
  | true =>
      rw [lineEnding_of_crlf hcrlf]
      exact linesOf_written_returned h.noFeed
  | false =>
      rw [lineEnding_of_not_crlf hcrlf]
      exact linesOf_written_fed h.noFeed (h.noReturn hcrlf)

theorem Faithful.occurs_written {document : Document} (h : document.Faithful) :
    Text.occurs returnAndFeed (written document.lineEnding document.lines) = document.crlf := by
  rw [Bool.eq_iff_iff, Text.occurs_iff]
  cases hcrlf : document.crlf with
  | true =>
      rw [lineEnding_of_crlf hcrlf]
      exact iff_of_true (returnAndFeed_written (h.hasLine hcrlf)) rfl
  | false =>
      rw [lineEnding_of_not_crlf hcrlf, returnAndFeed_written_iff h.noFeed]
      refine iff_of_false ?_ Bool.false_ne_true
      rintro ⟨line, hline, hlast⟩
      exact h.noReturn hcrlf line hline hlast

theorem Faithful.head?_written {document : Document} (h : document.Faithful)
    (hbom : document.bom = false) :
    (written document.lineEnding document.lines).head? ≠ some byteOrderMark := by
  intro hhead
  have hne : document.lineEnding ≠ [] := by
    rw [lineEnding]
    split <;> simp
  rcases Document.head?_written hne document.lines _ hhead with ⟨line, hline, hmark⟩ | hending
  · exact h.noMark hbom line hline hmark
  · rw [lineEnding] at hending
    split at hending
    · exact absurd hending (by decide)
    · exact absurd hending (by decide)

theorem Faithful.parse_render {document : Document} (h : document.Faithful) :
    parse document.render = document := by
  rw [render_eq, parse_mark_append document.bom h.head?_written]
  have hlines := h.linesOf_written
  have hcrlf := h.occurs_written
  rw [returnAndFeed] at hcrlf
  cases document with
  | mk lines crlf bom => rw [ofPlainText, hlines, hcrlf]

/-!
# What reading gives
-/

theorem prefix_of_head?_linesOf {text line : Text} (h : (linesOf text).head? = some line) :
    line <+: text := by
  induction text using line_induction with
  | unfinished text htext =>
      rw [linesOf_unfinished htext] at h
      split at h
      · cases h
      · cases h
        exact List.prefix_refl line
  | finished first rest hfirst _ =>
      rw [linesOf_finished hfirst] at h
      cases h
      exact (prefix_withoutReturn first).trans (List.prefix_append first _)

theorem eq_nil_of_linesOf {text : Text} (h : linesOf text = []) : text = [] := by
  induction text using line_induction with
  | unfinished text htext =>
      rw [linesOf_unfinished htext] at h
      split at h
      · next hempty => exact List.isEmpty_iff.mp hempty
      · cases h
  | finished line rest hline _ =>
      rw [linesOf_finished hline] at h
      cases h

theorem exists_returned_linesOf_iff {text : Text} (h : ¬ returnAndFeed <:+: text) :
    (∃ line ∈ linesOf text, line.getLast? = some '\r') ↔ text.getLast? = some '\r' := by
  induction text using line_induction with
  | unfinished text htext =>
      rw [linesOf_unfinished htext]
      split
      · next hempty =>
          rw [List.isEmpty_iff.mp hempty]
          simp
      · simp
  | finished line rest hline ih =>
      have hlast : line.getLast? ≠ some '\r' := (noneReturned_iff _).mpr h line rest rfl
      have hrest : ¬ returnAndFeed <:+: rest := by
        intro hfound
        exact h (hfound.trans ⟨line ++ ['\n'], [], by simp⟩)
      rw [linesOf_finished hline, withoutReturn_eq_self hlast]
      simp only [List.mem_cons, exists_eq_or_imp, hlast, false_or, ih hrest]
      cases rest with
      | nil => simp
      | cons c rest => simp [List.getLast?_append, List.getLast?_cons]

/-- What is read is faithful, unless the unfinished line ends with a carriage return and
no line feed has one in front of it. -/
theorem faithful_parse_iff (content : Text) :
    (parse content).Faithful ↔
      ((textOf content).getLast? = some '\r' → returnAndFeed <:+: textOf content) := by
  constructor
  · intro hfaithful hlast
    rw [← crlf_parse_iff]
    cases hcrlf : (parse content).crlf with
    | true => rfl
    | false =>
        have hnot : ¬ returnAndFeed <:+: textOf content := by
          rw [← crlf_parse_iff, hcrlf]
          exact Bool.false_ne_true
        rcases (exists_returned_linesOf_iff hnot).mpr hlast with ⟨line, hline, hreturn⟩
        rw [← lines_parse] at hline
        exact absurd hreturn (hfaithful.noReturn hcrlf line hline)
  · intro hlast
    refine ⟨?_, ?_, ?_, ?_⟩
    · rw [lines_parse]
      exact feed_not_mem_linesOf _
    · intro hcrlf line hline hreturn
      have hnot : ¬ returnAndFeed <:+: textOf content := by
        rw [← crlf_parse_iff, hcrlf]
        exact Bool.false_ne_true
      rw [lines_parse] at hline
      exact hnot (hlast ((exists_returned_linesOf_iff hnot).mp ⟨line, hline, hreturn⟩))
    · intro hcrlf hnil
      rw [lines_parse] at hnil
      have hfound := (crlf_parse_iff content).mp hcrlf
      rw [eq_nil_of_linesOf hnil, List.infix_nil] at hfound
      cases hfound
    · intro hbom line hline hmark
      rw [lines_parse] at hline
      have hplain : content.head? ≠ some byteOrderMark := by
        rw [parse_eq] at hbom
        exact of_decide_eq_false hbom
      rw [textOf, if_neg hplain] at hline
      rcases prefix_of_head?_linesOf hline with ⟨rest, hrest⟩
      apply hplain
      rw [← hrest, List.head?_append, hmark]
      rfl

theorem getLast?_render (document : Document) : document.render.getLast? ≠ some '\r' := by
  have hending : document.lineEnding.getLast? = some '\n' := by
    rw [lineEnding]
    split <;> rfl
  rw [render_eq, List.getLast?_append]
  rcases getLast?_written hending document.lines with hnil | hlast
  · rw [hnil]
    split <;> decide
  · rw [hlast, Option.some_or]
    decide

theorem faithful_parse_render (document : Document) : (parse document.render).Faithful := by
  rw [faithful_parse_iff]
  intro hlast
  refine absurd ?_ (getLast?_render document)
  rw [← mark_append_textOf document.render, List.getLast?_append, hlast]
  rfl

theorem parse_render_iff (document : Document) :
    parse document.render = document ↔ document.Faithful := by
  constructor
  · intro hsame
    rw [← hsame]
    exact faithful_parse_render document
  · exact Faithful.parse_render

end Document
end SourceTidy
