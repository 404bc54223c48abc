import SourceTidy.Proofs.DocBlock.Edges

/-!
# What a canonical line is made of

Apart from its asterisk, its key and a written date, a canonical line consists of
parts of the line it was made from.  So it holds a tab or a closing marker only if
that line does.
-/

namespace SourceTidy
namespace DocBlock

/-!
# Parts of the line
-/

theorem infix_trim (text : Text) : Text.trim text <:+: text := by
  rcases Text.exists_blanks_around_trim text with ⟨lead, tail, _, _, htext⟩
  exact ⟨lead, tail, htext.symm⟩

theorem infix_text (line : Text) : Text.trim (withoutAsterisk line) <:+: line := by
  rcases exists_lead_withoutAsterisk line with ⟨lead, hline, _⟩
  have hsuffix : withoutAsterisk line <:+ line := ⟨lead, hline.symm⟩
  exact (infix_trim _).trans hsuffix.isInfix

theorem infix_value {line key value : Text} (h : Interior.ofLine line = .entry key value) :
    value <:+: line := by
  rw [Interior.ofLine_eq] at h
  rcases Interior.ofText_eq_entry h with ⟨before, after, htext, _, rfl⟩
  have hafter : after <:+: Text.trim (withoutAsterisk line) := by
    rw [htext]
    exact ⟨before ++ [':'], [], by simp⟩
  exact (infix_trim after).trans (hafter.trans (infix_text line))

/-!
# Properties of the parts
-/

/-- A property that a text has if its parts between spaces, colons and parentheses
have it, and that dates and the asterisk have. -/
structure PassesOn (P : Text → Prop) : Prop where
  part : ∀ {a b : Text}, a <:+: b → P b → P a
  join : ∀ {a b : Text} {c : Char}, c ∈ [' ', ':', '('] → P a → P b → P (a ++ c :: b)
  star : P ['*']
  date : ∀ date : Calendar.Date, P date.text

namespace PassesOn

variable {P : Text → Prop}

theorem nil (hP : PassesOn P) : P [] :=
  hP.part List.nil_infix hP.star

theorem cons (hP : PassesOn P) {c : Char} (hc : c ∈ [' ', ':', '(']) {text : Text}
    (h : P text) : P (c :: text) :=
  hP.join hc hP.nil h

theorem padRight (hP : PassesOn P) (width : Nat) {key : Text} (h : P key) :
    P (Text.padRight width key) := by
  have hfill : ∀ n, P (List.replicate n ' ') := by
    intro n
    induction n with
    | zero => exact hP.nil
    | succ n ih => exact hP.cons (by decide) ih
  rw [Text.padRight]
  cases width - key.length with
  | zero =>
      rw [List.replicate_zero, List.append_nil]
      exact h
  | succ n => exact hP.join (by decide) h (hfill n)

theorem shorterText (hP : PassesOn P) (date : Calendar.Date) {text : Text} (h : P text) :
    P (Calendar.shorterText date text) := by
  rw [Calendar.shorterText]
  split
  · exact hP.date date
  · exact h

theorem canonical? (hP : PassesOn P) {text out : Text} (h : Calendar.canonical? text = some out)
    (htext : P text) : P out := by
  rcases Calendar.canonical?_cases h with
    ⟨date, _, _, ⟨rfl, rfl⟩ | ⟨before, note, hvalue, rfl, rfl⟩⟩
  · exact hP.shorterText date (hP.part (infix_trim text) htext)
  · have htrim : P (before ++ '(' :: note) := by
      rw [← hvalue]
      exact hP.part (infix_trim text) htext
    have hbefore : P (Text.trim before) :=
      hP.part ((infix_trim before).trans (List.prefix_append before _).isInfix) htrim
    have hnote : P note := hP.part ⟨before ++ ['('], [], by simp⟩ htrim
    exact hP.join (by decide) (hP.shorterText date hbefore) (hP.cons (by decide) hnote)

theorem entryLine (hP : PassesOn P) {key value : Text} (hkey : P key) (hvalue : P value) :
    P (DocBlock.entryLine key value) := by
  have hwhole : P (['*'] ++ ' ' :: (Text.padRight keyColumn key ++ ':' :: ' ' :: value)) :=
    hP.join (by decide) hP.star
      (hP.join (by decide) (hP.padRight keyColumn hkey) (hP.cons (by decide) hvalue))
  refine hP.part ?_ hwhole
  rcases Text.exists_trimEnd_append_blank (' ' :: value) with ⟨tail, _, htail⟩
  refine ⟨[], tail, ?_⟩
  rw [entryLine_eq, List.nil_append]
  nth_rewrite 2 [htail]
  simp

theorem canonicalLine (hP : PassesOn P) {keys : KeyTable}
    (hkeys : ∀ key target, keys.resolve? key = some target → P target) {line out : Text}
    (h : DocBlock.canonicalLine keys line = .ok out) (hline : P line) : P out := by
  rcases canonicalLine_cases h with
    ⟨_, rfl⟩ | ⟨text, htext, rfl⟩ | ⟨key, value, target, written, hentry, htarget, hwritten, rfl⟩
  · exact hP.star
  · rw [Interior.ofLine_eq] at htext
    rw [← (Interior.ofText_eq_continuation htext).1]
    have hrest := hP.part (infix_text line) hline
    exact hP.join (by decide) hP.star (hP.cons (by decide) (hP.cons (by decide) hrest))
  · have hvalue := hP.part (infix_value hentry) hline
    rcases entryValue_cases hwritten with ⟨rfl, _⟩ | ⟨rfl, hcanonical⟩
    · exact hP.entryLine (hkeys key target htarget) hvalue
    · exact hP.entryLine (hkeys key dateKey htarget) (hP.canonical? hcanonical hvalue)

end PassesOn

/-!
# Other blanks and closing markers

Canonical lines put spaces between their parts, but no other blank.
-/

theorem passesOn_no_blank {d : Char} (hblank : Text.isBlank d = true) (hd : d ≠ ' ') :
    PassesOn fun text => d ∉ text where
  part := by
    intro a b hpart hb ha
    exact hb (hpart.mem ha)
  join := by
    intro a b c hc ha hb hmem
    rcases List.mem_append.mp hmem with hmem | hmem
    · exact ha hmem
    · rcases List.mem_cons.mp hmem with rfl | hmem
      · simp only [List.mem_cons, List.not_mem_nil, or_false] at hc
        rcases hc with rfl | rfl | rfl
        · exact hd rfl
        · exact absurd hblank (by decide)
        · exact absurd hblank (by decide)
      · exact hb hmem
  star := by
    intro hmem
    rw [List.mem_singleton.mp hmem] at hblank
    exact absurd hblank (by decide)
  date := by
    intro date hmem
    rw [(Calendar.isDateChar_text hmem).not_blank] at hblank
    cases hblank

theorem passesOn_no_tab : PassesOn fun text => '\t' ∉ text :=
  passesOn_no_blank (by decide) (by decide)

theorem passesOn_no_feed : PassesOn fun text => '\n' ∉ text :=
  passesOn_no_blank (by decide) (by decide)

theorem passesOn_no_closer : PassesOn fun text => ¬ Comment.closer <:+: text where
  part := by
    intro a b hpart hb ha
    exact hb (ha.trans hpart)
  join := by
    intro a b c hc ha hb hmem
    have hstar : c ≠ '*' := by
      intro heq
      subst heq
      exact absurd hc (by decide)
    have hslash : c ≠ '/' := by
      intro heq
      subst heq
      exact absurd hc (by decide)
    rcases Text.infix_append_cons hstar hslash hmem with hmem | hmem
    · exact ha hmem
    · exact hb hmem
  star := by decide
  date := by
    intro date hmem
    have hslash : '/' ∈ date.text := hmem.mem (by decide)
    exact (Calendar.isDateChar_text hslash).ne (by decide) rfl

def KeyTable.TabFree (keys : KeyTable) : Prop :=
  ∀ key target, keys.resolve? key = some target → '\t' ∉ target

def KeyTable.FeedFree (keys : KeyTable) : Prop :=
  ∀ key target, keys.resolve? key = some target → '\n' ∉ target

def KeyTable.Plain (keys : KeyTable) : Prop :=
  ∀ key target, keys.resolve? key = some target →
    '\t' ∉ target ∧ ¬ Comment.closer <:+: target

theorem KeyTable.Plain.tabFree {keys : KeyTable} (h : keys.Plain) : keys.TabFree := by
  intro key target htarget
  exact (h key target htarget).1

theorem plain_standard : KeyTable.standard.Plain := by
  have htargets : ∀ target ∈ KeyTable.standard.aliases.map Prod.snd ++ KeyTable.standard.canonical,
      '\t' ∉ target ∧ '/' ∉ target := by
    decide +kernel
  intro key target h
  rcases htargets target (KeyTable.mem_of_resolve? h) with ⟨htab, hslash⟩
  refine ⟨htab, ?_⟩
  intro hcloser
  exact hslash (hcloser.mem (by decide))

theorem feedFree_standard : KeyTable.standard.FeedFree := by
  have htargets : ∀ target ∈ KeyTable.standard.aliases.map Prod.snd ++ KeyTable.standard.canonical,
      '\n' ∉ target := by
    decide +kernel
  intro key target h
  exact htargets target (KeyTable.mem_of_resolve? h)

end DocBlock
end SourceTidy
