import SourceTidy.Proofs.Calendar.Canonical

/-!
# Characters that no layout reads

Cleaning removes only letters, dots and blanks, and moves commas.  A layout reads
only letters, digits, blanks, signs and its own marks.  Any other character is still
there when a layout has been read, so a text with such a character names no date.
-/

namespace SourceTidy
namespace Text

theorem mem_trimStart {text : Text} {c : Char} (hc : isBlank c = false) (h : c ∈ text) :
    c ∈ trimStart text := by
  rcases exists_blank_append_trimStart text with ⟨lead, hlead, htext⟩
  rw [htext, List.mem_append] at h
  rcases h with hmem | hmem
  · rw [hlead c hmem] at hc
    cases hc
  · exact hmem

theorem mem_trim {text : Text} {c : Char} (hc : isBlank c = false) (h : c ∈ text) :
    c ∈ trim text := by
  rcases exists_trimEnd_append_blank (trimStart text) with ⟨tail, htail, htext⟩
  have hmem := mem_trimStart hc h
  rw [htext, List.mem_append] at hmem
  rcases hmem with hmem | hmem
  · exact hmem
  · rw [htail c hmem] at hc
    cases hc

theorem exists_mem_splitOnP {sep : Char → Bool} {text : Text} {c : Char} (hc : sep c = false)
    (h : c ∈ text) : ∃ piece ∈ text.splitOnP sep, c ∈ piece := by
  induction text with
  | nil => cases h
  | cons d rest ih =>
      cases hd : sep d with
      | true =>
          have hne : c ≠ d := by
            intro heq
            rw [heq, hd] at hc
            cases hc
          rcases ih (List.mem_of_ne_of_mem hne h) with ⟨piece, hpiece, hmem⟩
          rw [List.splitOnP_cons_eq_if_modifyHead, if_pos hd]
          exact ⟨piece, List.mem_cons_of_mem [] hpiece, hmem⟩
      | false =>
          rcases List.exists_cons_of_ne_nil (List.splitOnP_ne_nil sep rest) with
            ⟨first, pieces, hrest⟩
          rw [hrest] at ih
          rw [splitOnP_cons_of_not_sep hd hrest]
          rcases List.mem_cons.mp h with rfl | hmem
          · exact ⟨c :: first, List.mem_cons_self, List.mem_cons_self⟩
          · rcases ih hmem with ⟨piece, hpiece, hmem⟩
            rcases List.mem_cons.mp hpiece with rfl | hpiece
            · exact ⟨d :: piece, List.mem_cons_self, List.mem_cons_of_mem d hmem⟩
            · exact ⟨piece, List.mem_cons_of_mem _ hpiece, hmem⟩

theorem mem_intercalate {glue piece : Text} {pieces : List Text} {c : Char}
    (hpiece : piece ∈ pieces) (h : c ∈ piece) : c ∈ glue.intercalate pieces := by
  induction pieces with
  | nil => cases hpiece
  | cons first pieces ih =>
      cases pieces with
      | nil =>
          rw [List.mem_singleton.mp hpiece] at h
          rw [List.intercalate_singleton]
          exact h
      | cons next others =>
          rw [List.intercalate_cons_cons, List.mem_append]
          rcases List.mem_cons.mp hpiece with rfl | hothers
          · exact Or.inl (List.mem_append_left glue h)
          · exact Or.inr (ih hothers)

theorem mem_singleSpaced {text : Text} {c : Char} (hc : isBlank c = false) (h : c ∈ text) :
    c ∈ singleSpaced text := by
  rcases exists_mem_splitOnP hc h with ⟨word, hword, hmem⟩
  apply mem_intercalate (List.mem_filter.mpr ⟨hword, ?_⟩) hmem
  simpa using List.ne_nil_of_mem hmem

theorem mem_takeDigits? {most : Option Nat} {text rest : Text} {n : Nat} {c : Char}
    (hc : c.isDigit = false) (h : takeDigits? most text = some (n, rest)) (hmem : c ∈ text) :
    c ∈ rest := by
  -- The digits that are read begin the run of digits, whatever the limit is.
  have hdrop : ∀ digits : Text, digits <+: text.takeWhile Char.isDigit →
      c ∈ text.drop digits.length := by
    intro digits hdigits
    have htext := List.prefix_iff_eq_append.mp (hdigits.trans (List.takeWhile_prefix _))
    rw [← htext, List.mem_append] at hmem
    refine hmem.resolve_left ?_
    intro hdigit
    rw [List.mem_takeWhile_imp (hdigits.subset hdigit)] at hc
    cases hc
  cases most with
  | none =>
      simp only [takeDigits?] at h
      split at h
      · cases h
      · cases h
        exact hdrop _ (List.prefix_refl _)
  | some k =>
      simp only [takeDigits?] at h
      split at h
      · cases h
      · cases h
        exact hdrop _ (List.take_prefix k _)

end Text
namespace Calendar

/-- A character that is neither removed when a date is cleaned nor read by a layout. -/
structure Unread (c : Char) : Prop where
  letter : (foldCase c).isLower = false
  digit : c.isDigit = false
  blank : Text.isBlank c = false
  sign : c ≠ '-' ∧ c ≠ '+'
  stop : c ≠ '.' ∧ c ≠ ','
  mark : ∀ layout ∈ layouts, Item.mark c ∉ layout

theorem unread_colon : Unread ':' := by
  constructor <;> decide

section Unread

variable {c : Char}

/-!
# Cleaning
-/

theorem Unread.foldCase_ne (hc : Unread c) {m : Char} (hm : m.isLower = true) :
    foldCase c ≠ m := by
  intro heq
  have hletter := hc.letter
  rw [heq, hm] at hletter
  cases hletter

theorem Unread.toLower_ne (hc : Unread c) {m : Char} (hm : m.isLower = true) :
    c.toLower ≠ m := by
  have hfold := hc.foldCase_ne hm
  have hs := hc.foldCase_ne (m := 's') rfl
  have hk := hc.foldCase_ne (m := 'k') rfl
  unfold foldCase at hfold hs hk
  split at hfold
  · next h => simp [h] at hs
  · next h =>
      split at hfold
      · next h' => simp [h'] at hk
      · exact hfold

theorem Unread.not_suffix (hc : Unread c) (d : Char) :
    isOrdinalSuffix c d = false ∧ isOrdinalSuffix d c = false := by
  have hs := hc.foldCase_ne (m := 's') rfl
  have hn := hc.foldCase_ne (m := 'n') rfl
  have hr := hc.foldCase_ne (m := 'r') rfl
  have ht := hc.foldCase_ne (m := 't') rfl
  have hd := hc.foldCase_ne (m := 'd') rfl
  have hh := hc.foldCase_ne (m := 'h') rfl
  constructor
  · simp [isOrdinalSuffix, hs, hn, hr, ht]
  · simp [isOrdinalSuffix, ht, hd, hh]

theorem Unread.ne_of_suffix (hc : Unread c) {x y : Char} (h : isOrdinalSuffix x y = true) :
    c ≠ x ∧ c ≠ y := by
  constructor
  · rintro rfl
    rw [(hc.not_suffix y).1] at h
    cases h
  · rintro rfl
    rw [(hc.not_suffix x).2] at h
    cases h

theorem Unread.mem_withoutSuffix (hc : Unread c) {word : Text} (h : c ∈ word) :
    c ∈ withoutSuffix word := by
  unfold withoutSuffix
  split
  · next a x y =>
      split
      · next hsuffix =>
          rw [Bool.and_eq_true] at hsuffix
          have hne := hc.ne_of_suffix hsuffix.2
          simpa [hne] using h
      · exact h
  · next a b x y =>
      split
      · next hsuffix =>
          rw [Bool.and_eq_true] at hsuffix
          have hne := hc.ne_of_suffix hsuffix.2
          simpa [hne] using h
      · exact h
  · exact h

theorem Unread.mem_dropOrdinals (hc : Unread c) {text : Text} (h : c ∈ text) :
    c ∈ dropOrdinals text := by
  rw [← Text.flatten_runs Text.isWordChar text] at h
  rcases List.mem_flatten.mp h with ⟨run, hrun, hmem⟩
  apply List.mem_flatten.mpr
  exact ⟨withoutSuffix run, List.mem_map_of_mem hrun, hc.mem_withoutSuffix hmem⟩

theorem Unread.mem_joinWithoutDots (hc : Unread c) {pieces : List Text} {piece : Text}
    (hpiece : piece ∈ pieces) (h : c ∈ piece) : c ∈ joinWithoutDots pieces := by
  fun_induction joinWithoutDots pieces with
  | case1 => cases hpiece
  | case2 run =>
      rw [List.mem_singleton.mp hpiece] at h
      exact h
  | case3 word gap rest habbreviation ih =>
      rw [List.mem_append, List.mem_append]
      rcases List.mem_cons.mp hpiece with rfl | hpiece
      · exact Or.inl (Or.inl h)
      · rcases List.mem_cons.mp hpiece with rfl | hpiece
        · exact Or.inl (Or.inr (List.mem_of_ne_of_mem hc.stop.1 h))
        · exact Or.inr (ih hpiece)
  | case4 word gap rest habbreviation ih =>
      rw [List.mem_append]
      rcases List.mem_cons.mp hpiece with rfl | hpiece
      · exact Or.inl h
      · exact Or.inr (ih hpiece)
  | case5 run next rest hdot ih =>
      rw [List.mem_append]
      rcases List.mem_cons.mp hpiece with rfl | hpiece
      · exact Or.inl h
      · exact Or.inr (ih hpiece)

theorem Unread.mem_clean (hc : Unread c) {text : Text} (h : c ∈ text) : c ∈ clean text := by
  have hordinals := hc.mem_dropOrdinals h
  rw [← Text.flatten_runs Text.isWordChar (dropOrdinals text)] at hordinals
  rcases List.mem_flatten.mp hordinals with ⟨run, hrun, hmem⟩
  have hdots : c ∈ dropAbbreviationDots (dropOrdinals text) := hc.mem_joinWithoutDots hrun hmem
  have hpieces : ∃ piece ∈ List.splitOn ',' (dropAbbreviationDots (dropOrdinals text)),
      c ∈ piece := Text.exists_mem_splitOnP (by simpa using hc.stop.2) hdots
  rcases hpieces with ⟨piece, hpiece, hmem⟩
  apply Text.mem_trim hc.blank
  exact Text.mem_intercalate (List.mem_map_of_mem hpiece) (Text.mem_singleSpaced hc.blank hmem)

/-!
# Reading
-/

/-- Whether a part of a layout leaves a character to the parts after it. -/
def Item.Leaves (c : Char) : Item → Prop
  | .year => c.isDigit = false ∧ Text.isBlank c = false ∧ c ≠ '-' ∧ c ≠ '+'
  | .month | .day => c.isDigit = false ∧ Text.isBlank c = false
  | .monthName | .shortMonthName => c.toLower.isLower = false
  | .space => Text.isBlank c = false
  | .mark d => c ≠ d

theorem mem_afterName? (hc : c.toLower.isLower = false) {name text rest : Text}
    (hname : ∀ m ∈ name, m.isLower = true) (h : afterName? name text = some rest)
    (hmem : c ∈ text) : c ∈ rest := by
  fun_induction afterName? name text with
  | case1 text =>
      cases h
      exact hmem
  | case2 => cases h
  | case3 name d others ih =>
      rw [List.forall_mem_cons] at hname
      have hne : c ≠ d := by
        rintro rfl
        rw [hname.1] at hc
        cases hc
      exact ih hname.2 h (List.mem_of_ne_of_mem hne hmem)
  | case4 => cases h

theorem mem_readMonthName? (hc : c.toLower.isLower = false) {names : List (Text × Text)}
    (hnames : ∀ name ∈ names, ∀ m ∈ name.1 ++ name.2, m.isLower = true) {start number : Nat}
    {text long rest : Text} (h : readMonthName? text start names = some (number, long, rest))
    (hmem : c ∈ text) : c ∈ rest ∧ c ∈ (afterName? long rest).getD rest := by
  fun_induction readMonthName? text start names with
  | case1 => cases h
  | case2 start short long' names others hshort =>
      cases h
      rw [List.forall_mem_cons] at hnames
      have hlower := List.forall_mem_append.mp hnames.1
      have hrest := mem_afterName? hc hlower.1 hshort hmem
      refine ⟨hrest, ?_⟩
      cases hlong : afterName? long rest with
      | none => exact hrest
      | some others => exact mem_afterName? hc hlower.2 hlong hrest
  | case3 start short long' names hshort ih =>
      rw [List.forall_mem_cons] at hnames
      exact ih hnames.2 h

theorem isLower_monthNames :
    ∀ name ∈ monthNames, ∀ m ∈ name.1 ++ name.2, m.isLower = true := by
  have hall : monthNames.all (fun name => (name.1 ++ name.2).all Char.isLower) = true := by
    decide
  intro name hname
  exact List.all_eq_true.mp (List.all_eq_true.mp hall name hname)

theorem mem_of_number (hc : c.isDigit = false) {α : Type} {most : Option Nat} {text : Text}
    {f : Nat × Text → α × Text} {result : α × Text}
    (h : (Text.takeDigits? most text).map f = some result) (hf : ∀ read, (f read).2 = read.2)
    (hmem : c ∈ text) : c ∈ result.2 := by
  rcases Option.map_eq_some_iff.mp h with ⟨read, hdigits, rfl⟩
  rw [hf]
  exact Text.mem_takeDigits? hc hdigits hmem

theorem mem_readYear? (hc : Item.year.Leaves c) {text rest : Text} {year : Int}
    (h : readYear? text = some (year, rest)) (hmem : c ∈ text) : c ∈ rest := by
  rcases hc with ⟨hdigit, hblank, hminus, hplus⟩
  have hstart := Text.mem_trimStart hblank hmem
  unfold readYear? at h
  split at h
  · next others heq =>
      rw [heq] at hstart
      exact mem_of_number hdigit h (fun _ => rfl) (List.mem_of_ne_of_mem hminus hstart)
  · next others heq =>
      rw [heq] at hstart
      exact mem_of_number hdigit h (fun _ => rfl) (List.mem_of_ne_of_mem hplus hstart)
  · exact mem_of_number hdigit h (fun _ => rfl) hstart

theorem Item.Leaves.mem_read? {item : Item} (hc : item.Leaves c) {date date' : Date}
    {text rest : Text} (h : item.read? date text = some (date', rest)) (hmem : c ∈ text) :
    c ∈ rest := by
  cases item with
  | year =>
      rcases Option.map_eq_some_iff.mp h with ⟨⟨n, others⟩, hyear, heq⟩
      cases heq
      exact mem_readYear? hc hyear hmem
  | month | day =>
      rw [Item.read?] at h
      exact mem_of_number hc.1 h (fun _ => rfl) (Text.mem_trimStart hc.2 hmem)
  | monthName =>
      rcases Option.map_eq_some_iff.mp h with ⟨⟨n, long, others⟩, hname, heq⟩
      cases heq
      exact (mem_readMonthName? hc isLower_monthNames hname hmem).2
  | shortMonthName =>
      rcases Option.map_eq_some_iff.mp h with ⟨⟨n, long, others⟩, hname, heq⟩
      cases heq
      exact (mem_readMonthName? hc isLower_monthNames hname hmem).1
  | space =>
      cases h
      exact Text.mem_trimStart hc hmem
  | mark d =>
      cases text with
      | nil => cases hmem
      | cons first others =>
          rw [Item.read?] at h
          split at h
          · next hfirst =>
              cases h
              have hne : c ≠ first := fun heq => hc (heq.trans hfirst.symm)
              exact List.mem_of_ne_of_mem hne hmem
          · cases h

theorem Layout.mem_readItems? {layout : Layout} (hc : ∀ item ∈ layout, item.Leaves c)
    {date date' : Date} {text rest : Text}
    (h : layout.readItems? date text = some (date', rest)) (hmem : c ∈ text) : c ∈ rest := by
  induction layout generalizing date text with
  | nil =>
      cases h
      exact hmem
  | cons item items ih =>
      rw [List.forall_mem_cons] at hc
      rw [Layout.readItems?] at h
      split at h
      · next hitem => exact ih hc.2 h (hc.1.mem_read? hitem hmem)
      · cases h

theorem Layout.read?_eq_none_of_leaves {layout : Layout} (hc : ∀ item ∈ layout, item.Leaves c)
    {text : Text} (h : c ∈ text) : layout.read? text = none := by
  unfold Layout.read?
  split
  · next date hitems => cases Layout.mem_readItems? hc hitems h
  · rfl

theorem Unread.leaves (hc : Unread c) {layout : Layout} (hlayout : layout ∈ layouts) :
    ∀ item ∈ layout, item.Leaves c := by
  have hletter : c.toLower.isLower = false := by
    cases hcase : c.toLower.isLower with
    | false => rfl
    | true => exact absurd rfl (hc.toLower_ne hcase)
  intro item hitem
  cases item with
  | year => exact ⟨hc.digit, hc.blank, hc.sign⟩
  | month | day => exact ⟨hc.digit, hc.blank⟩
  | monthName | shortMonthName => exact hletter
  | space => exact hc.blank
  | mark d =>
      rintro rfl
      exact hc.mark layout hlayout hitem

theorem Unread.readDate?_eq_none (hc : Unread c) {text : Text} (h : c ∈ text) :
    readDate? text = none := by
  unfold readDate?
  simp only
  split
  · rfl
  · apply List.findSome?_eq_none_iff.mpr
    intro layout hlayout
    exact Layout.read?_eq_none_of_leaves (hc.leaves hlayout) (hc.mem_clean h)

end Unread

/-!
# Values

The date of a value ends where its note begins, so a colon can stand in the note only.
-/

theorem canonical?_of_noNote {text : Text} (h : '(' ∉ text) (hcolon : ':' ∈ text) :
    canonical? text = none := by
  have hnote : '(' ∉ Text.trim text := fun hmem => h (Text.mem_of_mem_trim hmem)
  have hread := unread_colon.readDate?_eq_none (Text.mem_trim unread_colon.blank hcolon)
  rw [canonical?, Value.ofText_of_noNote hnote]
  simp only [hread, Option.map_none]

theorem canonical?_append_note {before : Text} (h : '(' ∉ before) (note : Text) :
    canonical? (before ++ '(' :: note) =
      (readDate? (Text.trim before)).map fun date =>
        shorterText date (Text.trim before) ++ ' ' :: '(' :: Text.trimEnd note := by
  rcases Text.exists_blank_append_trimStart before with ⟨lead, hlead, hbefore⟩
  have hnote : '(' ∉ Text.trimStart before := by
    intro hmem
    rw [hbefore] at h
    exact h (List.mem_append_right lead hmem)
  have hdate : Text.trim (Text.trimStart before) = Text.trim before := by
    nth_rewrite 2 [hbefore]
    exact (Text.trim_append_of_blank hlead _).symm
  have hend : Text.trimEnd ('(' :: Text.trimEnd note) = '(' :: Text.trimEnd note := by
    rw [← List.nil_append ('(' :: _), Text.trimEnd_append_cons _ _ (by decide),
      Text.trimEnd_trimEnd]
  rw [canonical?, Text.trim_append_cons _ _ (by decide), Value.ofText_append hnote, hdate, hend]
  rfl

/-- Whether a value with a colon in it can be read is settled before the colon.  If it can,
what follows the colon belongs to the note and is kept as it stands. -/
theorem canonical?_colon (front : Text) :
    (∀ rest, canonical? (front ++ ':' :: rest) = none) ∨
      ∃ kept, ∀ rest, Text.trimEnd rest = rest →
        canonical? (front ++ ':' :: rest) = some (kept ++ ':' :: rest) := by
  rcases Text.cutBefore?_cases (· == '(') front with
    hnone | ⟨before, c, note, hfront, hbefore, hc⟩
  · -- The colon is in the date, wherever the note begins.
    have hfront : '(' ∉ front := fun hmem => by simpa using hnone '(' hmem
    refine Or.inl ?_
    intro rest
    rcases Text.cutBefore?_cases (· == '(') rest with hrest | ⟨before, c, note, rfl, hbefore, hc⟩
    · have hnote : '(' ∉ rest := fun hmem => by simpa using hrest '(' hmem
      exact canonical?_of_noNote (by simp [hfront, hnote]) (by simp)
    · have hc' : c = '(' := by simpa using hc
      have hbefore' : '(' ∉ before := fun hmem => by simpa using hbefore '(' hmem
      have hdate : ':' ∈ Text.trim (front ++ ':' :: before) :=
        Text.mem_trim unread_colon.blank (by simp)
      rw [hc', ← List.cons_append, ← List.append_assoc,
        canonical?_append_note (by simp [hfront, hbefore']),
        unread_colon.readDate?_eq_none hdate, Option.map_none]
  · have hc' : c = '(' := by simpa using hc
    have hbefore' : '(' ∉ before := fun hmem => by simpa using hbefore '(' hmem
    subst hc' hfront
    cases hdate : readDate? (Text.trim before) with
    | none =>
        refine Or.inl ?_
        intro rest
        rw [List.append_assoc, List.cons_append, canonical?_append_note hbefore', hdate,
          Option.map_none]
    | some date =>
        refine Or.inr ⟨shorterText date (Text.trim before) ++ ' ' :: '(' :: note, ?_⟩
        intro rest hrest
        rw [List.append_assoc, List.cons_append, canonical?_append_note hbefore', hdate,
          Text.trimEnd_append_cons _ _ unread_colon.blank, hrest]
        simp

end Calendar
end SourceTidy
