import SourceTidy.Proofs.Calendar.Cleaning

/-!
# Dates written in a layout

A layout says how a date is written: its year, month and day in some order, with separators
between them.  People also dress a date up.  They put a suffix behind the day and a dot behind a
short name of a month, and they space the words and commas as they like.  Cleaning takes all that
away, so what is left is the date as it would have been written plainly.
-/

namespace SourceTidy
namespace Calendar

/-!
# Plain dates
-/

def englishMonths : List Text :=
  ["January".toList, "February".toList, "March".toList, "April".toList, "May".toList,
   "June".toList, "July".toList, "August".toList, "September".toList, "October".toList,
   "November".toList, "December".toList]

/-- The ways to write a part of a date.  A year has four digits, and the number of a month or
a day may have a zero in front. -/
def Item.Writes (date : Date) : Item → Text → Prop
  | .year, part => part = Text.zeroPadded 4 date.year.toNat
  | .month, part => part = Text.decimal date.month ∨ part = Text.zeroPadded 2 date.month
  | .day, part => part = Text.decimal date.day ∨ part = Text.zeroPadded 2 date.day
  | .monthName, part => englishMonths[date.month - 1]? = some part
  | .shortMonthName, part => ∃ name, englishMonths[date.month - 1]? = some name ∧ part = name.take 3
  | .space, part => part = [' ']
  | .mark c, part => part = [c]

/-- A text that is composed of one part for each item of a layout. -/
inductive Layout.Composed (parts : Item → Text → Prop) : Layout → Text → Prop where
  | nil : Composed parts [] []
  | cons {item : Item} {items : Layout} {part rest : Text} (h : parts item part)
      (hrest : Composed parts items rest) : Composed parts (item :: items) (part ++ rest)

def Layout.Writes (layout : Layout) (date : Date) (text : Text) : Prop :=
  layout.Composed (Item.Writes date) text

/-!
# Dates with cosmetics
-/

def Item.isName : Item → Bool
  | .monthName | .shortMonthName => true
  | _ => false

def Item.isNumber : Item → Bool
  | .year | .month | .day => true
  | _ => false

def ordinalSuffixes : List Text :=
  ["st".toList, "nd".toList, "rd".toList, "th".toList]

/-- The ways to write a part of a date that may be dressed up: a day with a suffix in any case
of letters, and a month of three letters with a dot. -/
inductive Item.Dressed (date : Date) (item : Item) : Text → Prop where
  | plain {part : Text} (h : item.Writes date part) : Dressed date item part
  | suffix {number suffix : Text} (hday : item = .day) (h : item.Writes date number)
      (hsuffix : suffix.map Char.toLower ∈ ordinalSuffixes) : Dressed date item (number ++ suffix)
  | dot {name : Text} (hname : item.isName = true) (h : item.Writes date name)
      (hlength : name.length = 3) : Dressed date item (name ++ ['.'])

/-- A text that is composed of the parts of a layout with any spacing: some blanks for a space,
and blanks or none on both sides of a comma. -/
inductive Layout.Loose (parts : Item → Text → Prop) : Layout → Text → Prop where
  | nil : Loose parts [] []
  | part {item : Item} {items : Layout} {part rest : Text}
      (hitem : item ≠ .space ∧ item ≠ .mark ',') (h : parts item part)
      (hrest : Loose parts items rest) : Loose parts (item :: items) (part ++ rest)
  | space {items : Layout} {gap rest : Text} (hne : gap ≠ [])
      (hgap : ∀ c ∈ gap, Text.isBlank c = true) (hrest : Loose parts items rest) :
      Loose parts (.space :: items) (gap ++ rest)
  | comma {items : Layout} {before after rest : Text}
      (hbefore : ∀ c ∈ before, Text.isBlank c = true)
      (hafter : ∀ c ∈ after, Text.isBlank c = true) (hrest : Loose parts items rest) :
      Loose parts (.mark ',' :: .space :: items) (before ++ ',' :: (after ++ rest))

/-- A date that is written in a layout with any cosmetics, and with blanks around it. -/
inductive Layout.Varies (layout : Layout) (date : Date) : Text → Prop where
  | mk {lead text tail : Text} (hlead : ∀ c ∈ lead, Text.isBlank c = true)
      (h : layout.Loose (Item.Dressed date) text)
      (htail : ∀ c ∈ tail, Text.isBlank c = true) : Varies layout date (lead ++ text ++ tail)

/-!
# Words and separators

A layout is a word, or a word, a separator and a layout again.  A dot separates numbers only,
since behind a name it would be taken for that of an abbreviation.
-/

def Item.isWord (item : Item) : Bool :=
  item.isNumber || item.isName

inductive Layout.Proper : Layout → Prop where
  | word {item : Item} (h : item.isWord = true) : Proper [item]
  | space {item : Item} {items : Layout} (h : item.isWord = true) (hrest : Proper items) :
      Proper (item :: .space :: items)
  | comma {item : Item} {items : Layout} (h : item.isWord = true) (hrest : Proper items) :
      Proper (item :: .mark ',' :: .space :: items)
  | mark {item : Item} {c : Char} {items : Layout} (h : item.isWord = true)
      (hc : c ∈ ['-', '/', '.']) (hdot : c = '.' → item.isName = false) (hrest : Proper items) :
      Proper (item :: .mark c :: items)

theorem proper_layouts : ∀ layout ∈ layouts, layout.Proper := by
  simp only [layouts, List.forall_mem_cons, List.not_mem_nil, false_implies, implies_true,
    and_true]
  repeat' constructor
  all_goals decide

theorem Item.ne_of_isWord {item : Item} (h : item.isWord = true) :
    item ≠ .space ∧ item ≠ .mark ',' := by
  constructor
  · rintro rfl
    cases h
  · rintro rfl
    cases h

/-!
# The words of a date
-/

/-- A date with a year of four digits, and a month and a day of at most two. -/
structure Date.Short (date : Date) : Prop where
  year : 0 ≤ date.year ∧ date.year ≤ 9999
  month : 1 ≤ date.month ∧ date.month ≤ 99
  day : date.day ≤ 99

def Item.number (date : Date) : Item → Nat
  | .year => date.year.toNat
  | .month | .monthName | .shortMonthName => date.month
  | .day => date.day
  | .space | .mark _ => 0

def monthSpellings : List Text :=
  englishMonths ++ englishMonths.map (List.take 3)

theorem monthSpellings_facts : ∀ name ∈ monthSpellings,
    name ≠ [] ∧ (∀ c ∈ name, c.isAlpha = true) ∧ withoutSuffix name = name ∧
      (name.length = 3 → isAbbreviation name = true) := by
  have hall : ∀ name ∈ monthSpellings,
      name ≠ [] ∧ name.all Char.isAlpha = true ∧ withoutSuffix name = name ∧
        (name.length = 3 → isAbbreviation name = true) := by
    decide +kernel
  simpa only [List.all_eq_true] using hall

theorem decimal_eq_zeroPadded (n : Nat) : Text.decimal n = Text.zeroPadded 0 n := by
  simp [Text.zeroPadded]

section Words

variable {date : Date} {item : Item} {part : Text}

theorem Item.Writes.number (hitem : item.isNumber = true) (h : item.Writes date part) :
    ∃ width, part = Text.zeroPadded width (item.number date) := by
  cases item with
  | year => exact ⟨4, h⟩
  | month | day =>
      rcases h with h | h
      · exact ⟨0, h.trans (decimal_eq_zeroPadded _)⟩
      · exact ⟨2, h⟩
  | monthName | shortMonthName | space | mark => cases hitem

theorem Item.Writes.name (hitem : item.isName = true) (h : item.Writes date part) :
    part ∈ monthSpellings := by
  cases item with
  | monthName => exact List.mem_append_left _ (List.mem_of_getElem? h)
  | shortMonthName =>
      rcases h with ⟨name, hname, rfl⟩
      exact List.mem_append_right _ (List.mem_map_of_mem (List.mem_of_getElem? hname))
  | year | month | day | space | mark => cases hitem

theorem Item.Writes.ne_nil (hitem : item.isWord = true) (h : item.Writes date part) :
    part ≠ [] := by
  rcases Bool.or_eq_true_iff.mp hitem with hnumber | hname
  · rcases h.number hnumber with ⟨width, rfl⟩
    exact Text.zeroPadded_ne_nil width _
  · exact (monthSpellings_facts part (h.name hname)).1

theorem Item.Writes.isAlphanum (hitem : item.isWord = true) (h : item.Writes date part) :
    ∀ c ∈ part, c.isAlphanum = true := by
  intro c hc
  rcases Bool.or_eq_true_iff.mp hitem with hnumber | hname
  · rcases h.number hnumber with ⟨width, rfl⟩
    simp [Char.isAlphanum, Text.isDigit_zeroPadded hc]
  · simp [Char.isAlphanum, (monthSpellings_facts part (h.name hname)).2.1 c hc]

theorem Item.Writes.isWordChar (hitem : item.isWord = true) (h : item.Writes date part) :
    ∀ c ∈ part, Text.isWordChar c = true :=
  fun c hc => Text.isWordChar_of_isAlphanum (h.isAlphanum hitem c hc)

theorem Item.Writes.not_isBlank (hitem : item.isWord = true) (h : item.Writes date part) :
    ∀ c ∈ part, Text.isBlank c = false :=
  fun c hc => Text.not_isBlank_of_isWordChar (h.isWordChar hitem c hc)

theorem Item.Writes.comma_not_mem (hitem : item.isWord = true) (h : item.Writes date part) :
    ',' ∉ part := by
  intro hmem
  cases h.isAlphanum hitem ',' hmem

theorem Item.Writes.withoutSuffix_eq (hitem : item.isWord = true) (h : item.Writes date part) :
    withoutSuffix part = part := by
  rcases Bool.or_eq_true_iff.mp hitem with hnumber | hname
  · rcases h.number hnumber with ⟨width, rfl⟩
    exact withoutSuffix_eq_self fun c hc => Or.inl (Text.isDigit_zeroPadded hc)
  · exact (monthSpellings_facts part (h.name hname)).2.2.1

theorem not_isAlpha_of_isDigit {c : Char} (h : c.isDigit = true) : c.isAlpha = false := by
  have hdigit : c.toNat ≤ 57 := (Char.isDigit_iff_toNat.mp h).2
  cases hcase : c.isAlpha with
  | false => rfl
  | true =>
      have hletter : 65 ≤ c.toNat := by
        rcases Bool.or_eq_true_iff.mp hcase with hupper | hlower
        · exact UInt32.le_iff_toNat_le.mp (of_decide_eq_true hupper).1
        · have hle : 97 ≤ c.toNat :=
            UInt32.le_iff_toNat_le.mp (of_decide_eq_true (Bool.and_eq_true_iff.mp hlower).1)
          omega
      omega

theorem not_isAbbreviation_zeroPadded (width n : Nat) :
    isAbbreviation (Text.zeroPadded width n) = false := by
  rcases exists_digit_zeroPadded width n with ⟨d, digits, hdigits, hd⟩
  have hdate : IsDateChar d := Or.inl hd
  have hletter := (Bool.or_eq_false_iff.mp (not_isAlpha_of_isDigit hd)).2
  simp [isAbbreviation, hdigits, hdate.foldCase_eq, hletter]

/-!
# Taking suffixes and dots off the words
-/

theorem foldCase_of_isLower_toLower {c : Char} (h : c.toLower.isLower = true) :
    foldCase c = c.toLower := by
  have hs : c ≠ '\u017F' := by
    rintro rfl
    cases h
  have hk : c ≠ '\u212A' := by
    rintro rfl
    cases h
  rw [foldCase, if_neg hs, if_neg hk]

theorem exists_of_ordinalSuffixes {suffix : Text}
    (h : suffix.map Char.toLower ∈ ordinalSuffixes) :
    ∃ c d, suffix = [c, d] ∧ isOrdinalSuffix c d = true ∧ c.isAlpha = true ∧ d.isAlpha = true := by
  have htable : ∀ letters ∈ ordinalSuffixes, ∃ a b, letters = [a, b] ∧
      [('s', 't'), ('n', 'd'), ('r', 'd'), ('t', 'h')].contains (a, b) = true ∧
      a.isLower = true ∧ b.isLower = true := by
    simp [ordinalSuffixes]
  rcases htable _ h with ⟨a, b, hletters, hpair, ha, hb⟩
  rcases List.map_eq_cons_iff.mp hletters with ⟨c, rest, rfl, rfl, hrest⟩
  rcases List.map_eq_singleton_iff.mp hrest with ⟨d, rfl, rfl⟩
  refine ⟨c, d, rfl, ?_, isAlpha_of_isLower_toLower ha, isAlpha_of_isLower_toLower hb⟩
  rw [isOrdinalSuffix, foldCase_of_isLower_toLower ha, foldCase_of_isLower_toLower hb]
  exact hpair

theorem isDecimalDigit_of_isDigit {c : Char} (h : c.isDigit = true) :
    Text.isDecimalDigit c = true := by
  have hrange := Char.isDigit_iff_toNat.mp h
  apply List.any_eq_true.mpr
  refine ⟨0x30, by simp [Text.decimalZeros], ?_⟩
  rw [Bool.and_eq_true, decide_eq_true_eq, decide_eq_true_eq]
  exact hrange

theorem withoutSuffix_append {number : Text} {c d : Char} (hlength : number.length ≤ 2)
    (hne : number ≠ []) (hnumber : ∀ c ∈ number, c.isDigit = true)
    (hsuffix : isOrdinalSuffix c d = true) : withoutSuffix (number ++ [c, d]) = number := by
  match number, hne, hlength with
  | [a], _, _ =>
      have ha := isDecimalDigit_of_isDigit (hnumber a (by simp))
      simp [withoutSuffix, ha, hsuffix]
  | [a, b], _, _ =>
      have ha := isDecimalDigit_of_isDigit (hnumber a (by simp))
      have hb := isDecimalDigit_of_isDigit (hnumber b (by simp))
      simp [withoutSuffix, ha, hb, hsuffix]

theorem length_zeroPadded_le {width n most : Nat} (hwidth : width ≤ most)
    (hn : (Text.decimal n).length ≤ most) : (Text.zeroPadded width n).length ≤ most := by
  rw [Text.zeroPadded, List.length_append, List.length_replicate]
  omega

theorem length_decimal_le_two {n : Nat} (h : n ≤ 99) : (Text.decimal n).length ≤ 2 :=
  (Nat.length_toDigits_le_iff (by decide) (by decide)).mpr (by omega)

theorem length_le_two {n : Nat} (hn : n ≤ 99)
    (h : part = Text.decimal n ∨ part = Text.zeroPadded 2 n) : part.length ≤ 2 := by
  have hdigits := length_decimal_le_two hn
  rcases h with rfl | rfl
  · exact hdigits
  · exact length_zeroPadded_le (Nat.le_refl 2) hdigits

theorem Item.Dressed.undressed (hdate : date.Short) (hitem : item.isWord = true)
    (h : item.Dressed date part) {rest : Text}
    (hrest : ∀ c, rest.head? = some c →
      Text.isWordChar c = false ∧ (c = '.' → item.isName = false)) :
    ∃ plain, item.Writes date plain ∧
      Calendar.undressed (part ++ rest) = plain ++ Calendar.undressed rest := by
  have hnumber : item.isName = false → item.isNumber = true := by
    intro hname
    simpa [Item.isWord, hname] using hitem
  cases h with
  | plain h =>
      refine ⟨part, h, ?_⟩
      have hkept := h.withoutSuffix_eq hitem
      have hundressed : Calendar.undressed (part ++ rest) =
          withoutSuffix part ++ Calendar.undressed rest := by
        apply undressed_word (h.ne_nil hitem) (h.isWordChar hitem)
        intro c hc
        refine ⟨(hrest c hc).1, ?_⟩
        intro hdot
        rcases h.number (hnumber ((hrest c hc).2 hdot)) with ⟨width, rfl⟩
        rw [hkept]
        exact not_isAbbreviation_zeroPadded width _
      rwa [hkept] at hundressed
  | @suffix number suffix hday h hsuffix =>
      refine ⟨number, h, ?_⟩
      subst hday
      rcases exists_of_ordinalSuffixes hsuffix with ⟨c, d, rfl, hordinal, hc, hd⟩
      rcases h.number rfl with ⟨width, hn⟩
      have hdigits : ∀ c ∈ number, c.isDigit = true := by
        intro c hc
        rw [hn] at hc
        exact Text.isDigit_zeroPadded hc
      have hkept := withoutSuffix_append (length_le_two hdate.day h) (h.ne_nil rfl) hdigits hordinal
      have hundressed : Calendar.undressed (number ++ [c, d] ++ rest) =
          withoutSuffix (number ++ [c, d]) ++ Calendar.undressed rest := by
        apply undressed_word (by simp)
        · intro e he
          apply Text.isWordChar_of_isAlphanum
          rcases List.mem_append.mp he with hdigit | hletter
          · simp [Char.isAlphanum, hdigits e hdigit]
          · rcases List.mem_pair.mp hletter with rfl | rfl
            · simp [Char.isAlphanum, hc]
            · simp [Char.isAlphanum, hd]
        · intro e he
          refine ⟨(hrest e he).1, ?_⟩
          intro _
          rw [hkept, hn]
          exact not_isAbbreviation_zeroPadded width _
      rwa [hkept] at hundressed
  | @dot name hname h hlength =>
      refine ⟨name, h, ?_⟩
      have hkept := h.withoutSuffix_eq hitem
      have habbreviation : isAbbreviation (withoutSuffix name) = true := by
        rw [hkept]
        exact (monthSpellings_facts name (h.name hname)).2.2.2 hlength
      have hundressed := undressed_dot habbreviation (h.isWordChar hitem) rest
      rw [hkept] at hundressed
      rw [List.append_assoc]
      exact hundressed

end Words

section Layouts

variable {parts : Item → Text → Prop} {date : Date} {item : Item} {items layout : Layout}
  {text : Text}

theorem Layout.Composed.exists_part (h : Composed parts (item :: items) text) :
    ∃ part rest, parts item part ∧ Composed parts items rest ∧ text = part ++ rest := by
  cases h with
  | cons h hrest => exact ⟨_, _, h, hrest, rfl⟩

theorem Layout.Composed.cons_char {c : Char} (hrest : Composed parts items text)
    (h : parts item [c]) : Composed parts (item :: items) (c :: text) :=
  Composed.cons h hrest

theorem Layout.Loose.exists_part (h : Loose parts (item :: items) text)
    (hitem : item ≠ .space ∧ item ≠ .mark ',') :
    ∃ part rest, parts item part ∧ Loose parts items rest ∧ text = part ++ rest := by
  cases h with
  | part _ h hrest => exact ⟨_, _, h, hrest, rfl⟩
  | space => exact absurd rfl hitem.1
  | comma => exact absurd rfl hitem.2

theorem Layout.Loose.exists_space (h : Loose parts (.space :: items) text) :
    ∃ gap rest, gap ≠ [] ∧ (∀ c ∈ gap, Text.isBlank c = true) ∧ Loose parts items rest ∧
      text = gap ++ rest := by
  cases h with
  | part hitem => exact absurd rfl hitem.1
  | space hne hgap hrest => exact ⟨_, _, hne, hgap, hrest, rfl⟩

theorem Layout.Loose.exists_comma (h : Loose parts (.mark ',' :: .space :: items) text) :
    ∃ before after rest, (∀ c ∈ before, Text.isBlank c = true) ∧
      (∀ c ∈ after, Text.isBlank c = true) ∧ Loose parts items rest ∧
      text = before ++ ',' :: (after ++ rest) := by
  cases h with
  | part hitem => exact absurd rfl hitem.2
  | comma hbefore hafter hrest => exact ⟨_, _, _, hbefore, hafter, hrest, rfl⟩

theorem Item.Dressed.mark {c : Char} {part : Text} (h : (Item.mark c).Dressed date part) :
    part = [c] := by
  cases h with
  | plain h => exact h
  | suffix hday => cases hday
  | dot hname => cases hname

theorem not_isWordChar_mark {c : Char} (h : c ∈ ['-', '/', '.']) : Text.isWordChar c = false := by
  have hall : ['-', '/', '.'].all (fun c => !Text.isWordChar c) = true := by decide +kernel
  simpa using List.all_eq_true.mp hall c h

theorem Layout.mark_ne {c : Char} (h : c ∈ ['-', '/', '.']) :
    Item.mark c ≠ .space ∧ Item.mark c ≠ .mark ',' := by
  constructor
  · intro heq
    cases heq
  · rintro ⟨⟩
    simp at h

theorem Item.Dressed.undressed_separator (hdate : date.Short) (hitem : item.isWord = true)
    {part : Text} (h : item.Dressed date part) {gap : Text} (hne : gap ≠ [])
    (hgap : ∀ c ∈ gap, Text.isWordChar c = false) (hdot : '.' ∈ gap → item.isName = false)
    (rest : Text) :
    ∃ plain, item.Writes date plain ∧
      Calendar.undressed (part ++ (gap ++ rest)) =
        plain ++ (gap ++ Calendar.undressed rest) := by
  have hnext : ∀ c, (gap ++ rest).head? = some c →
      Text.isWordChar c = false ∧ (c = '.' → item.isName = false) := by
    intro c hc
    rw [List.head?_append_of_ne_nil _ hne] at hc
    have hmem := List.mem_of_mem_head? hc
    refine ⟨hgap c hmem, ?_⟩
    rintro rfl
    exact hdot hmem
  rcases h.undressed hdate hitem hnext with ⟨plain, hplain, heq⟩
  refine ⟨plain, hplain, ?_⟩
  rw [heq, undressed_gap hgap]

theorem dot_not_mem_of_blank {gap : Text} (h : ∀ c ∈ gap, Text.isBlank c = true) : '.' ∉ gap := by
  intro hmem
  cases h '.' hmem

theorem Layout.Loose.undressed (hdate : date.Short) (hlayout : layout.Proper)
    (h : layout.Loose (Item.Dressed date) text) :
    layout.Loose (Item.Writes date) (Calendar.undressed text) := by
  induction hlayout generalizing text with
  | @word item hitem =>
      rcases h.exists_part (Item.ne_of_isWord hitem) with ⟨part, rest, hpart, hrest, rfl⟩
      cases hrest
      have hnext : ∀ c, ([] : Text).head? = some c →
          Text.isWordChar c = false ∧ (c = '.' → item.isName = false) := by simp
      rcases hpart.undressed hdate hitem hnext with ⟨plain, hplain, heq⟩
      rw [heq]
      exact Loose.part (Item.ne_of_isWord hitem) hplain Loose.nil
  | space hitem _ ih =>
      rcases h.exists_part (Item.ne_of_isWord hitem) with ⟨part, others, hpart, hothers, rfl⟩
      rcases hothers.exists_space with ⟨gap, rest, hne, hgap, hrest, rfl⟩
      have hgap' : ∀ c ∈ gap, Text.isWordChar c = false :=
        fun c hc => Text.isWordChar_of_isBlank (hgap c hc)
      have hdot : '.' ∉ gap := dot_not_mem_of_blank hgap
      rcases hpart.undressed_separator hdate hitem hne hgap' (absurd · hdot) rest with
        ⟨plain, hplain, heq⟩
      rw [heq]
      exact Loose.part (Item.ne_of_isWord hitem) hplain (Loose.space hne hgap (ih hrest))
  | comma hitem _ ih =>
      rcases h.exists_part (Item.ne_of_isWord hitem) with ⟨part, others, hpart, hothers, rfl⟩
      rcases hothers.exists_comma with ⟨before, after, rest, hbefore, hafter, hrest, rfl⟩
      have hgap : ∀ c ∈ before ++ ',' :: after, Text.isWordChar c = false := by
        intro c hc
        rcases List.mem_append.mp hc with hc | hc
        · exact Text.isWordChar_of_isBlank (hbefore c hc)
        · rcases List.mem_cons.mp hc with rfl | hc
          · decide +kernel
          · exact Text.isWordChar_of_isBlank (hafter c hc)
      have hdot : '.' ∉ before ++ ',' :: after := by
        simp [dot_not_mem_of_blank hbefore, dot_not_mem_of_blank hafter]
      rcases hpart.undressed_separator hdate hitem (by simp) hgap (absurd · hdot) rest with
        ⟨plain, hplain, heq⟩
      simp only [List.append_assoc, List.cons_append] at heq
      rw [heq]
      exact Loose.part (Item.ne_of_isWord hitem) hplain (Loose.comma hbefore hafter (ih hrest))
  | @mark item c items hitem hc hdot _ ih =>
      rcases h.exists_part (Item.ne_of_isWord hitem) with ⟨part, others, hpart, hothers, rfl⟩
      rcases hothers.exists_part (mark_ne hc) with ⟨mark, rest, hmark, hrest, rfl⟩
      have hgap : ∀ d ∈ [c], Text.isWordChar d = false := by
        simp [not_isWordChar_mark hc]
      rcases hpart.undressed_separator hdate hitem (List.cons_ne_nil c []) hgap
        (fun hmem => hdot (List.mem_singleton.mp hmem).symm) rest with ⟨plain, hplain, heq⟩
      rw [hmark.mark, heq]
      exact Loose.part (Item.ne_of_isWord hitem) hplain (Loose.part (mark_ne hc) rfl (ih hrest))

/-!
# Spacing the words evenly
-/

theorem singleSpaced_cons {text first : Text} {others : List Text}
    (h : Text.words text = first :: others) (word : Text) :
    [' '].intercalate (word :: Text.words text) = word ++ ' ' :: Text.singleSpaced text := by
  rw [Text.singleSpaced, h, List.intercalate_cons_cons, List.append_assoc]
  rfl

def StartsVisibly (text : Text) : Prop :=
  ∃ c rest, text = c :: rest ∧ Text.isBlank c = false ∧ c ≠ ','

theorem StartsVisibly.cut {a b : Text} (h : StartsVisibly (a ++ ',' :: b)) : StartsVisibly a := by
  rcases h with ⟨c, rest, heq, hblank, hcomma⟩
  cases a with
  | nil =>
      cases heq
      exact absurd rfl hcomma
  | cons d a =>
      cases heq
      exact ⟨c, a, rfl, hblank, hcomma⟩

theorem commaSpaced_append_of_singleSpaced {front out : Text} (hfront : ',' ∉ front)
    (h : ∀ text, StartsVisibly text → ',' ∉ text →
      Text.singleSpaced (front ++ text) = out ++ Text.singleSpaced text)
    {text : Text} (htext : StartsVisibly text) :
    commaSpaced (front ++ text) = out ++ commaSpaced text := by
  have hplain : ∀ text, StartsVisibly text → ',' ∉ text →
      commaSpaced (front ++ text) = out ++ commaSpaced text := by
    intro text hstart hcomma
    have hcomma' : ',' ∉ front ++ text := by simp [hfront, hcomma]
    rw [commaSpaced_of_not_mem hcomma', commaSpaced_of_not_mem hcomma, h text hstart hcomma]
  by_cases hcomma : ',' ∈ text
  · rcases List.eq_append_cons_of_mem hcomma with ⟨a, b, rfl, ha⟩
    rw [← List.append_assoc, commaSpaced_append_comma, hplain a htext.cut ha,
      commaSpaced_append_comma, List.append_assoc]
  · exact hplain text htext hcomma

theorem commaSpaced_word {word : Text} (hne : word ≠ [])
    (hblank : ∀ c ∈ word, Text.isBlank c = false) (hcomma : ',' ∉ word) :
    commaSpaced word = word := by
  rw [commaSpaced_of_not_mem hcomma, singleSpaced_eq_self hne hblank]

theorem commaSpaced_word_append {word : Text} (hblank : ∀ c ∈ word, Text.isBlank c = false)
    (hcomma : ',' ∉ word) {rest : Text} (hrest : StartsVisibly rest) :
    commaSpaced (word ++ rest) = word ++ commaSpaced rest := by
  apply commaSpaced_append_of_singleSpaced hcomma _ hrest
  rintro _ ⟨c, text, rfl, hc, _⟩ _
  rcases Text.words_visible_append hblank hc text with ⟨first, others, hwords, hall⟩
  rw [Text.singleSpaced, Text.singleSpaced, hwords, hall]
  cases others with
  | nil => simp
  | cons next others => simp [List.intercalate_cons_cons]

theorem commaSpaced_word_gap {word : Text} (hne : word ≠ [])
    (hblank : ∀ c ∈ word, Text.isBlank c = false) (hcomma : ',' ∉ word) {gap : Text}
    (hgap : gap ≠ []) (hgap' : ∀ c ∈ gap, Text.isBlank c = true) {rest : Text}
    (hrest : StartsVisibly rest) :
    commaSpaced (word ++ (gap ++ rest)) = word ++ ' ' :: commaSpaced rest := by
  have hfront : ',' ∉ word ++ gap := by
    simp [hcomma, comma_not_mem_of_blank hgap']
  have hspaced : ∀ text, StartsVisibly text → ',' ∉ text →
      Text.singleSpaced (word ++ gap ++ text) = (word ++ [' ']) ++ Text.singleSpaced text := by
    rintro _ ⟨c, text, rfl, hc, _⟩ _
    rcases Text.words_visible_append (List.forall_mem_nil _) hc text with
      ⟨first, others, hwords, _⟩
    rw [List.append_assoc, Text.singleSpaced, Text.words_append_gap hgap hgap',
      Text.words_of_visible hne hblank, List.singleton_append, singleSpaced_cons hwords,
      List.append_assoc]
    rfl
  have hall := commaSpaced_append_of_singleSpaced hfront hspaced hrest
  simpa only [List.append_assoc, List.singleton_append] using hall

theorem Item.Writes.startsVisibly (hitem : item.isWord = true) {part : Text}
    (h : item.Writes date part) (rest : Text) : StartsVisibly (part ++ rest) := by
  cases part with
  | nil => exact absurd rfl (h.ne_nil hitem)
  | cons c part =>
      refine ⟨c, part ++ rest, rfl, h.not_isBlank hitem c List.mem_cons_self, ?_⟩
      rintro rfl
      exact h.comma_not_mem hitem List.mem_cons_self

theorem Layout.Proper.exists_word (h : layout.Proper) :
    ∃ item items, layout = item :: items ∧ item.isWord = true := by
  cases h with
  | word hitem | space hitem | comma hitem | mark hitem => exact ⟨_, _, rfl, hitem⟩

theorem Layout.Loose.startsVisibly (hlayout : layout.Proper)
    (h : layout.Loose (Item.Writes date) text) : StartsVisibly text := by
  rcases hlayout.exists_word with ⟨item, items, rfl, hitem⟩
  rcases h.exists_part (Item.ne_of_isWord hitem) with ⟨part, rest, hpart, _, rfl⟩
  exact hpart.startsVisibly hitem rest

theorem not_isBlank_mark {c : Char} (h : c ∈ ['-', '/', '.']) :
    Text.isBlank c = false ∧ c ≠ ',' := by
  have hall : ['-', '/', '.'].all (fun c => !Text.isBlank c && c != ',') = true := by decide
  simpa using List.all_eq_true.mp hall c h

theorem Layout.Loose.commaSpaced (hlayout : layout.Proper)
    (h : layout.Loose (Item.Writes date) text) :
    layout.Writes date (Calendar.commaSpaced text) := by
  induction hlayout generalizing text with
  | word hitem =>
      rcases h.exists_part (Item.ne_of_isWord hitem) with ⟨part, rest, hpart, hrest, rfl⟩
      cases hrest
      have hword := commaSpaced_word (hpart.ne_nil hitem) (hpart.not_isBlank hitem)
        (hpart.comma_not_mem hitem)
      rw [List.append_nil, hword, ← List.append_nil part]
      exact Composed.cons hpart Composed.nil
  | space hitem hproper ih =>
      rcases h.exists_part (Item.ne_of_isWord hitem) with ⟨part, others, hpart, hothers, rfl⟩
      rcases hothers.exists_space with ⟨gap, rest, hne, hgap, hrest, rfl⟩
      rw [commaSpaced_word_gap (hpart.ne_nil hitem) (hpart.not_isBlank hitem)
        (hpart.comma_not_mem hitem) hne hgap (hrest.startsVisibly hproper)]
      exact Composed.cons hpart ((ih hrest).cons_char rfl)
  | @comma item items hitem hproper ih =>
      rcases h.exists_part (Item.ne_of_isWord hitem) with ⟨part, others, hpart, hothers, rfl⟩
      rcases hothers.exists_comma with ⟨before, after, rest, hbefore, hafter, hrest, rfl⟩
      have hspace : Writes (.space :: items) date (' ' :: Calendar.commaSpaced rest) :=
        (ih hrest).cons_char rfl
      rw [commaSpaced_comma hbefore hafter, commaSpaced_word (hpart.ne_nil hitem)
        (hpart.not_isBlank hitem) (hpart.comma_not_mem hitem)]
      exact Composed.cons hpart (hspace.cons_char rfl)
  | @mark item c items hitem hc hdot hproper ih =>
      rcases h.exists_part (Item.ne_of_isWord hitem) with ⟨part, others, hpart, hothers, rfl⟩
      rcases hothers.exists_part (mark_ne hc) with ⟨mark, rest, rfl, hrest, rfl⟩
      have hmark := not_isBlank_mark hc
      have hrest' : StartsVisibly ([c] ++ rest) := ⟨c, rest, rfl, hmark⟩
      rw [commaSpaced_word_append (hpart.not_isBlank hitem) (hpart.comma_not_mem hitem) hrest',
        commaSpaced_word_append (by simp [hmark.1]) (by simpa using hmark.2.symm)
          (hrest.startsVisibly hproper)]
      exact Composed.cons hpart ((ih hrest).cons_char rfl)

/-!
# Cleaning a date with cosmetics
-/

theorem Item.Writes.trimmed (hitem : item.isWord = true) {part : Text}
    (h : item.Writes date part) : Text.Trimmed part where
  first := by
    intro c hc
    exact h.not_isBlank hitem c (List.mem_of_mem_head? hc)
  last := by
    intro c hc
    exact h.not_isBlank hitem c (List.mem_of_mem_getLast? hc)

theorem Layout.Writes.trimmed (hlayout : layout.Proper) (h : layout.Writes date text) :
    Text.Trimmed text ∧ text ≠ [] := by
  induction hlayout generalizing text with
  | word hitem =>
      rcases h.exists_part with ⟨part, rest, hpart, hrest, rfl⟩
      cases hrest
      rw [List.append_nil]
      exact ⟨hpart.trimmed hitem, hpart.ne_nil hitem⟩
  | space hitem _ ih | mark hitem _ _ _ ih =>
      rcases h.exists_part with ⟨part, others, hpart, hothers, rfl⟩
      rcases hothers.exists_part with ⟨gap, rest, _, hrest, rfl⟩
      rcases ih hrest with ⟨htrimmed, hne⟩
      rw [← List.append_assoc]
      exact ⟨(hpart.trimmed hitem).append gap htrimmed (hpart.ne_nil hitem) hne, by simp [hne]⟩
  | comma hitem _ ih =>
      rcases h.exists_part with ⟨part, others, hpart, hothers, rfl⟩
      rcases hothers.exists_part with ⟨mark, others, _, hspace, rfl⟩
      rcases hspace.exists_part with ⟨gap, rest, _, hrest, rfl⟩
      rcases ih hrest with ⟨htrimmed, hne⟩
      rw [← List.append_assoc mark, ← List.append_assoc]
      exact ⟨(hpart.trimmed hitem).append (mark ++ gap) htrimmed (hpart.ne_nil hitem) hne,
        by simp [hne]⟩

theorem Layout.Varies.clean (hdate : date.Short) (hlayout : layout.Proper)
    (h : layout.Varies date text) : layout.Writes date (Calendar.clean text) := by
  rcases h with ⟨hlead, hloose, htail⟩
  have hplain := (hloose.undressed hdate hlayout).commaSpaced hlayout
  rw [clean_blanks_around hlead htail, clean_eq, (hplain.trimmed hlayout).1.trim_eq]
  exact hplain

theorem Layout.Writes.loose (hlayout : layout.Proper) (h : layout.Writes date text) :
    layout.Loose (Item.Dressed date) text := by
  induction hlayout generalizing text with
  | word hitem =>
      rcases h.exists_part with ⟨part, rest, hpart, hrest, rfl⟩
      cases hrest
      exact Loose.part (Item.ne_of_isWord hitem) (Item.Dressed.plain hpart) Loose.nil
  | space hitem _ ih =>
      rcases h.exists_part with ⟨part, others, hpart, hothers, rfl⟩
      rcases hothers.exists_part with ⟨gap, rest, rfl, hrest, rfl⟩
      exact Loose.part (Item.ne_of_isWord hitem) (Item.Dressed.plain hpart)
        (Loose.space (List.cons_ne_nil _ _) Text.isBlank_space (ih hrest))
  | comma hitem _ ih =>
      rcases h.exists_part with ⟨part, others, hpart, hothers, rfl⟩
      rcases hothers.exists_part with ⟨mark, others, rfl, hspace, rfl⟩
      rcases hspace.exists_part with ⟨gap, rest, rfl, hrest, rfl⟩
      have hcomma := Loose.comma (List.forall_mem_nil _) Text.isBlank_space (ih hrest)
      exact Loose.part (Item.ne_of_isWord hitem) (Item.Dressed.plain hpart) hcomma
  | mark hitem hc _ _ ih =>
      rcases h.exists_part with ⟨part, others, hpart, hothers, rfl⟩
      rcases hothers.exists_part with ⟨mark, rest, hmark, hrest, rfl⟩
      exact Loose.part (Item.ne_of_isWord hitem) (Item.Dressed.plain hpart)
        (Loose.part (mark_ne hc) (Item.Dressed.plain hmark) (ih hrest))

theorem Layout.Writes.varies (hlayout : layout.Proper) (h : layout.Writes date text) :
    layout.Varies date text := by
  have hvaries := Varies.mk (List.forall_mem_nil _) (h.loose hlayout) (List.forall_mem_nil _)
  rwa [List.nil_append, List.append_nil] at hvaries

end Layouts

end Calendar
end SourceTidy
