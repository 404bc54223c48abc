import Mathlib.Tactic.IntervalCases
import SourceTidy.Proofs.Calendar.Cosmetics
import SourceTidy.Proofs.Calendar.Unread

/-!
# Parts that read what other parts wrote

A part of one layout may come upon what was written for a part of another layout.  It reads all of
it, or it cannot begin, or it reads a piece and leaves the rest.  Which of them happens is told by
the two parts alone, whatever the date is.
-/

namespace SourceTidy
namespace Calendar

/-!
# How a part begins
-/

def Item.isSeparator : Item → Bool
  | .space => true
  | .mark c => ['-', '/', '.', ','].contains c
  | _ => false

def Item.Known (item : Item) : Prop :=
  item.isWord = true ∨ item.isSeparator = true

/-- The characters that can begin what is written for a part of a layout. -/
def Item.Opens (c : Char) : Item → Prop
  | .year | .month | .day => c.isDigit = true
  | .monthName | .shortMonthName => c.isAlpha = true
  | .space => c = ' '
  | .mark d => c = d

section Opens

variable {c : Char} {item part : Item}

theorem Item.Writes.opens {date : Date} {text : Text} (h : item.Writes date text) :
    ∃ c rest, text = c :: rest ∧ item.Opens c := by
  have hnumber : item.isNumber = true → ∃ c rest, text = c :: rest ∧ c.isDigit = true := by
    intro hitem
    rcases h.number hitem with ⟨width, rfl⟩
    exact exists_digit_zeroPadded width _
  have hname : item.isName = true → ∃ c rest, text = c :: rest ∧ c.isAlpha = true := by
    intro hitem
    rcases monthSpellings_facts text (h.name hitem) with ⟨hne, hletters, _⟩
    rcases List.exists_cons_of_ne_nil hne with ⟨c, rest, rfl⟩
    exact ⟨c, rest, rfl, hletters c List.mem_cons_self⟩
  cases item with
  | year | month | day => exact hnumber rfl
  | monthName | shortMonthName => exact hname rfl
  | space => exact ⟨' ', [], h, rfl⟩
  | mark c => exact ⟨c, [], h, rfl⟩

theorem Item.Opens.isAlphanum (hc : item.Opens c) (h : item.isWord = true) :
    c.isAlphanum = true := by
  cases item with
  | year | month | day =>
      have hdigit : c.isDigit = true := hc
      simp [Char.isAlphanum, hdigit]
  | monthName | shortMonthName =>
      have hletter : c.isAlpha = true := hc
      simp [Char.isAlphanum, hletter]
  | space | mark => cases h

theorem mark_facts (h : c ∈ ['-', '/', '.', ',']) :
    c.isAlphanum = false ∧ Text.isBlank c = false := by
  have hall : ['-', '/', '.', ','].all (fun c => !c.isAlphanum && !Text.isBlank c) = true := by
    decide
  simpa using List.all_eq_true.mp hall c h

theorem Item.Opens.not_isAlphanum (hc : item.Opens c) (h : item.isSeparator = true) :
    c.isAlphanum = false := by
  cases item with
  | year | month | day | monthName | shortMonthName => cases h
  | space =>
      cases hc
      rfl
  | mark d =>
      cases hc
      exact (mark_facts (List.contains_iff_mem.mp h)).1

/-!
# Parts that cannot begin
-/

/-- Whether a part of a layout cannot begin to read what is written for another part. -/
def Item.clashes : Item → Item → Bool
  -- A year may have a sign, and numbers may have blanks in front of them.
  | .year, part => !part.isNumber && part != .space && part != .mark '-'
  | .month, part | .day, part => !part.isNumber && part != .space
  | .monthName, part | .shortMonthName, part => !part.isName
  | .space, _ => false
  | .mark c, part => part != .mark c

theorem not_isLower_toLower (h : c.isAlpha = false) : c.toLower.isLower = false := by
  cases hlower : c.toLower.isLower with
  | false => rfl
  | true =>
      rw [isAlpha_of_isLower_toLower hlower] at h
      cases h

theorem Item.Opens.not_isAlpha (hc : part.Opens c) (hname : part.isName = false)
    (hpart : part.Known) : c.isAlpha = false := by
  rcases hpart with hword | hseparator
  · cases part with
    | year | month | day => exact not_isAlpha_of_isDigit hc
    | monthName | shortMonthName => cases hname
    | space | mark => cases hword
  · exact (Bool.or_eq_false_iff.mp (hc.not_isAlphanum hseparator)).1

theorem Item.Opens.not_isDigit (hc : part.Opens c) (hnumber : part.isNumber = false)
    (hpart : part.Known) : c.isDigit = false := by
  rcases hpart with hword | hseparator
  · cases part with
    | year | month | day => cases hnumber
    | monthName | shortMonthName =>
        have hletter : c.isAlpha = true := hc
        cases hdigit : c.isDigit with
        | false => rfl
        | true =>
            rw [not_isAlpha_of_isDigit hdigit] at hletter
            cases hletter
    | space | mark => cases hword
  · exact (Bool.or_eq_false_iff.mp (hc.not_isAlphanum hseparator)).2

theorem Item.Opens.not_isBlank (hc : part.Opens c) (hspace : part ≠ .space)
    (hpart : part.Known) : Text.isBlank c = false := by
  rcases hpart with hword | hseparator
  · exact Text.not_isBlank_of_isWordChar (Text.isWordChar_of_isAlphanum (hc.isAlphanum hword))
  · cases part with
    | year | month | day | monthName | shortMonthName => cases hseparator
    | space => exact absurd rfl hspace
    | mark d =>
        cases hc
        exact (mark_facts (List.contains_iff_mem.mp hseparator)).2

theorem Item.Opens.eq_mark (hc : part.Opens c) (h : c.isAlphanum = false)
    (hblank : Text.isBlank c = false) : part = .mark c := by
  cases part with
  | year | month | day | monthName | shortMonthName =>
      rw [hc.isAlphanum rfl] at h
      cases h
  | space =>
      cases hc
      cases hblank
  | mark d =>
      cases hc
      rfl

theorem Item.leaves_of_clashes (hitem : item.Known)
    (hpart : part.Known) (h : item.clashes part = true)
    (hc : part.Opens c) : item.Leaves c := by
  cases item with
  | year =>
      simp only [Item.clashes, Bool.and_eq_true, Bool.not_eq_true', bne_iff_ne] at h
      refine ⟨hc.not_isDigit h.1.1 hpart, hc.not_isBlank h.1.2 hpart, ?_, ?_⟩
      · rintro rfl
        exact h.2 (hc.eq_mark rfl (by decide))
      · rintro rfl
        rw [hc.eq_mark rfl (by decide)] at hpart
        rcases hpart with hword | hseparator
        · cases hword
        · cases hseparator
  | month | day =>
      simp only [Item.clashes, Bool.and_eq_true, Bool.not_eq_true', bne_iff_ne] at h
      exact ⟨hc.not_isDigit h.1 hpart, hc.not_isBlank h.2 hpart⟩
  | monthName | shortMonthName =>
      simp only [Item.clashes, Bool.not_eq_true'] at h
      exact not_isLower_toLower (hc.not_isAlpha h hpart)
  | space => cases h
  | mark d =>
      simp only [Item.clashes, bne_iff_ne] at h
      rintro rfl
      rcases hitem with hword | hseparator
      · cases hword
      · rcases mark_facts (List.contains_iff_mem.mp hseparator) with ⟨halphanum, hblank⟩
        exact h (hc.eq_mark halphanum hblank)

theorem readMonthName?_eq_none (hc : c.toLower.isLower = false) {names : List (Text × Text)}
    (hnames : ∀ name ∈ names, ∃ m short, name.1 = m :: short ∧ m.isLower = true) (start : Nat)
    (rest : Text) : readMonthName? (c :: rest) start names = none := by
  induction names generalizing start with
  | nil => rfl
  | cons name names ih =>
      rcases name with ⟨short, long⟩
      rw [List.forall_mem_cons] at hnames
      rcases hnames.1 with ⟨m, others, heq, hm⟩
      cases heq
      have hne : c.toLower ≠ m := by
        rintro rfl
        rw [hm] at hc
        cases hc
      rw [readMonthName?, afterName?, if_neg hne]
      exact ih hnames.2 (start + 1)

theorem takeDigits?_eq_none (hc : c.isDigit = false) (most : Nat) (rest : Text) :
    Text.takeDigits? (some most) (c :: rest) = none := by
  simp [Text.takeDigits?, hc]

theorem Item.Leaves.read?_eq_none (hc : item.Leaves c) (hspace : item ≠ .space) (before : Date)
    (rest : Text) : item.read? before (c :: rest) = none := by
  have hstart : Text.isBlank c = false → Text.trimStart (c :: rest) = c :: rest := by
    intro hblank
    exact Text.trimStart_eq_self (by simpa using hblank)
  have hname : c.toLower.isLower = false → readMonthName? (c :: rest) 1 monthNames = none := by
    intro hletter
    apply readMonthName?_eq_none hletter
    simp [monthNames]
  cases item with
  | year =>
      rcases hc with ⟨hdigit, hblank, hminus, hplus⟩
      rw [Item.read?, readYear?, hstart hblank]
      split
      · next heq =>
          cases heq
          exact absurd rfl hminus
      · next heq =>
          cases heq
          exact absurd rfl hplus
      · rw [takeDigits?_eq_none hdigit]
        rfl
  | month | day =>
      rw [Item.read?, hstart hc.2, takeDigits?_eq_none hc.1]
      rfl
  | monthName | shortMonthName =>
      rw [Item.read?, hname hc]
      rfl
  | space => exact absurd rfl hspace
  | mark d => exact if_neg fun heq => hc heq.symm

end Opens

/-!
# Parts that are read whole
-/

/-- Whether a part of a layout reads all that is written for another part. -/
def Item.takes : Item → Item → Bool
  | .year, part => part.isNumber
  | .month, part | .day, part => part == .month || part == .day
  | .monthName, part => part.isName
  | item, part => item == part

def Item.put (n : Nat) (date : Date) : Item → Date
  | .year => { date with year := n }
  | .month | .monthName | .shortMonthName => { date with month := n }
  | .day => { date with day := n }
  | .space | .mark _ => date

section Parts

variable {date : Date} {item part : Item} {text rest : Text}

/-- Which parts may stand behind a part: a separator behind a word, a word behind a space. -/
def Item.mayPrecede (item next : Item) : Bool :=
  if item.isWord then next.isSeparator else item != .space || next.isWord

/-- What comes behind a part begins with an item that may stand there. -/
def Item.Followed (part : Item) (rest : Text) : Prop :=
  ∀ c, rest.head? = some c → ∃ next : Item, part.mayPrecede next = true ∧ next.Opens c

theorem Item.Followed.not_isAlphanum (h : part.Followed rest) (hpart : part.isWord = true) :
    ∀ c, rest.head? = some c → c.isAlphanum = false := by
  intro c hc
  rcases h c hc with ⟨next, hnext, hopens⟩
  rw [Item.mayPrecede, if_pos hpart] at hnext
  exact hopens.not_isAlphanum hnext

theorem Item.Followed.not_isDigit (h : part.Followed rest) (hpart : part.isWord = true) :
    ∀ c, rest.head? = some c → c.isDigit = false :=
  fun c hc => (Bool.or_eq_false_iff.mp (h.not_isAlphanum hpart c hc)).2

theorem Item.Followed.not_isAlpha (h : part.Followed rest) (hpart : part.isWord = true) :
    ∀ c, rest.head? = some c → c.isAlpha = false :=
  fun c hc => (Bool.or_eq_false_iff.mp (h.not_isAlphanum hpart c hc)).1

theorem Item.Followed.trimStart_eq (h : Item.space.Followed rest) :
    Text.trimStart (' ' :: rest) = rest := by
  have hrest : Text.trimStart rest = rest := by
    apply Text.trimStart_eq_self
    intro c hc
    rcases h c hc with ⟨next, hnext, hopens⟩
    have hword : next.isWord = true := hnext
    exact Text.not_isBlank_of_isWordChar (Text.isWordChar_of_isAlphanum (hopens.isAlphanum hword))
  exact hrest

theorem length_year (hdate : date.Short) (h : Item.year.Writes date text) : text.length = 4 := by
  have hyear := hdate.year
  cases h
  apply Text.length_zeroPadded
  exact (Nat.length_toDigits_le_iff (by decide) (by decide)).mpr (by omega)

theorem length_number (hdate : date.Short) (hpart : part.isNumber = true)
    (h : part.Writes date text) : text.length ≤ 4 := by
  cases part with
  | year => exact Nat.le_of_eq (length_year hdate h)
  | month => exact Nat.le_trans (length_le_two hdate.month.2 h) (by decide)
  | day => exact Nat.le_trans (length_le_two hdate.day h) (by decide)
  | monthName | shortMonthName | space | mark => cases hpart

theorem takeDigits?_number (hdate : date.Short) (hpart : part = .month ∨ part = .day)
    (h : part.Writes date text) (hrest : part.Followed rest) :
    Text.takeDigits? (some 2) (Text.trimStart (text ++ rest)) = some (part.number date, rest) := by
  have hnumber : part.isNumber = true := by
    rcases hpart with rfl | rfl
    · rfl
    · rfl
  have hlength : text.length ≤ 2 := by
    rcases hpart with rfl | rfl
    · exact length_le_two hdate.month.2 h
    · exact length_le_two hdate.day h
  have hword : part.isWord = true := by simp [Item.isWord, hnumber]
  rcases h.number hnumber with ⟨width, rfl⟩
  rw [trimStart_zeroPadded]
  exact Text.takeDigits?_some_zeroPadded hlength fun _ => hrest.not_isDigit hword

theorem readMonthName?_short {month : Nat} {name : Text} (hmonth : 1 ≤ month)
    (h : englishMonths[month - 1]? = some name) (rest : Text) :
    readMonthName? (name.take 3 ++ rest) 1 monthNames =
      some (month, (name.drop 3).map Char.toLower, rest) := by
  have hindex : month - 1 < 12 := (List.getElem?_eq_some_iff.mp h).1
  have hlast : month ≤ 12 := by omega
  interval_cases month <;> cases h <;> rfl

theorem readMonthName?_full {month : Nat} {name : Text} (hmonth : 1 ≤ month)
    (h : englishMonths[month - 1]? = some name) (rest : Text) :
    readMonthName? (name ++ rest) 1 monthNames =
      some (month, (name.drop 3).map Char.toLower, name.drop 3 ++ rest) := by
  have hshort := readMonthName?_short hmonth h (name.drop 3 ++ rest)
  rwa [← List.append_assoc, List.take_append_drop] at hshort

theorem afterName?_append (name rest : Text) :
    afterName? (name.map Char.toLower) (name ++ rest) = some rest := by
  induction name with
  | nil => rfl
  | cons c name ih => simp [afterName?, ih]

theorem isLower_longNames :
    ∀ name ∈ englishMonths, ∀ m ∈ (name.drop 3).map Char.toLower, m.isLower = true := by
  have hall : ∀ name ∈ englishMonths,
      ((name.drop 3).map Char.toLower).all Char.isLower = true := by
    decide
  simpa only [List.all_eq_true] using hall

theorem afterName?_getD {long : Text} (hlong : ∀ m ∈ long, m.isLower = true)
    (h : ∀ c, rest.head? = some c → c.isAlpha = false) :
    (afterName? long rest).getD rest = rest := by
  cases long with
  | nil => rfl
  | cons m long =>
      cases rest with
      | nil => rfl
      | cons c rest =>
          have hne : c.toLower ≠ m := by
            rintro rfl
            have hlower := hlong c.toLower List.mem_cons_self
            rw [not_isLower_toLower (h c rfl)] at hlower
            cases hlower
          rw [afterName?, if_neg hne]
          rfl

theorem read?_monthName (hdate : date.Short) (hpart : part.isName = true)
    (h : part.Writes date text) (hrest : part.Followed rest) (before : Date) :
    Item.monthName.read? before (text ++ rest) =
      some ({ before with month := date.month }, rest) := by
  have hword : part.isWord = true := by simp [Item.isWord, hpart]
  cases part with
  | monthName =>
      rw [Item.read?, readMonthName?_full hdate.month.1 h]
      simp only [Option.map_some, afterName?_append, Option.getD_some]
  | shortMonthName =>
      rcases h with ⟨name, hname, rfl⟩
      have hlong := isLower_longNames name (List.mem_of_getElem? hname)
      rw [Item.read?, readMonthName?_short hdate.month.1 hname]
      simp only [Option.map_some, afterName?_getD hlong (hrest.not_isAlpha hword)]
  | year | month | day | space | mark => cases hpart

/-- A part that takes another one reads what is written for it, and nothing else. -/
theorem Item.read?_of_takes (hdate : date.Short) (htakes : item.takes part = true)
    (h : part.Writes date text) (hrest : part.Followed rest) (before : Date) :
    item.read? before (text ++ rest) = some (item.put (part.number date) before, rest) := by
  cases item with
  | year =>
      have hword : part.isWord = true := Bool.or_eq_true_iff.mpr (Or.inl htakes)
      have hlength := length_number hdate htakes h
      rcases h.number htakes with ⟨width, rfl⟩
      rw [Item.read?, readYear?_zeroPadded hlength (hrest.not_isDigit hword)]
      rfl
  | month | day =>
      have hpart : part = .month ∨ part = .day := by simpa [Item.takes] using htakes
      rw [Item.read?, takeDigits?_number hdate hpart h hrest]
      rfl
  | monthName =>
      have hnumber : part.number date = date.month := by
        cases part with
        | monthName | shortMonthName => rfl
        | year | month | day | space | mark => cases htakes
      rw [read?_monthName hdate htakes h hrest, hnumber]
      rfl
  | shortMonthName =>
      have hpart : Item.shortMonthName = part := by simpa [Item.takes] using htakes
      cases hpart
      rcases h with ⟨name, hname, rfl⟩
      rw [Item.read?, readMonthName?_short hdate.month.1 hname]
      rfl
  | space =>
      have hpart : Item.space = part := by simpa [Item.takes] using htakes
      cases hpart
      cases h
      exact congrArg (fun rest => some (before, rest)) hrest.trimStart_eq
  | mark c =>
      have hpart : Item.mark c = part := by simpa [Item.takes] using htakes
      cases hpart
      cases h
      exact read?_mark c before rest

/-!
# Parts that are read in pieces
-/

theorem read?_year_piece (hdate : date.Short) (hitem : item = .month ∨ item = .day)
    (h : Item.year.Writes date text) (rest : Text) :
    ∃ c others, c.isDigit = true ∧
      ∀ before, ∃ after, item.read? before (text ++ rest) = some (after, c :: others) := by
  have hlength := length_year hdate h
  have hdigits : ∀ c ∈ text, c.isDigit = true := by
    cases h
    exact fun c hc => Text.isDigit_zeroPadded hc
  match text, hlength with
  | [a, b, c, d], _ =>
      simp only [List.forall_mem_cons] at hdigits
      refine ⟨c, d :: rest, hdigits.2.2.1, ?_⟩
      intro before
      have hblank : Text.isBlank a = false := IsDateChar.not_blank (Or.inl hdigits.1)
      have hread : Text.takeDigits? (some 2) (Text.trimStart ([a, b] ++ c :: d :: rest)) =
          some (Text.decimalValue [a, b], c :: d :: rest) := by
        rw [Text.trimStart_eq_self (by simpa using hblank)]
        apply Text.takeDigits?_some_append
        · simp [hdigits.1, hdigits.2.1]
        · simp
        · exact Nat.le_refl 2
        · intro hshort
          exact absurd hshort (Nat.lt_irrefl 2)
      rcases hitem with rfl | rfl
      · exact ⟨_, congrArg (Option.map _) hread⟩
      · exact ⟨_, congrArg (Option.map _) hread⟩

/-- The short name takes the first letters of a name, and all of it in May. -/
theorem read?_name_piece (hdate : date.Short) (h : Item.monthName.Writes date text)
    (rest : Text) :
    ∃ letters : Text, (∀ c ∈ letters, c.isAlpha = true) ∧ ∀ before, ∃ after,
      Item.shortMonthName.read? before (text ++ rest) = some (after, letters ++ rest) := by
  refine ⟨text.drop 3, ?_, ?_⟩
  · intro c hc
    exact (monthSpellings_facts text (h.name rfl)).2.1 c (List.mem_of_mem_drop hc)
  · intro before
    exact ⟨_, congrArg (Option.map _) (readMonthName?_full hdate.month.1 h rest)⟩

end Parts

end Calendar
end SourceTidy
