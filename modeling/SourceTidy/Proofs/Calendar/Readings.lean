import Mathlib.Data.List.Chain
import SourceTidy.Proofs.Calendar.Parts

/-!
# The layout that reads a date

A date that is written in one layout is tried in all of them, and the first that fits decides.
A layout refuses a text when one of its parts gets stuck in it.  For each layout but one, the first
that does not refuse its texts reads from them the very date that was written.
-/

namespace SourceTidy
namespace Calendar

/-!
# Words and separators in turn
-/

/-- A layout in which a separator follows each word and a word follows each space. -/
structure Layout.Regular (layout : Layout) : Prop where
  known : ∀ item ∈ layout, item.Known
  turns : layout.IsChain (fun item next => item.mayPrecede next = true)

theorem regular_layouts : ∀ layout ∈ layouts, layout.Regular := by
  have hknown : ∀ layout ∈ layouts, ∀ item ∈ layout,
      item.isWord = true ∨ item.isSeparator = true := by decide
  have hturns : ∀ layout ∈ layouts,
      layout.IsChain (fun item next => item.mayPrecede next = true) := by decide
  intro layout h
  exact ⟨hknown layout h, hturns layout h⟩

theorem Layout.Regular.tail {item : Item} {items : Layout} (h : Regular (item :: items)) :
    Regular items where
  known := fun other hother => h.known other (List.mem_cons_of_mem item hother)
  turns := h.turns.tail

/-!
# Layouts that read
-/

section Layouts

variable {date : Date} {item part : Item} {reader writer layout : Layout} {text rest : Text}

theorem Layout.Regular.followed (h : Regular (part :: writer)) (hrest : writer.Writes date rest) :
    part.Followed rest := by
  intro c hc
  cases writer with
  | nil =>
      cases hrest
      cases hc
  | cons next writer =>
      rcases hrest.exists_part with ⟨text, others, htext, _, rfl⟩
      rcases htext.opens with ⟨d, tail, rfl, hopens⟩
      cases hc
      exact ⟨next, h.turns.rel_head? rfl, hopens⟩

def Layout.reading (date : Date) : Layout → Layout → Date → Date
  | item :: reader, part :: writer, before =>
      Layout.reading date reader writer (item.put (part.number date) before)
  | _, _, before => before

theorem Layout.readItems?_of_takes (hdate : date.Short) (hwriter : writer.Regular)
    (htakes : List.Forall₂ (fun item part : Item => item.takes part = true) reader writer)
    (h : writer.Writes date text) (before : Date) :
    reader.readItems? before text = some (reading date reader writer before, []) := by
  induction htakes generalizing text before with
  | nil =>
      cases h
      rfl
  | cons hitem _ ih =>
      rcases h.exists_part with ⟨first, rest, hfirst, hrest, rfl⟩
      have hread := Item.read?_of_takes hdate hitem hfirst (hwriter.followed hrest) before
      rw [readItems?, hread]
      exact ih hwriter.tail hrest _

theorem Layout.read?_of_takes (hdate : date.Short) (hwriter : writer.Regular)
    (htakes : List.Forall₂ (fun item part : Item => item.takes part = true) reader writer)
    (h : writer.Writes date text) {result : Date}
    (hresult : reading date reader writer default = result) :
    reader.read? text = if result.Valid then some result else none := by
  rw [read?, readItems?_of_takes hdate hwriter htakes h, hresult]

/-!
# Layouts that refuse
-/

/-- A layout that does not read all of a text. -/
def Layout.Fails (layout : Layout) (text : Text) : Prop :=
  ∀ before date, layout.readItems? before text ≠ some (date, [])

theorem Layout.Fails.read?_eq_none (h : layout.Fails text) : layout.read? text = none := by
  unfold Layout.read?
  split
  · next hitems => exact absurd hitems (h _ _)
  · rfl

theorem Layout.fails_of_none (h : ∀ before, item.read? before text = none) :
    Fails (item :: reader) text := by
  intro before date hread
  rw [readItems?, h before] at hread
  cases hread

theorem Layout.Fails.cons (hrest : reader.Fails rest)
    (h : ∀ before, ∃ after, item.read? before text = some (after, rest)) :
    Fails (item :: reader) text := by
  intro before date
  rcases h before with ⟨after, hread⟩
  rw [readItems?, hread]
  exact hrest after date

def Layout.stuckAt (part : Item) : Layout → Bool
  | [] => true
  | .space :: reader => part != .space && Layout.stuckAt part reader
  | item :: _ => item.clashes part

theorem Layout.fails_of_stuckAt (hpart : part.Known) (hreader : ∀ item ∈ reader, item.Known)
    (h : stuckAt part reader = true) {c : Char} (hc : part.Opens c) (rest : Text) :
    reader.Fails (c :: rest) := by
  fun_induction stuckAt part reader with
  | case1 =>
      intro before date hread
      cases hread
  | case2 reader ih =>
      rw [Bool.and_eq_true, bne_iff_ne] at h
      rw [List.forall_mem_cons] at hreader
      have hblank := hc.not_isBlank h.1 hpart
      have hstart : Text.trimStart (c :: rest) = c :: rest :=
        Text.trimStart_eq_self (by simpa using hblank)
      apply (ih hreader.2 h.2).cons
      intro before
      exact ⟨before, congrArg (fun rest => some (before, rest)) hstart⟩
  | case3 item reader hspace =>
      rw [List.forall_mem_cons] at hreader
      have hleaves := Item.leaves_of_clashes hreader.1 hpart h hc
      apply fails_of_none
      intro before
      exact hleaves.read?_eq_none hspace before rest

/-- Whether a layout fits nothing that is written in another one.  A year leaves digits to the
number of a month or a day, and a full name leaves letters to a short one. -/
def Layout.refuses : Layout → Layout → Bool
  | [], _ | _, [] => false
  | .month :: reader, .year :: _ | .day :: reader, .year :: _ => Layout.stuckAt .year reader
  | .shortMonthName :: reader, .monthName :: writer =>
      Layout.stuckAt .monthName reader && Layout.refuses reader writer
  | item :: reader, part :: writer =>
      Layout.stuckAt part (item :: reader) || item.takes part && Layout.refuses reader writer

theorem Layout.fails_of_year_piece (hdate : date.Short) (hitem : item = .month ∨ item = .day)
    (hreader : ∀ item ∈ reader, item.Known)
    (h : stuckAt .year reader = true) (htext : Writes (.year :: writer) date text) :
    Fails (item :: reader) text := by
  rcases htext.exists_part with ⟨year, rest, hyear, _, rfl⟩
  rcases read?_year_piece hdate hitem hyear rest with ⟨c, others, hc, hread⟩
  exact (fails_of_stuckAt (Or.inl rfl) hreader h hc others).cons hread

/-- The texts of one layout are not read by another one that refuses it. -/
theorem Layout.fails_of_refuses (hdate : date.Short) (hwriter : writer.Regular)
    (hreader : ∀ item ∈ reader, item.Known)
    (h : reader.refuses writer = true) (htext : writer.Writes date text) :
    reader.Fails text := by
  fun_induction refuses reader writer generalizing text with
  | case1 | case2 => cases h
  | case3 reader writer =>
      rw [List.forall_mem_cons] at hreader
      exact fails_of_year_piece hdate (Or.inl rfl) hreader.2 h htext
  | case4 reader writer =>
      rw [List.forall_mem_cons] at hreader
      exact fails_of_year_piece hdate (Or.inr rfl) hreader.2 h htext
  | case5 reader writer ih =>
      rw [Bool.and_eq_true] at h
      rw [List.forall_mem_cons] at hreader
      rcases htext.exists_part with ⟨name, rest, hname, hrest, rfl⟩
      rcases read?_name_piece hdate hname rest with ⟨letters, hletters, hread⟩
      -- May leaves no letters, and then the layout goes on with the next part.
      refine Fails.cons ?_ hread
      cases letters with
      | nil => exact ih hwriter.tail hreader.2 h.2 hrest
      | cons c letters =>
          have hc : Item.monthName.Opens c := hletters c List.mem_cons_self
          exact fails_of_stuckAt (Or.inl rfl) hreader.2 h.1 hc (letters ++ rest)
  | case6 item reader part writer _ _ _ ih =>
      rcases htext.exists_part with ⟨first, rest, hfirst, hrest, rfl⟩
      rcases Bool.or_eq_true_iff.mp h with hstuck | htakes
      · rcases hfirst.opens with ⟨c, others, rfl, hc⟩
        exact fails_of_stuckAt (hwriter.known part List.mem_cons_self) hreader hstuck hc _
      · rw [Bool.and_eq_true] at htakes
        rw [List.forall_mem_cons] at hreader
        apply (ih hwriter.tail hreader.2 htakes.2 hrest).cons
        intro before
        exact ⟨_, Item.read?_of_takes hdate htakes.1 hfirst (hwriter.followed hrest) before⟩

theorem Layout.read?_of_refuses (hdate : date.Short) (hreader : reader ∈ layouts)
    (hwriter : writer ∈ layouts) (h : reader.refuses writer = true)
    (htext : writer.Writes date text) : reader.read? text = none := by
  apply Fails.read?_eq_none
  exact fails_of_refuses hdate (regular_layouts writer hwriter)
    (regular_layouts reader hreader).known h htext

end Layouts

/-!
# The first layout that fits
-/

section First

variable {date : Date} {layout : Layout} {text : Text}

def dayFirst : Layout := [.day, .mark '/', .month, .mark '/', .year]

def monthFirst : Layout := [.month, .mark '/', .day, .mark '/', .year]

theorem short_of_valid (hvalid : date.Valid) (hyear : 0 ≤ date.year ∧ date.year ≤ 9999) :
    date.Short := by
  rcases hvalid with ⟨_, _, hmonth, hmonth', _, hday⟩
  have hdays := daysInMonth_le date.year date.month
  exact ⟨hyear, ⟨hmonth, by omega⟩, by omega⟩

theorem Date.Short.year_eq (hdate : date.Short) :
    { date with year := date.year.toNat } = date := by
  rw [Int.toNat_of_nonneg hdate.year.1]

theorem findSome?_of_find? (hdate : date.Short) (hlayout : layout ∈ layouts)
    (h : layout.Writes date text) {reader : Layout}
    (hfirst : layouts.find? (fun reader => !reader.refuses layout) = some reader) {result : Date}
    (hread : reader.read? text = some result) :
    layouts.findSome? (fun reader => reader.read? text) = some result := by
  rcases List.find?_eq_some_iff_append.mp hfirst with ⟨_, before, after, hlayouts, hbefore⟩
  apply List.findSome?_eq_some_iff.mpr
  refine ⟨before, reader, after, hlayouts, hread, ?_⟩
  intro other hother
  have hmem : other ∈ layouts := by
    rw [hlayouts]
    exact List.mem_append_left _ hother
  have hrefuses : other.refuses layout = true := by simpa using hbefore other hother
  exact Layout.read?_of_refuses hdate hmem hlayout hrefuses h

-- The layout found is the one written in, or the one that has full names where it has short ones.
theorem exists_reader (date : Date) (hlayout : layout ∈ layouts) (hne : layout ≠ dayFirst) :
    ∃ reader, layouts.find? (fun reader => !reader.refuses layout) = some reader ∧
      List.Forall₂ (fun item part : Item => item.takes part = true) reader layout ∧
      Layout.reading date reader layout default = { date with year := date.year.toNat } := by
  simp only [layouts, List.mem_cons, List.not_mem_nil, or_false] at hlayout
  rcases hlayout with rfl | rfl | rfl | rfl | rfl | rfl | rfl | rfl | rfl | rfl | rfl | rfl |
    rfl | rfl | rfl | rfl | rfl
  case inr.inr.inr.inr.inr.inl => exact absurd rfl hne
  all_goals exact ⟨_, rfl, by decide, rfl⟩

theorem findSome?_read? (hvalid : date.Valid) (hdate : date.Short) (hlayout : layout ∈ layouts)
    (hne : layout ≠ dayFirst) (h : layout.Writes date text) :
    layouts.findSome? (fun reader => reader.read? text) = some date := by
  rcases exists_reader date hlayout hne with ⟨reader, hfirst, htakes, hreading⟩
  rw [hdate.year_eq] at hreading
  apply findSome?_of_find? hdate hlayout h hfirst
  rw [Layout.read?_of_takes hdate (regular_layouts layout hlayout) htakes h hreading]
  exact if_pos hvalid

/-!
# The day before the month
-/

def Date.exchanged (date : Date) : Date :=
  { date with month := date.day, day := date.month }

theorem Date.exchanged_eq_self (h : date.day = date.month) : date.exchanged = date := by
  rcases date with ⟨year, month, day⟩
  cases h
  rfl

theorem le_daysInMonth (year : Int) (month : Nat) : 28 ≤ daysInMonth year month := by
  unfold daysInMonth
  split
  · split <;> decide
  · split <;> decide

theorem valid_exchanged_iff (hvalid : date.Valid) : date.exchanged.Valid ↔ date.day ≤ 12 := by
  rcases hvalid with ⟨hfirst, hlast, hmonth, hmonth', hday, hday'⟩
  constructor
  · rintro ⟨_, _, _, hle, _⟩
    exact hle
  · intro hle
    have hdays := le_daysInMonth date.year date.day
    have hmonthDay : date.month ≤ daysInMonth date.year date.day := by omega
    exact ⟨hfirst, hlast, hday, hle, hmonth, hmonthDay⟩

theorem read?_monthFirst (hdate : date.Short) (h : dayFirst.Writes date text) :
    monthFirst.read? text = if date.exchanged.Valid then some date.exchanged else none := by
  have hreading : Layout.reading date monthFirst dayFirst default =
      ({ date with year := date.year.toNat } : Date).exchanged := rfl
  rw [hdate.year_eq] at hreading
  exact Layout.read?_of_takes hdate (regular_layouts dayFirst (by decide)) (by decide) h hreading

theorem read?_dayFirst (hvalid : date.Valid) (hdate : date.Short)
    (h : dayFirst.Writes date text) : dayFirst.read? text = some date := by
  have hreading : Layout.reading date dayFirst dayFirst default =
      { date with year := date.year.toNat } := rfl
  rw [hdate.year_eq] at hreading
  rw [Layout.read?_of_takes hdate (regular_layouts dayFirst (by decide)) (by decide) h hreading]
  exact if_pos hvalid

/-- A day that may be a month is taken for the month. -/
theorem findSome?_dayFirst (hvalid : date.Valid) (hdate : date.Short)
    (h : dayFirst.Writes date text) :
    layouts.findSome? (fun reader => reader.read? text) =
      some (if date.day ≤ 12 then date.exchanged else date) := by
  have hmem : dayFirst ∈ layouts := by decide
  have hmonthFirst := read?_monthFirst hdate h
  split
  · next hday =>
      rw [if_pos ((valid_exchanged_iff hvalid).mpr hday)] at hmonthFirst
      exact findSome?_of_find? hdate hmem h (by decide) hmonthFirst
  · next hday =>
      rw [if_neg fun hexchanged => hday ((valid_exchanged_iff hvalid).mp hexchanged)] at hmonthFirst
      -- The month would be too large, so the search goes on past that layout.
      apply List.findSome?_eq_some_iff.mpr
      refine ⟨layouts.take 5, dayFirst, layouts.drop 6, rfl, read?_dayFirst hvalid hdate h, ?_⟩
      intro other hother
      have hcases : ∀ other ∈ layouts.take 5,
          other = monthFirst ∨ other.refuses dayFirst = true := by decide
      rcases hcases other hother with rfl | hrefuses
      · exact hmonthFirst
      · exact Layout.read?_of_refuses hdate (List.mem_of_mem_take hother) hmem hrefuses h

/-!
# Dates that are read back
-/

theorem readDate?_eq_findSome? (hdate : date.Short) (hlayout : layout ∈ layouts)
    (h : layout.Varies date text) :
    layout.Writes date (clean text) ∧
      readDate? text = layouts.findSome? (fun reader => reader.read? (clean text)) := by
  have hproper := proper_layouts layout hlayout
  have hplain := h.clean hdate hproper
  have hne : (clean text).isEmpty = false := by simpa using (hplain.trimmed hproper).2
  refine ⟨hplain, ?_⟩
  rw [readDate?]
  simp only [hne, Bool.false_eq_true, if_false]

theorem readDate?_varies (hvalid : date.Valid) (hdate : date.Short) (hlayout : layout ∈ layouts)
    (hne : layout ≠ dayFirst) (h : layout.Varies date text) : readDate? text = some date := by
  rcases readDate?_eq_findSome? hdate hlayout h with ⟨hplain, hread⟩
  rw [hread]
  exact findSome?_read? hvalid hdate hlayout hne hplain

/-- A date with a year of four digits is read back from every layout in which it is written.  Only
where the day stands before the month between slashes, a day up to 12 is taken for the month. -/
theorem readDate?_of_writes (hvalid : date.Valid) (hyear : 0 ≤ date.year ∧ date.year ≤ 9999)
    (hlayout : layout ∈ layouts) (h : layout.Writes date text) :
    (layout ≠ dayFirst → readDate? text = some date) ∧
      (layout = dayFirst → readDate? text =
        some (if 12 < date.day ∨ date.day = date.month then date else date.exchanged)) := by
  have hdate := short_of_valid hvalid hyear
  have hvaries := h.varies (proper_layouts layout hlayout)
  constructor
  · intro hne
    exact readDate?_varies hvalid hdate hlayout hne hvaries
  · rintro rfl
    rcases readDate?_eq_findSome? hdate hlayout hvaries with ⟨hplain, hread⟩
    rw [hread, findSome?_dayFirst hvalid hdate hplain]
    by_cases hsame : date.day = date.month
    · rw [Date.exchanged_eq_self hsame, ite_self, ite_self]
    · by_cases hday : date.day ≤ 12
      · have hother : ¬ (12 < date.day ∨ date.day = date.month) := by omega
        rw [if_pos hday, if_neg hother]
      · rw [if_neg hday, if_pos (Or.inl (Nat.lt_of_not_le hday))]

theorem readDate?_of_writes_exchanged :
    readDate? "4/03/2020".toList = some ⟨2020, 4, 3⟩ := by
  have hday : Item.day.Writes ⟨2020, 3, 4⟩ "4".toList := Or.inl (by decide)
  have hmonth : Item.month.Writes ⟨2020, 3, 4⟩ "03".toList := Or.inr (by decide)
  have hyear : Item.year.Writes ⟨2020, 3, 4⟩ "2020".toList := by
    rw [Item.Writes]
    decide
  have hslash : (Item.mark '/').Writes ⟨2020, 3, 4⟩ ['/'] := rfl
  have hwrites : dayFirst.Writes ⟨2020, 3, 4⟩ "4/03/2020".toList :=
    .cons hday (.cons hslash (.cons hmonth (.cons hslash (.cons hyear .nil))))
  exact (readDate?_of_writes (by decide) (by decide) (by decide) hwrites).2 rfl

/-- Cosmetics do not change the date that is read in a layout with the name of a month. -/
theorem readDate?_cosmetics (hvalid : date.Valid) (hyear : 0 ≤ date.year ∧ date.year ≤ 9999)
    (hlayout : layout ∈ layouts) (hname : ∃ item ∈ layout, item.isName = true)
    {plain variant : Text} (hplain : layout.Writes date plain)
    (hvariant : layout.Varies date variant) :
    readDate? variant = readDate? plain ∧ readDate? plain = some date := by
  have hdate := short_of_valid hvalid hyear
  have hne : layout ≠ dayFirst := by
    rintro rfl
    revert hname
    decide
  have hread : readDate? plain = some date :=
    readDate?_varies hvalid hdate hlayout hne (hplain.varies (proper_layouts layout hlayout))
  refine ⟨?_, hread⟩
  rw [hread]
  exact readDate?_varies hvalid hdate hlayout hne hvariant

theorem readDate?_cosmetics_abbreviation :
    readDate? " Mar.\t 3RD ,2020".toList = readDate? "Mar 3, 2020".toList ∧
      readDate? "Mar 3, 2020".toList = some ⟨2020, 3, 3⟩ := by
  have hmonth : Item.shortMonthName.Writes ⟨2020, 3, 3⟩ "Mar".toList := ⟨"March".toList, rfl, rfl⟩
  have hday : Item.day.Writes ⟨2020, 3, 3⟩ "3".toList := Or.inl (by decide)
  have hyear : Item.year.Writes ⟨2020, 3, 3⟩ "2020".toList := by
    rw [Item.Writes]
    decide
  have hspace : Item.space.Writes ⟨2020, 3, 3⟩ [' '] := rfl
  have hcomma : (Item.mark ',').Writes ⟨2020, 3, 3⟩ [','] := rfl
  have hplain : Layout.Writes [.shortMonthName, .space, .day, .mark ',', .space, .year]
      ⟨2020, 3, 3⟩ "Mar 3, 2020".toList :=
    .cons hmonth (.cons hspace (.cons hday (.cons hcomma (.cons hspace (.cons hyear .nil)))))
  have htab : ∀ c ∈ "\t ".toList, Text.isBlank c = true := List.all_eq_true.mp (by decide)
  have hordinal : "RD".toList.map Char.toLower ∈ ordinalSuffixes := by decide
  have hlast : Layout.Loose (Item.Dressed ⟨2020, 3, 3⟩) [.year] "2020".toList :=
    .part (by decide) (Item.Dressed.plain hyear) .nil
  have hvariant : Layout.Varies [.shortMonthName, .space, .day, .mark ',', .space, .year]
      ⟨2020, 3, 3⟩ " Mar.\t 3RD ,2020".toList :=
    Layout.Varies.mk Text.isBlank_space
      (.part (by decide) (Item.Dressed.dot rfl hmonth rfl)
        (.space (by decide) htab
          (.part (by decide) (Item.Dressed.suffix rfl hday hordinal)
            (.comma Text.isBlank_space (List.forall_mem_nil _) hlast))))
      (List.forall_mem_nil _)
  exact readDate?_cosmetics (by decide) (by decide) (by decide) (by decide) hplain hvariant

end First

end Calendar
end SourceTidy
