import SourceTidy.Calendar.Value
import SourceTidy.Proofs.Text.Separators
import SourceTidy.Proofs.Text.Trimming

/-!
# The written form of a date reads back

The written form of a date has no cosmetics, so cleaning keeps it, and the first
layout reads from it the very date that was written.  This includes years that
need a sign.
-/

namespace SourceTidy

/-!
# Digits
-/

namespace Text

theorem decimalValue_eq (digits : Text) : decimalValue digits = Nat.ofDigitChars 10 digits 0 :=
  rfl

theorem isDigit_zeroPadded {width n : Nat} {c : Char} (h : c ∈ zeroPadded width n) :
    c.isDigit = true := by
  rcases List.mem_append.mp h with hzero | hdigit
  · rw [List.eq_of_mem_replicate hzero]
    rfl
  · exact Nat.isDigit_of_mem_toDigits (by decide) (by decide) hdigit

theorem decimalValue_zeroPadded (width n : Nat) : decimalValue (zeroPadded width n) = n := by
  rw [decimalValue_eq, zeroPadded, Nat.ofDigitChars_append, Nat.ofDigitChars_replicate_zero,
    Nat.mul_zero]
  exact Nat.ofDigitChars_ten_toDigits

theorem zeroPadded_ne_nil (width n : Nat) : zeroPadded width n ≠ [] := by
  intro h
  exact Nat.toDigits_ne_nil (List.append_eq_nil_iff.mp h).2

theorem length_zeroPadded {width n : Nat} (h : (decimal n).length ≤ width) :
    (zeroPadded width n).length = width := by
  rw [zeroPadded, List.length_append, List.length_replicate]
  omega

theorem takeWhile_isDigit_eq_nil {rest : Text}
    (h : ∀ c, rest.head? = some c → c.isDigit = false) : rest.takeWhile Char.isDigit = [] := by
  cases rest with
  | nil => rfl
  | cons c rest => simp [h c rfl]

theorem takeDigits?_none_zeroPadded (width n : Nat) {rest : Text}
    (h : ∀ c, rest.head? = some c → c.isDigit = false) :
    takeDigits? none (zeroPadded width n ++ rest) = some (n, rest) := by
  have hrun : (zeroPadded width n ++ rest).takeWhile Char.isDigit = zeroPadded width n := by
    rw [List.takeWhile_append_of_pos fun _ hc => isDigit_zeroPadded hc, takeWhile_isDigit_eq_nil h,
      List.append_nil]
  rw [takeDigits?, hrun]
  simp [zeroPadded_ne_nil, decimalValue_zeroPadded]

/-- With a limit the digits are read up to the first other character or up to the limit. -/
theorem takeDigits?_some_append {most : Nat} {digits rest : Text}
    (hdigits : ∀ c ∈ digits, c.isDigit = true) (hne : digits ≠ [])
    (hlength : digits.length ≤ most)
    (hend : digits.length < most → ∀ c, rest.head? = some c → c.isDigit = false) :
    takeDigits? (some most) (digits ++ rest) = some (decimalValue digits, rest) := by
  have htake : ((digits ++ rest).takeWhile Char.isDigit).take most = digits := by
    rw [List.takeWhile_append_of_pos hdigits]
    rcases Nat.lt_or_eq_of_le hlength with hlt | heq
    · rw [takeWhile_isDigit_eq_nil (hend hlt), List.append_nil, List.take_of_length_le hlength]
    · exact List.take_left' heq
  rw [takeDigits?]
  simp only [htake]
  simp [hne]

theorem takeDigits?_some_zeroPadded {width n most : Nat}
    (hlength : (zeroPadded width n).length ≤ most) {rest : Text}
    (hend : (zeroPadded width n).length < most → ∀ c, rest.head? = some c → c.isDigit = false) :
    takeDigits? (some most) (zeroPadded width n ++ rest) = some (n, rest) := by
  rw [takeDigits?_some_append (fun _ hc => isDigit_zeroPadded hc) (zeroPadded_ne_nil width n)
    hlength hend, decimalValue_zeroPadded]

end Text

namespace Calendar

/-!
# Characters of a written date
-/

def IsDateChar (c : Char) : Prop :=
  c.isDigit = true ∨ c = '-' ∨ c = '+'

theorem IsDateChar.toNat_le {c : Char} (h : IsDateChar c) :
    c.toNat = 43 ∨ c.toNat = 45 ∨ 48 ≤ c.toNat ∧ c.toNat ≤ 57 := by
  rcases h with hdigit | rfl | rfl
  · exact Or.inr (Or.inr (Char.isDigit_iff_toNat.mp hdigit))
  · exact Or.inr (Or.inl rfl)
  · exact Or.inl rfl

theorem IsDateChar.not_blank {c : Char} (h : IsDateChar c) : Text.isBlank c = false := by
  have hc := h.toNat_le
  simp [Text.isBlank, Text.inRanges, Text.blankRanges]
  omega

theorem IsDateChar.ne {c d : Char} (h : IsDateChar c)
    (hd : ¬ (d.toNat = 43 ∨ d.toNat = 45 ∨ 48 ≤ d.toNat ∧ d.toNat ≤ 57)) : c ≠ d := by
  intro heq
  rw [heq] at h
  exact hd h.toNat_le

theorem IsDateChar.foldCase_eq {c : Char} (h : IsDateChar c) : foldCase c = c := by
  have hlower : c.toLower = c := by
    have hc := h.toNat_le
    delta Char.toLower
    rw [dif_neg]
    intro h
    rcases h with ⟨hlow, _⟩
    have hle : 65 ≤ c.toNat := UInt32.le_iff_toNat_le.mp hlow
    omega
  rw [foldCase, if_neg (h.ne (by decide)), if_neg (h.ne (by decide)), hlower]

theorem IsDateChar.not_suffix {c : Char} (h : IsDateChar c) (d : Char) :
    isOrdinalSuffix c d = false := by
  rw [isOrdinalSuffix, h.foldCase_eq]
  have hs := h.ne (d := 's') (by decide)
  have hn := h.ne (d := 'n') (by decide)
  have hr := h.ne (d := 'r') (by decide)
  have ht := h.ne (d := 't') (by decide)
  simp [hs, hn, hr, ht]

theorem isDateChar_yearText {year : Int} {c : Char} (h : c ∈ yearText year) : IsDateChar c := by
  rw [yearText] at h
  split at h
  · rcases List.mem_cons.mp h with hsign | hdigit
    · exact Or.inr (Or.inl hsign)
    · exact Or.inl (Text.isDigit_zeroPadded hdigit)
  · split at h
    · rcases List.mem_cons.mp h with hsign | hdigit
      · exact Or.inr (Or.inr hsign)
      · exact Or.inl (Text.isDigit_zeroPadded hdigit)
    · exact Or.inl (Text.isDigit_zeroPadded h)

theorem isDateChar_text {date : Date} {c : Char} (h : c ∈ date.text) : IsDateChar c := by
  rw [Date.text] at h
  simp only [List.append_assoc, List.cons_append, List.mem_append, List.mem_cons] at h
  rcases h with hyear | hdash | hmonth | hdash | hday
  · exact isDateChar_yearText hyear
  · exact Or.inr (Or.inl hdash)
  · exact Or.inl (Text.isDigit_zeroPadded hmonth)
  · exact Or.inr (Or.inl hdash)
  · exact Or.inl (Text.isDigit_zeroPadded hday)

theorem text_ne_nil (date : Date) : date.text ≠ [] := by
  simp [Date.text]

theorem getLast?_text (date : Date) : ∃ c, date.text.getLast? = some c ∧ c.isDigit = true := by
  have hne := Text.zeroPadded_ne_nil 2 date.day
  refine ⟨(Text.zeroPadded 2 date.day).getLast hne, ?_, ?_⟩
  · rw [Date.text, List.getLast?_append_of_ne_nil _ (List.cons_ne_nil _ _), List.getLast?_cons,
      List.getLast?_eq_some_getLast hne]
    rfl
  · exact Text.isDigit_zeroPadded (List.getLast_mem hne)

theorem trimmed_text (date : Date) : Text.Trimmed date.text where
  first := by
    intro c hc
    exact (isDateChar_text (List.mem_of_mem_head? hc)).not_blank
  last := by
    intro c hc
    exact (isDateChar_text (List.mem_of_mem_getLast? hc)).not_blank

/-!
# Cleaning

A text of date characters has no suffixes, dots, commas or blanks to remove.
-/

theorem withoutSuffix_eq_self {word : Text} (h : ∀ c ∈ word, IsDateChar c) :
    withoutSuffix word = word := by
  unfold withoutSuffix
  split
  · next a c d =>
      rw [(h c (by simp)).not_suffix]
      simp
  · next a b c d =>
      rw [(h c (by simp)).not_suffix]
      simp
  · rfl

theorem mem_of_mem_runs {kind : Char → Bool} {text run : Text} {c : Char}
    (hrun : run ∈ Text.runs kind text) (hc : c ∈ run) : c ∈ text := by
  rw [← Text.flatten_runs kind text]
  exact List.mem_flatten.mpr ⟨run, hrun, hc⟩

theorem dropOrdinals_eq_self {text : Text} (h : ∀ c ∈ text, IsDateChar c) :
    dropOrdinals text = text := by
  have hruns : (Text.runs Text.isWordChar text).map withoutSuffix =
      (Text.runs Text.isWordChar text).map id := by
    apply List.map_congr_left
    intro run hrun
    apply withoutSuffix_eq_self
    intro c hc
    exact h c (mem_of_mem_runs hrun hc)
  rw [dropOrdinals, hruns, List.map_id, Text.flatten_runs]

theorem joinWithoutDots_eq_flatten {pieces : List Text}
    (h : ∀ piece ∈ pieces, '.' ∉ piece) : joinWithoutDots pieces = pieces.flatten := by
  induction pieces with
  | nil => rfl
  | cons piece pieces ih =>
      have hrest : joinWithoutDots pieces = pieces.flatten := by
        apply ih
        intro other hother
        exact h other (List.mem_cons_of_mem piece hother)
      cases pieces with
      | nil => simp [joinWithoutDots]
      | cons next others =>
          have hdot : ∀ gap, next ≠ '.' :: gap := by
            intro gap heq
            apply h next (by simp)
            rw [heq]
            exact List.mem_cons_self
          rw [joinWithoutDots, hrest]
          · rfl
          · exact hdot

theorem dropAbbreviationDots_eq_self {text : Text} (h : '.' ∉ text) :
    dropAbbreviationDots text = text := by
  rw [dropAbbreviationDots, joinWithoutDots_eq_flatten, Text.flatten_runs]
  intro run hrun hdot
  exact h (mem_of_mem_runs hrun hdot)

theorem singleSpaced_eq_self {text : Text} (hne : text ≠ [])
    (h : ∀ c ∈ text, Text.isBlank c = false) : Text.singleSpaced text = text := by
  rw [Text.singleSpaced, Text.words, List.splitOnP_eq_singleton h]
  simp [hne]

theorem evenSpacing_eq_self {text : Text} (hne : text ≠ []) (hcomma : ',' ∉ text)
    (h : ∀ c ∈ text, Text.isBlank c = false) : evenSpacing text = text := by
  have htrimmed : Text.Trimmed text :=
    { first := fun c hc => h c (List.mem_of_mem_head? hc)
      last := fun c hc => h c (List.mem_of_mem_getLast? hc) }
  rw [evenSpacing, List.splitOn_eq_singleton hcomma]
  simp [singleSpaced_eq_self hne h, htrimmed.trim_eq]

theorem clean_text (date : Date) : clean date.text = date.text := by
  have hchars : ∀ c ∈ date.text, IsDateChar c := fun _ hc => isDateChar_text hc
  have hdot : '.' ∉ date.text := fun hc => (hchars _ hc).ne (by decide) rfl
  have hcomma : ',' ∉ date.text := fun hc => (hchars _ hc).ne (by decide) rfl
  have hblank : ∀ c ∈ date.text, Text.isBlank c = false := fun c hc => (hchars c hc).not_blank
  rw [clean, dropOrdinals_eq_self hchars, dropAbbreviationDots_eq_self hdot,
    evenSpacing_eq_self (text_ne_nil date) hcomma hblank]

/-!
# Reading
-/

theorem exists_digit_zeroPadded (width n : Nat) :
    ∃ d digits, Text.zeroPadded width n = d :: digits ∧ d.isDigit = true := by
  cases hdigits : Text.zeroPadded width n with
  | nil => exact absurd hdigits (Text.zeroPadded_ne_nil width n)
  | cons d digits =>
      have hmem : d ∈ Text.zeroPadded width n := by
        rw [hdigits]
        exact List.mem_cons_self
      exact ⟨d, digits, rfl, Text.isDigit_zeroPadded hmem⟩

theorem trimStart_zeroPadded (width n : Nat) (rest : Text) :
    Text.trimStart (Text.zeroPadded width n ++ rest) = Text.zeroPadded width n ++ rest := by
  apply Text.trimStart_eq_self
  intro c hc
  rcases exists_digit_zeroPadded width n with ⟨d, digits, hdigits, hdigit⟩
  rw [hdigits] at hc
  cases hc
  exact IsDateChar.not_blank (Or.inl hdigit)

theorem readYear?_digit {d : Char} (hd : d.isDigit = true) (digits : Text) :
    readYear? (d :: digits) =
      (Text.takeDigits? (some 4) (d :: digits)).map fun (n, rest) => ((n : Int), rest) := by
  have hblank : Text.isBlank d = false := IsDateChar.not_blank (Or.inl hd)
  rw [readYear?, Text.trimStart_eq_self (by simpa using hblank)]
  split
  · next heq =>
      cases heq
      cases hd
  · next heq =>
      cases heq
      cases hd
  · rfl

theorem readYear?_zeroPadded {width n : Nat} (hlength : (Text.zeroPadded width n).length ≤ 4)
    {rest : Text} (h : ∀ c, rest.head? = some c → c.isDigit = false) :
    readYear? (Text.zeroPadded width n ++ rest) = some ((n : Int), rest) := by
  have hread := Text.takeDigits?_some_zeroPadded hlength fun _ => h
  rcases exists_digit_zeroPadded width n with ⟨d, digits, hdigits, hdigit⟩
  rw [hdigits, List.cons_append] at hread ⊢
  rw [readYear?_digit hdigit, hread]
  rfl

theorem readYear?_yearText (year : Int) {rest : Text}
    (h : ∀ c, rest.head? = some c → c.isDigit = false) :
    readYear? (yearText year ++ rest) = some (year, rest) := by
  rw [yearText]
  split
  · next hneg =>
      have hblank : Text.isBlank '-' = false := by decide
      rw [readYear?, List.cons_append, Text.trimStart_eq_self (by simpa using hblank)]
      simp only [Text.takeDigits?_none_zeroPadded 4 year.natAbs h, Option.map_some]
      congr 2
      omega
  · next hnonneg =>
      split
      · next hlarge =>
          have hblank : Text.isBlank '+' = false := by decide
          rw [readYear?, List.cons_append, Text.trimStart_eq_self (by simpa using hblank)]
          simp only [Text.takeDigits?_none_zeroPadded 4 year.natAbs h, Option.map_some]
          congr 2
          omega
      · next hsmall =>
          have hlength : (Text.decimal year.natAbs).length ≤ 4 :=
            (Nat.length_toDigits_le_iff (by decide) (by decide)).mpr (by omega)
          have habs : (year.natAbs : Int) = year := by omega
          rw [readYear?_zeroPadded (Nat.le_of_eq (Text.length_zeroPadded hlength)) h, habs]

theorem read?_mark (c : Char) (date : Date) (rest : Text) :
    (Item.mark c).read? date (c :: rest) = some (date, rest) := by
  simp [Item.read?]

theorem takeDigits?_two {n : Nat} (h : (Text.decimal n).length ≤ 2) (rest : Text) :
    Text.takeDigits? (some 2) (Text.trimStart (Text.zeroPadded 2 n ++ rest)) = some (n, rest) := by
  have hlength := Text.length_zeroPadded h
  rw [trimStart_zeroPadded]
  apply Text.takeDigits?_some_zeroPadded (Nat.le_of_eq hlength)
  intro hshort
  omega

theorem read?_month_zeroPadded {n : Nat} (h : (Text.decimal n).length ≤ 2) (date : Date)
    (rest : Text) :
    Item.month.read? date (Text.zeroPadded 2 n ++ rest) =
      some ({ date with month := n }, rest) := by
  rw [Item.read?, takeDigits?_two h]
  rfl

theorem read?_day_zeroPadded {n : Nat} (h : (Text.decimal n).length ≤ 2) (date : Date)
    (rest : Text) :
    Item.day.read? date (Text.zeroPadded 2 n ++ rest) =
      some ({ date with day := n }, rest) := by
  rw [Item.read?, takeDigits?_two h]
  rfl

theorem daysInMonth_le (year : Int) (month : Nat) : daysInMonth year month ≤ 31 := by
  unfold daysInMonth
  split
  · split <;> decide
  · split <;> decide

def writtenLayout : Layout :=
  [.year, .mark '-', .month, .mark '-', .day]

theorem read?_writtenLayout {date : Date} (h : date.Valid) :
    writtenLayout.read? date.text = some date := by
  rcases h with ⟨hfirst, hlast, hmonth, hmonth', hday, hday'⟩
  have hdays := daysInMonth_le date.year date.month
  have hyear : readYear? (yearText date.year ++ '-' :: (Text.zeroPadded 2 date.month ++
      '-' :: Text.zeroPadded 2 date.day)) = some (date.year, '-' ::
        (Text.zeroPadded 2 date.month ++ '-' :: Text.zeroPadded 2 date.day)) := by
    apply readYear?_yearText
    intro c hc
    cases hc
    decide
  have hmonthDigits : (Text.decimal date.month).length ≤ 2 :=
    (Nat.length_toDigits_le_iff (by decide) (by decide)).mpr (by omega)
  have hdayDigits : (Text.decimal date.day).length ≤ 2 :=
    (Nat.length_toDigits_le_iff (by decide) (by decide)).mpr (by omega)
  have hlastDay := fun before : Date => read?_day_zeroPadded hdayDigits before []
  simp only [List.append_nil] at hlastDay
  have hitems : writtenLayout.readItems? default date.text = some (date, []) := by
    rw [Date.text, List.append_assoc, List.cons_append, writtenLayout, Layout.readItems?,
      Item.read?, hyear]
    simp only [Option.map_some, Layout.readItems?, read?_mark, read?_month_zeroPadded hmonthDigits,
      hlastDay]
  rw [Layout.read?, hitems]
  exact if_pos ⟨hfirst, hlast, hmonth, hmonth', hday, hday'⟩

theorem readDate?_text {date : Date} (h : date.Valid) : readDate? date.text = some date := by
  have hlayouts : layouts = writtenLayout :: layouts.tail := rfl
  rw [readDate?, clean_text, if_neg (by simpa using text_ne_nil date), hlayouts,
    List.findSome?_cons, read?_writtenLayout h]

/-!
# Dates that were read

A layout hands out dates of the calendar only, so every date that was read can be
written and read again.
-/

theorem valid_of_read? {layout : Layout} {text : Text} {date : Date}
    (h : layout.read? text = some date) : date.Valid := by
  rw [Layout.read?] at h
  split at h
  · split at h
    · next hvalid =>
        cases h
        exact hvalid
    · cases h
  · cases h

theorem valid_of_readDate? {text : Text} {date : Date} (h : readDate? text = some date) :
    date.Valid := by
  rw [readDate?] at h
  split at h
  · cases h
  · rcases List.exists_of_findSome?_eq_some h with ⟨layout, _, hread⟩
    exact valid_of_read? hread

theorem readDate?_nil : readDate? [] = none :=
  rfl

end Calendar
end SourceTidy
