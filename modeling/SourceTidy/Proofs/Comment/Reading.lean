import SourceTidy.Proofs.Comment.Toggling

/-!
# Reading a line marker by marker

A scan goes by the last opening and the last closing marker of a line.  An exact
reader takes the markers of a line one after the other.  If no two of them share a
character, the last one decides on which side the reader ends.  From the inside the
scan comes to the same.  From the outside it does so for lines with markers of one kind
only, and else just where the last opening marker stands right behind the last
closing one.
-/

namespace SourceTidy
namespace Comment

/-- The side on which a line ends if it is read exactly.  Outside of comments the next
opening marker counts and inside the next closing one, and the characters of a marker
that counts are used up. -/
def State.read : State → Text → State
  | state, [] => state
  | .outside, '/' :: '*' :: rest => State.read .inside rest
  | .inside, '*' :: '/' :: rest => State.read .outside rest
  | state, _ :: rest => State.read state rest

/-- No two markers of a line share a character. -/
structure Separate (line : Text) : Prop where
  opening : ¬ ['/', '*', '/'] <:+: line
  closing : ¬ ['*', '/', '*'] <:+: line

theorem Separate.of_suffix {line rest : Text} (h : Separate line) (hrest : rest <:+ line) :
    Separate rest where
  opening := fun hmarker => h.opening (hmarker.trans hrest.isInfix)
  closing := fun hmarker => h.closing (hmarker.trans hrest.isInfix)

theorem Separate.apart {line : Text} (h : Separate line) {i j : Nat}
    (hopen : Text.StandsAt '/' '*' line i) (hclose : Text.StandsAt '*' '/' line j) :
    i + 2 ≤ j ∨ j + 2 ≤ i := by
  rcases hopen with ⟨before, after, hline, rfl⟩
  rcases hclose with ⟨before', after', hline', rfl⟩
  rw [hline] at hline'
  rcases List.append_eq_append_iff.mp hline' with ⟨rest, rfl, hrest⟩ | ⟨rest, rfl, hrest⟩
  · refine Or.inl ?_
    rcases rest with _ | ⟨c, _ | ⟨d, rest⟩⟩
    · cases hrest
    · cases hrest
      exact absurd ⟨before, after', by simp [hline]⟩ h.opening
    · simp
  · refine Or.inr ?_
    rcases rest with _ | ⟨c, _ | ⟨d, rest⟩⟩
    · cases hrest
    · cases hrest
      exact absurd ⟨before', after, by simp [hline]⟩ h.closing
    · simp

/-!
# The last marker decides
-/

/-- The side that the last marker of a line leads to. -/
def lastSide? (line : Text) : Option State :=
  match Text.lastIndex? opener line, Text.lastIndex? closer line with
  | none, none => none
  | some _, none => some .inside
  | none, some _ => some .outside
  | some opening, some close => if opening < close then some .outside else some .inside

def firstSide? (line : Text) : Option State :=
  if opener.isPrefixOf line then some .inside
  else if closer.isPrefixOf line then some .outside
  else none

theorem not_closer_of_opener {line : Text} (h : opener.isPrefixOf line = true) :
    closer.isPrefixOf line = false := by
  rcases List.isPrefixOf_iff_prefix.mp h with ⟨rest, rfl⟩
  rfl

theorem lastSide?_cons (c : Char) (rest : Text) :
    lastSide? (c :: rest) = (lastSide? rest).or (firstSide? (c :: rest)) := by
  rw [lastSide?, lastSide?, firstSide?, Text.lastIndex?, Text.lastIndex?]
  cases Text.lastIndex? opener rest with
  | none =>
      by_cases hopen : opener.isPrefixOf (c :: rest) = true
      · cases Text.lastIndex? closer rest with
        | none => simp [hopen, not_closer_of_opener hopen]
        | some close => simp [hopen]
      · cases Text.lastIndex? closer rest with
        | none => cases closer.isPrefixOf (c :: rest) <;> simp [hopen]
        | some close => simp [hopen]
  | some opening =>
      cases Text.lastIndex? closer rest with
      | none => cases closer.isPrefixOf (c :: rest) <;> simp
      | some close => by_cases hlt : opening < close <;> simp [hlt]

theorem firstSide?_eq_some {state : State} {line : Text} (h : firstSide? line = some state) :
    (state = .inside ∧ ∃ rest, line = '/' :: '*' :: rest) ∨
      (state = .outside ∧ ∃ rest, line = '*' :: '/' :: rest) := by
  rw [firstSide?] at h
  split at h
  · next hopen =>
      rcases List.isPrefixOf_iff_prefix.mp hopen with ⟨rest, rfl⟩
      cases h
      exact Or.inl ⟨rfl, rest, rfl⟩
  · split at h
    · next hclose =>
        rcases List.isPrefixOf_iff_prefix.mp hclose with ⟨rest, rfl⟩
        cases h
        exact Or.inr ⟨rfl, rest, rfl⟩
    · cases h

theorem Separate.lastSide?_marker {first second : Char} {rest : Text} {side : State}
    (h : Separate (first :: second :: rest))
    (hside : firstSide? (first :: second :: rest) = some side) :
    lastSide? (first :: second :: rest) = (lastSide? rest).or (some side) := by
  have hshared : firstSide? (second :: rest) = none := by
    cases hsecond : firstSide? (second :: rest) with
    | none => rfl
    | some other =>
        rcases firstSide?_eq_some hside with ⟨_, _, hline⟩ | ⟨_, _, hline⟩
        · cases hline
          rcases firstSide?_eq_some hsecond with ⟨_, _, hrest⟩ | ⟨_, tail, hrest⟩
          · cases hrest
          · exact absurd ⟨[], tail, by simp [hrest]⟩ h.opening
        · cases hline
          rcases firstSide?_eq_some hsecond with ⟨_, tail, hrest⟩ | ⟨_, _, hrest⟩
          · exact absurd ⟨[], tail, by simp [hrest]⟩ h.closing
          · cases hrest
  rw [lastSide?_cons, lastSide?_cons, hshared, hside, Option.or_none]

/-- A reader ends on the side that the last marker leads to. -/
theorem Separate.read_eq {line : Text} (h : Separate line) (state : State) :
    state.read line = (lastSide? line).getD state := by
  fun_induction State.read state line with
  | case1 state => rfl
  | case2 rest ih =>
      rw [ih (h.of_suffix ⟨opener, rfl⟩), h.lastSide?_marker rfl]
      cases lastSide? rest <;> rfl
  | case3 rest ih =>
      rw [ih (h.of_suffix ⟨closer, rfl⟩), h.lastSide?_marker rfl]
      cases lastSide? rest <;> rfl
  | case4 state c rest hopen hclose ih =>
      -- A marker of the kind that does not count leads to the side that the reader is on.
      rw [ih (h.of_suffix (List.suffix_cons c rest)), lastSide?_cons]
      cases lastSide? rest with
      | some side => rfl
      | none =>
          cases hfirst : firstSide? (c :: rest) with
          | none => rfl
          | some side =>
              rcases firstSide?_eq_some hfirst with ⟨rfl, tail, hline⟩ | ⟨rfl, tail, hline⟩
              · cases hline
                cases state with
                | outside => exact (hopen tail rfl rfl rfl).elim
                | inside => rfl
              · cases hline
                cases state with
                | outside => rfl
                | inside => exact (hclose tail rfl rfl rfl).elim

/-!
# The last places
-/

theorem Separate.advance_inside {line : Text} (h : Separate line) :
    State.inside.advance line = (lastSide? line).getD .inside := by
  rw [State.advance, toggles, lastSide?]
  cases hclose : Text.lastIndex? closer line with
  | none => cases Text.lastIndex? opener line <;> rfl
  | some close =>
      cases hopen : Text.lastIndex? opener line with
      | none => rfl
      | some opening =>
          have hapart := h.apart (Text.lastIndex?_eq_some hopen).1
            (Text.lastIndex?_eq_some hclose).1
          by_cases hlt : opening < close
          · have hfar : opening + 2 ≤ close := by omega
            simp [hlt, hfar, State.flip]
          · have hnear : ¬ opening + 2 ≤ close := by omega
            simp [hlt, hnear]

theorem Separate.advance_outside_iff {line : Text} (h : Separate line) :
    State.outside.advance line = (lastSide? line).getD .outside ↔
      ∀ opening close, Text.lastIndex? opener line = some opening →
        Text.lastIndex? closer line = some close → opening = close + 2 := by
  rw [State.advance, toggles, lastSide?]
  cases hopen : Text.lastIndex? opener line with
  | none => cases Text.lastIndex? closer line <;> simp
  | some opening =>
      cases hclose : Text.lastIndex? closer line with
      | none => simp [State.flip]
      | some close =>
          have hapart := h.apart (Text.lastIndex?_eq_some hopen).1
            (Text.lastIndex?_eq_some hclose).1
          by_cases hlt : opening < close
          · have hnear : opening ≤ close + 2 := by omega
            have hne : opening ≠ close + 2 := by omega
            simp [hlt, hnear, hne, State.flip]
          · by_cases hnear : opening ≤ close + 2
            · have heq : opening = close + 2 := by omega
              simpa [hlt, hnear, State.flip] using heq
            · have hne : opening ≠ close + 2 := by omega
              simp [hlt, hnear, hne]

/-!
# Offsets
-/

theorem byteLength_take_iff {line : Text} {opening close : Nat}
    (hopen : Text.StandsAt '/' '*' line opening) (hclose : Text.StandsAt '*' '/' line close) :
    Text.byteLength (line.take opening) = Text.byteLength (line.take close) + 2 ↔
      opening = close + 2 := by
  have hslash : '/'.utf8Size = 1 := rfl
  have hstar : '*'.utf8Size = 1 := rfl
  rcases hopen with ⟨before, after, hline, rfl⟩
  rcases hclose with ⟨before', after', hline', rfl⟩
  have hbefore : line.take before.length = before := by rw [hline, List.take_left]
  have hbefore' : line.take before'.length = before' := by rw [hline', List.take_left]
  rw [hbefore, hbefore']
  rw [hline] at hline'
  rcases List.append_eq_append_iff.mp hline' with ⟨rest, rfl, _⟩ | ⟨rest, rfl, hrest⟩
  · refine iff_of_false ?_ ?_
    · rw [Text.byteLength_append]
      omega
    · rw [List.length_append]
      omega
  · rcases rest with _ | ⟨c, _ | ⟨d, _ | ⟨e, rest⟩⟩⟩
    · cases hrest
    · cases hrest
      simp [hstar]
    · cases hrest
      simp [hslash, hstar]
    · cases hrest
      have hpos := e.utf8Size_pos
      refine iff_of_false ?_ (by simp)
      simp only [Text.byteLength_append, Text.byteLength_cons, hslash, hstar]
      omega

/-- The last opening marker, if there are both kinds, stands right behind the last
closing one. -/
theorem lastIndex?_rightBehind_iff (line : Text) :
    (∀ opening close, Text.lastIndex? opener line = some opening →
        Text.lastIndex? closer line = some close → opening = close + 2) ↔
      ¬ (opener <:+: line ∧ closer <:+: line) ∨
        ∃ offset, Text.LastAt closer line offset ∧ Text.LastAt opener line (offset + 2) := by
  constructor
  · intro hplaces
    by_cases hboth : opener <:+: line ∧ closer <:+: line
    · rcases Text.exists_lastIndex?_of_infix hboth.1 with ⟨opening, hopen⟩
      rcases Text.exists_lastIndex?_of_infix hboth.2 with ⟨close, hclose⟩
      have hoffsets := byteLength_take_iff (Text.lastIndex?_eq_some hopen).1
        (Text.lastIndex?_eq_some hclose).1
      refine Or.inr ⟨_, Text.lastAt_iff.mpr ⟨close, hclose, rfl⟩,
        Text.lastAt_iff.mpr ⟨opening, hopen, ?_⟩⟩
      exact hoffsets.mpr (hplaces opening close hopen hclose)
    · exact Or.inl hboth
  · intro hcases opening close hopen hclose
    have hstands := (Text.lastIndex?_eq_some hopen).1
    have hstands' := (Text.lastIndex?_eq_some hclose).1
    rcases hcases with hnot | ⟨offset, hlast, hlast'⟩
    · refine absurd ?_ hnot
      exact ⟨Text.infix_iff_standsAt.mpr ⟨_, hstands⟩,
        Text.infix_iff_standsAt.mpr ⟨_, hstands'⟩⟩
    · rcases Text.lastAt_iff.mp hlast with ⟨_, hclose', hoffset⟩
      rcases Text.lastAt_iff.mp hlast' with ⟨_, hopen', hoffset'⟩
      cases hclose.symm.trans hclose'
      cases hopen.symm.trans hopen'
      rw [← byteLength_take_iff hstands hstands', hoffset, hoffset']

/-- A scan agrees with a reader from the inside.  From the outside it does so exactly if
the line does not have markers of both kinds, or if the last opening marker starts two
bytes after the last closing one. -/
theorem advance_agrees_with_reading {line : Text} (h : Separate line) :
    State.inside.advance line = State.inside.read line ∧
      (State.outside.advance line = State.outside.read line ↔
        ¬ (opener <:+: line ∧ closer <:+: line) ∨
          ∃ offset, Text.LastAt closer line offset ∧ Text.LastAt opener line (offset + 2)) := by
  rw [h.read_eq, h.read_eq, h.advance_outside_iff]
  exact ⟨h.advance_inside, lastIndex?_rightBehind_iff line⟩

/-- A line with a whole comment, the end of another one and the beginning of a third. -/
def threeComments : Text := "/* é */ x *//* y".toList

theorem advance_agrees_with_reading_threeComments :
    Separate threeComments ∧
      State.inside.advance threeComments = State.inside.read threeComments ∧
      Text.LastAt closer threeComments 11 ∧ Text.LastAt opener threeComments 13 ∧
      State.outside.advance threeComments = State.outside.read threeComments := by
  have hseparate : Separate threeComments := by
    constructor
    · rw [← Text.occurs_iff]
      decide
    · rw [← Text.occurs_iff]
      decide
  have hclose : Text.LastAt closer threeComments 11 :=
    Text.lastAt_iff.mpr ⟨10, by decide, by decide⟩
  have hopen : Text.LastAt opener threeComments 13 :=
    Text.lastAt_iff.mpr ⟨12, by decide, by decide⟩
  rcases advance_agrees_with_reading hseparate with ⟨hinside, houtside⟩
  exact ⟨hseparate, hinside, hclose, hopen, houtside.mpr (Or.inr ⟨11, hclose, hopen⟩)⟩

/-- A comment on one line is left by a reader, but a scan takes it for a beginning. -/
example : State.outside.advance "/* x */".toList = .inside ∧
    State.outside.read "/* x */".toList = .outside := by decide

end Comment
end SourceTidy
