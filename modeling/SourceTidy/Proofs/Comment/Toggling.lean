import SourceTidy.Comment
import SourceTidy.Proofs.Text.Markers
import SourceTidy.Proofs.Text.Respacing

/-!
# What makes a line toggle

The two comparisons of last places are restated without places.  From the inside
a line toggles if some closing marker has no opening one after it and shares no
character with one.  From the outside it toggles if it has an opening marker, and
some closing marker has no opening one after it but perhaps right behind it.  In
this form it is plain that gaps do not matter.
-/

namespace SourceTidy
namespace Comment

/-!
# By places
-/

theorem toggles_inside_iff_places (line : Text) :
    toggles line .inside = true ↔
      ∃ j, Text.StandsAt '*' '/' line j ∧ ∀ i, Text.StandsAt '/' '*' line i → i + 2 ≤ j := by
  cases hclose : Text.lastIndex? closer line with
  | none =>
      rw [toggles, hclose]
      constructor
      · intro h
        cases h
      · intro h
        rcases h with ⟨j, hj, _⟩
        exact absurd hj (Text.lastIndex?_eq_none hclose j)
  | some close =>
      rcases Text.lastIndex?_eq_some hclose with ⟨hstands, hlatest⟩
      cases hopen : Text.lastIndex? opener line with
      | none =>
          rw [toggles, hclose, hopen]
          constructor
          · intro _
            refine ⟨close, hstands, ?_⟩
            intro i hi
            exact absurd hi (Text.lastIndex?_eq_none hopen i)
          · intro _
            rfl
      | some opening =>
          rcases Text.lastIndex?_eq_some hopen with ⟨hstands', hlatest'⟩
          rw [toggles, hclose, hopen]
          simp only [decide_eq_true_eq]
          constructor
          · intro h
            refine ⟨close, hstands, ?_⟩
            intro i hi
            have hle := hlatest' i hi
            omega
          · intro h
            rcases h with ⟨j, hj, hbefore⟩
            have hle := hlatest j hj
            have hfar := hbefore opening hstands'
            omega

theorem toggles_outside_iff_places (line : Text) :
    toggles line .outside = true ↔
      (∃ i, Text.StandsAt '/' '*' line i) ∧
        ((∀ j, ¬ Text.StandsAt '*' '/' line j) ∨
          ∃ j, Text.StandsAt '*' '/' line j ∧ ∀ i, Text.StandsAt '/' '*' line i → i ≤ j + 2) := by
  cases hopen : Text.lastIndex? opener line with
  | none =>
      rw [toggles, hopen]
      constructor
      · intro h
        cases h
      · intro h
        rcases h with ⟨⟨i, hi⟩, _⟩
        exact absurd hi (Text.lastIndex?_eq_none hopen i)
  | some opening =>
      rcases Text.lastIndex?_eq_some hopen with ⟨hstands, hlatest⟩
      cases hclose : Text.lastIndex? closer line with
      | none =>
          rw [toggles, hopen, hclose]
          constructor
          · intro _
            exact ⟨⟨opening, hstands⟩, Or.inl (Text.lastIndex?_eq_none hclose)⟩
          · intro _
            rfl
      | some close =>
          rcases Text.lastIndex?_eq_some hclose with ⟨hstands', hlatest'⟩
          rw [toggles, hopen, hclose]
          simp only [decide_eq_true_eq]
          constructor
          · intro h
            refine ⟨⟨opening, hstands⟩, Or.inr ⟨close, hstands', ?_⟩⟩
            intro i hi
            have hle := hlatest i hi
            omega
          · intro h
            rcases h with ⟨_, hnone | ⟨j, hj, hnear⟩⟩
            · exact absurd hstands' (hnone close)
            · have hle := hlatest' j hj
              have hclose' := hnear opening hstands
              omega

/-!
# By taking the line apart
-/

theorem toggles_inside_iff (line : Text) :
    toggles line .inside = true ↔
      ∃ before after, line = before ++ '*' :: '/' :: after ∧ before.getLast? ≠ some '/' ∧
        ¬ opener <:+: '/' :: after := by
  rw [toggles_inside_iff_places]
  constructor
  · intro h
    rcases h with ⟨_, ⟨before, after, rfl, rfl⟩, hbefore⟩
    refine ⟨before, after, rfl, ?_, ?_⟩
    · intro hslash
      rcases List.getLast?_eq_some_iff.mp hslash with ⟨rest, rfl⟩
      have hshared : Text.StandsAt '/' '*' (rest ++ ['/'] ++ '*' :: '/' :: after) rest.length :=
        ⟨rest, '/' :: after, by simp, rfl⟩
      have hfar := hbefore rest.length hshared
      simp at hfar
    · intro hafter
      rcases Text.infix_iff_standsAt.mp hafter with ⟨_, rest, tail, hrest, rfl⟩
      have hlater : Text.StandsAt '/' '*' (before ++ '*' :: '/' :: after)
          (before ++ '*' :: rest).length := by
        refine ⟨before ++ '*' :: rest, tail, ?_, rfl⟩
        rw [hrest, List.append_assoc, List.cons_append]
      have hfar := hbefore _ hlater
      simp at hfar
      omega
  · intro h
    rcases h with ⟨before, after, rfl, hslash, hafter⟩
    refine ⟨before.length, ⟨before, after, rfl, rfl⟩, ?_⟩
    intro i h
    rcases h with ⟨front, tail, htext, rfl⟩
    rcases List.append_eq_append_iff.mp htext with ⟨rest, rfl, hrest⟩ | ⟨rest, rfl, hrest⟩
    · -- The opening marker would start at the closing one or after it.
      rcases rest with _ | ⟨c, rest⟩
      · cases hrest
      · refine absurd ?_ hafter
        rw [List.cons_append] at hrest
        rw [(List.cons.inj hrest).2]
        exact ⟨rest, tail, by simp [opener]⟩
    · rcases rest with _ | ⟨c, _ | ⟨d, rest⟩⟩
      · cases hrest
      · cases hrest
        simp at hslash
      · simp

theorem toggles_outside_iff (line : Text) :
    toggles line .outside = true ↔
      opener <:+: line ∧
        (¬ closer <:+: line ∨
          ∃ before after, line = before ++ '*' :: '/' :: after ∧
            ∀ rest tail, after = rest ++ '/' :: '*' :: tail → rest = []) := by
  rw [toggles_outside_iff_places, opener, closer, Text.infix_iff_standsAt,
    Text.infix_iff_standsAt, not_exists]
  apply and_congr_right
  intro _
  apply or_congr_right
  constructor
  · intro h
    rcases h with ⟨_, ⟨before, after, rfl, rfl⟩, hnear⟩
    refine ⟨before, after, rfl, ?_⟩
    intro rest tail hafter
    subst hafter
    have hlater : Text.StandsAt '/' '*' (before ++ '*' :: '/' :: (rest ++ '/' :: '*' :: tail))
        (before ++ '*' :: '/' :: rest).length :=
      ⟨before ++ '*' :: '/' :: rest, tail, by simp, rfl⟩
    have hle := hnear _ hlater
    simpa using hle
  · intro h
    rcases h with ⟨before, after, rfl, hafter⟩
    refine ⟨before.length, ⟨before, after, rfl, rfl⟩, ?_⟩
    intro i h
    rcases h with ⟨front, tail, htext, rfl⟩
    rcases List.append_eq_append_iff.mp htext with ⟨rest, rfl, hrest⟩ | ⟨rest, rfl, _⟩
    · rcases rest with _ | ⟨c, _ | ⟨d, rest⟩⟩
      · simp
      · simp
      · have hempty : rest = [] := by
          apply hafter rest tail
          exact (List.cons.inj (List.cons.inj hrest).2).2
        simp [hempty]
    · simp
      omega

/-!
# Gaps do not matter
-/

theorem not_isGap_slash : ¬ Text.IsGap '/' := by
  simp [Text.IsGap]

theorem not_isGap_star : ¬ Text.IsGap '*' := by
  simp [Text.IsGap]

theorem toggles_inside_of_respaced {a b : Text} (h : Text.Respaced a b)
    (ha : toggles a .inside = true) : toggles b .inside = true := by
  rw [toggles_inside_iff] at ha ⊢
  rcases ha with ⟨before, after, hline, hslash, hafter⟩
  rcases h.cut_pair hline not_isGap_star not_isGap_slash with ⟨before', after', rfl, hx, hy⟩
  refine ⟨before', after', rfl, hx.getLast?_ne not_isGap_slash hslash, ?_⟩
  intro hopener
  apply hafter
  exact (Text.Respaced.visible not_isGap_slash hy).symm.infix_of_infix not_isGap_slash
    not_isGap_star hopener

theorem toggles_outside_of_respaced {a b : Text} (h : Text.Respaced a b)
    (ha : toggles a .outside = true) : toggles b .outside = true := by
  rw [toggles_outside_iff] at ha ⊢
  rcases ha with ⟨hopener, hnone | ⟨before, after, hline, hafter⟩⟩
  · refine ⟨h.infix_of_infix not_isGap_slash not_isGap_star hopener, Or.inl ?_⟩
    intro hcloser
    exact hnone (h.symm.infix_of_infix not_isGap_star not_isGap_slash hcloser)
  · refine ⟨h.infix_of_infix not_isGap_slash not_isGap_star hopener, Or.inr ?_⟩
    rcases h.cut_pair hline not_isGap_star not_isGap_slash with ⟨before', after', rfl, _, hy⟩
    refine ⟨before', after', rfl, ?_⟩
    intro rest tail hrest
    rcases hy.symm.cut_pair hrest not_isGap_slash not_isGap_star with
      ⟨rest', tail', hrest', hempty, _⟩
    exact hempty.symm.eq_nil (hafter rest' tail' hrest')

theorem toggles_respaced {a b : Text} (h : Text.Respaced a b) (state : State) :
    toggles b state = toggles a state := by
  cases state with
  | inside =>
      exact Bool.eq_iff_iff.mpr
        ⟨toggles_inside_of_respaced h.symm, toggles_inside_of_respaced h⟩
  | outside =>
      exact Bool.eq_iff_iff.mpr
        ⟨toggles_outside_of_respaced h.symm, toggles_outside_of_respaced h⟩

theorem advance_respaced {a b : Text} (h : Text.Respaced a b) (state : State) :
    state.advance b = state.advance a := by
  rw [State.advance, State.advance, toggles_respaced h]

/-!
# Characters at the ends do not matter

Toggling compares places, and what stands in front of a line moves all of them.
-/

theorem toggles_cons_other {c : Char} (hslash : c ≠ '/') (hstar : c ≠ '*') (line : Text)
    (state : State) : toggles (c :: line) state = toggles line state := by
  have hopen : Text.lastIndex? opener (c :: line) = (Text.lastIndex? opener line).map (· + 1) :=
    Text.lastIndex?_cons_other hslash
  have hclose : Text.lastIndex? closer (c :: line) = (Text.lastIndex? closer line).map (· + 1) :=
    Text.lastIndex?_cons_other hstar
  cases state with
  | inside =>
      rw [toggles, toggles, hopen, hclose]
      cases Text.lastIndex? closer line with
      | none => rfl
      | some close =>
          cases Text.lastIndex? opener line with
          | none => rfl
          | some opening =>
              have hshift : opening + 1 + 2 ≤ close + 1 ↔ opening + 2 ≤ close := by omega
              exact decide_eq_decide.mpr hshift
  | outside =>
      rw [toggles, toggles, hopen, hclose]
      cases Text.lastIndex? opener line with
      | none => rfl
      | some opening =>
          cases Text.lastIndex? closer line with
          | none => rfl
          | some close =>
              have hshift : opening + 1 ≤ close + 1 + 2 ↔ opening ≤ close + 2 := by omega
              exact decide_eq_decide.mpr hshift

theorem toggles_append_other {c : Char} (hslash : c ≠ '/') (hstar : c ≠ '*') (line : Text)
    (state : State) : toggles (line ++ [c]) state = toggles line state := by
  have hopen : Text.lastIndex? opener (line ++ [c]) = Text.lastIndex? opener line :=
    Text.lastIndex?_append_other hstar
  have hclose : Text.lastIndex? closer (line ++ [c]) = Text.lastIndex? closer line :=
    Text.lastIndex?_append_other hslash
  cases state with
  | inside => rw [toggles, toggles, hopen, hclose]
  | outside => rw [toggles, toggles, hopen, hclose]

theorem ne_of_isBlank {c : Char} (h : Text.isBlank c = true) : c ≠ '/' ∧ c ≠ '*' := by
  constructor
  · rintro rfl
    exact absurd h (by decide)
  · rintro rfl
    exact absurd h (by decide)

theorem toggles_trimStart (line : Text) (state : State) :
    toggles (Text.trimStart line) state = toggles line state := by
  induction line with
  | nil => rfl
  | cons c rest ih =>
      cases hc : Text.isBlank c with
      | false =>
          rw [Text.trimStart, List.dropWhile_cons_of_neg (Bool.eq_false_iff.mp hc)]
      | true =>
          rcases ne_of_isBlank hc with ⟨hslash, hstar⟩
          rw [Text.trimStart, List.dropWhile_cons_of_pos hc, toggles_cons_other hslash hstar]
          exact ih

theorem toggles_append_blank (line : Text) {tail : Text}
    (h : ∀ c ∈ tail, Text.isBlank c = true) (state : State) :
    toggles (line ++ tail) state = toggles line state := by
  induction tail generalizing line with
  | nil => rw [List.append_nil]
  | cons c rest ih =>
      rcases ne_of_isBlank (h c List.mem_cons_self) with ⟨hslash, hstar⟩
      rw [List.append_cons, ih _ fun d hd => h d (List.mem_cons_of_mem c hd),
        toggles_append_other hslash hstar]

theorem toggles_trimEnd (line : Text) (state : State) :
    toggles (Text.trimEnd line) state = toggles line state := by
  rcases Text.exists_trimEnd_append_blank line with ⟨tail, htail, hline⟩
  nth_rewrite 2 [hline]
  exact (toggles_append_blank _ htail state).symm

/-!
# Scanning
-/

/-- The side that a scan is on before the line with the given number. -/
def sideAt (start : State) (lines : List Text) (index : Nat) : State :=
  (lines.take index).foldl State.advance start

/-- The lines after which a scan from the given side is outside of comments. -/
def outsideLines : State → List Text → List Text
  | _, [] => []
  | state, line :: rest =>
      if state.advance line = .outside then
        line :: outsideLines (state.advance line) rest
      else
        outsideLines (state.advance line) rest

theorem mem_outsideLines_head {state : State} {line : Text} {rest : List Text}
    (h : state.advance line = .outside) : line ∈ outsideLines state (line :: rest) := by
  rw [outsideLines, if_pos h]
  exact List.mem_cons_self

theorem mem_outsideLines_tail {state : State} {line other : Text} {rest : List Text}
    (h : other ∈ outsideLines (state.advance line) rest) :
    other ∈ outsideLines state (line :: rest) := by
  rw [outsideLines]
  split
  · exact List.mem_cons_of_mem line h
  · exact h

end Comment
end SourceTidy
