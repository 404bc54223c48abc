import SourceTidy.Proofs.Text.Trimming

/-!
# Texts that differ in their gaps only

A gap is made of spaces and tabs.  Two texts are respaced forms of each other if
they agree when every gap is taken for a single separator.  Every cut of one text
at a visible character can be made in the other text as well, and what trimming
leaves of the two is respaced again.
-/

namespace SourceTidy
namespace Text

def IsGap (c : Char) : Prop :=
  c = ' ' ∨ c = '\t'

/-- The same visible characters, with gaps in the same places. -/
inductive Respaced : Text → Text → Prop where
  | nil : Respaced [] []
  | visible {c : Char} {a b : Text} (hc : ¬ IsGap c) (h : Respaced a b) :
      Respaced (c :: a) (c :: b)
  | gap {m n a b : Text} (hm : m ≠ []) (hn : n ≠ []) (hmgap : ∀ c ∈ m, IsGap c)
      (hngap : ∀ c ∈ n, IsGap c) (h : Respaced a b) : Respaced (m ++ a) (n ++ b)

namespace Respaced

variable {a b : Text}

theorem symm (h : Respaced a b) : Respaced b a := by
  induction h with
  | nil => exact nil
  | visible hc _ ih => exact visible hc ih
  | gap hm hn hmgap hngap _ ih => exact gap hn hm hngap hmgap ih

theorem cons (c : Char) (h : Respaced a b) : Respaced (c :: a) (c :: b) := by
  by_cases hc : IsGap c
  · have hgap : ∀ d ∈ [c], IsGap d := by
      intro d hd
      rwa [List.mem_singleton.mp hd]
    exact gap (List.cons_ne_nil c []) (List.cons_ne_nil c []) hgap hgap h
  · exact visible hc h

theorem refl (text : Text) : Respaced text text := by
  induction text with
  | nil => exact nil
  | cons c rest ih => exact ih.cons c

theorem append {c d : Text} (h : Respaced a b) (h' : Respaced c d) :
    Respaced (a ++ c) (b ++ d) := by
  induction h with
  | nil => exact h'
  | visible hc _ ih => exact visible hc ih
  | gap hm hn hmgap hngap _ ih =>
      rw [List.append_assoc, List.append_assoc]
      exact gap hm hn hmgap hngap ih

theorem reverse (h : Respaced a b) : Respaced a.reverse b.reverse := by
  induction h with
  | nil => exact nil
  | @visible c a b hc _ ih =>
      rw [List.reverse_cons, List.reverse_cons]
      exact ih.append (refl [c])
  | @gap m n a b hm hn hmgap hngap _ ih =>
      have hgap : Respaced m.reverse n.reverse := by
        rw [← List.append_nil m.reverse, ← List.append_nil n.reverse]
        refine gap ?_ ?_ ?_ ?_ nil
        · rwa [Ne, List.reverse_eq_nil_iff]
        · rwa [Ne, List.reverse_eq_nil_iff]
        · intro c hc
          exact hmgap c (List.mem_reverse.mp hc)
        · intro c hc
          exact hngap c (List.mem_reverse.mp hc)
      rw [List.reverse_append, List.reverse_append]
      exact ih.append hgap

/-!
# Cutting
-/

theorem eq_nil (h : Respaced a b) (ha : a = []) : b = [] := by
  cases h with
  | nil => rfl
  | visible hc h => cases ha
  | gap hm hn hmgap hngap h => exact absurd (List.append_eq_nil_iff.mp ha).1 hm

theorem cut (h : Respaced a b) {x y : Text} {c : Char} (ha : a = x ++ c :: y)
    (hc : ¬ IsGap c) :
    ∃ x' y', b = x' ++ c :: y' ∧ Respaced x x' ∧ Respaced y y' := by
  induction h generalizing x with
  | nil => simp at ha
  | @visible d a b hd h ih =>
      cases x with
      | nil =>
          cases ha
          exact ⟨[], b, rfl, nil, h⟩
      | cons e x =>
          cases ha
          rcases ih rfl with ⟨x', y', rfl, hx, hy⟩
          exact ⟨d :: x', y', rfl, visible hd hx, hy⟩
  | @gap m n a b hm hn hmgap hngap h ih =>
      -- The cut is not inside the gap, so the gap stands in front of it.
      have hsplit : ∃ rest, x = m ++ rest ∧ a = rest ++ c :: y := by
        rcases List.append_eq_append_iff.mp ha with ⟨rest, hx, hrest⟩ | ⟨rest, hx, hrest⟩
        · exact ⟨rest, hx, hrest⟩
        · cases rest with
          | nil => exact ⟨[], by simpa using hx.symm, by simpa using hrest.symm⟩
          | cons d rest =>
              cases hrest
              refine absurd (hmgap c ?_) hc
              rw [hx]
              simp
      rcases hsplit with ⟨rest, rfl, hrest⟩
      rcases ih hrest with ⟨x', y', rfl, hx, hy⟩
      refine ⟨n ++ x', y', ?_, gap hm hn hmgap hngap hx, hy⟩
      rw [List.append_assoc]

theorem cut_pair (h : Respaced a b) {x y : Text} {c d : Char} (ha : a = x ++ c :: d :: y)
    (hc : ¬ IsGap c) (hd : ¬ IsGap d) :
    ∃ x' y', b = x' ++ c :: d :: y' ∧ Respaced x x' ∧ Respaced y y' := by
  rcases h.cut ha hc with ⟨x', rest, rfl, hx, hrest⟩
  rcases hrest.cut (List.nil_append (d :: y)).symm hd with ⟨empty, y', rfl, hempty, hy⟩
  rw [hempty.eq_nil rfl]
  exact ⟨x', y', rfl, hx, hy⟩

theorem infix_of_infix (h : Respaced a b) {c d : Char} (hc : ¬ IsGap c) (hd : ¬ IsGap d)
    (hpart : [c, d] <:+: a) : [c, d] <:+: b := by
  rcases hpart with ⟨x, y, ha⟩
  have ha' : a = x ++ c :: d :: y := by simp [← ha]
  rcases h.cut_pair ha' hc hd with ⟨x', y', rfl, _, _⟩
  exact ⟨x', y', by simp⟩

theorem prefix_of_prefix (h : Respaced a b) {c d : Char} (hc : ¬ IsGap c) (hd : ¬ IsGap d)
    (hpart : [c, d] <+: a) : [c, d] <+: b := by
  rcases hpart with ⟨y, ha⟩
  rcases h.cut_pair (x := []) ha.symm hc hd with ⟨x', y', rfl, hx, _⟩
  rw [hx.eq_nil rfl]
  exact ⟨y', rfl⟩

theorem suffix_of_suffix (h : Respaced a b) {c d : Char} (hc : ¬ IsGap c) (hd : ¬ IsGap d)
    (hpart : [c, d] <:+ a) : [c, d] <:+ b := by
  rcases hpart with ⟨x, ha⟩
  rcases h.cut_pair (y := []) ha.symm hc hd with ⟨x', y', rfl, _, hy⟩
  rw [hy.eq_nil rfl]
  exact ⟨x', rfl⟩

theorem getLast?_ne (h : Respaced a b) {c : Char} (hc : ¬ IsGap c)
    (ha : a.getLast? ≠ some c) : b.getLast? ≠ some c := by
  intro hb
  rcases List.getLast?_eq_some_iff.mp hb with ⟨x, rfl⟩
  rcases h.symm.cut rfl hc with ⟨x', empty, rfl, _, hempty⟩
  rw [hempty.eq_nil rfl] at ha
  simp at ha

/-!
# Trimming
-/

theorem isBlank_of_isGap {c : Char} (h : IsGap c) : isBlank c = true := by
  rcases h with rfl | rfl
  · decide
  · decide

theorem trimStart (h : Respaced a b) : Respaced (Text.trimStart a) (Text.trimStart b) := by
  induction h with
  | nil => exact nil
  | @visible c a b hc h ih =>
      cases hblank : isBlank c with
      | true => rwa [Text.trimStart, List.dropWhile_cons_of_pos hblank, Text.trimStart,
          List.dropWhile_cons_of_pos hblank]
      | false =>
          have hstop : ¬ isBlank c = true := Bool.eq_false_iff.mp hblank
          rw [Text.trimStart, List.dropWhile_cons_of_neg hstop, Text.trimStart,
            List.dropWhile_cons_of_neg hstop]
          exact visible hc h
  | gap _ _ hmgap hngap _ ih =>
      rw [trimStart_append_of_blank fun c hc => isBlank_of_isGap (hmgap c hc),
        trimStart_append_of_blank fun c hc => isBlank_of_isGap (hngap c hc)]
      exact ih

theorem trimEnd (h : Respaced a b) : Respaced (Text.trimEnd a) (Text.trimEnd b) :=
  h.reverse.trimStart.reverse

end Respaced

end Text
end SourceTidy
