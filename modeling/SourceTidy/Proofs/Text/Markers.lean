import SourceTidy.Text.Basic

/-!
# Occurrences of a marker

A marker of two characters stands at a place if the text can be taken apart there.
The last place is the one that no other comes after, counted in characters or in the
bytes in front of it.  A text in which a marker is replaced consists of occurrences of
the marker and single other characters.
-/

namespace SourceTidy
namespace Text

theorem occurs_iff (marker text : Text) : occurs marker text = true ↔ marker <:+: text := by
  induction text with
  | nil => rw [occurs, List.isEmpty_iff, List.infix_nil]
  | cons c rest ih =>
      rw [occurs, Bool.or_eq_true, List.isPrefixOf_iff_prefix, ih, List.infix_cons_iff]

/-!
# Places
-/

def StandsAt (p q : Char) (text : Text) (i : Nat) : Prop :=
  ∃ before after, text = before ++ p :: q :: after ∧ before.length = i

variable {p q : Char} {text : Text}

theorem infix_iff_standsAt : [p, q] <:+: text ↔ ∃ i, StandsAt p q text i := by
  constructor
  · intro h
    rcases h with ⟨before, after, htext⟩
    refine ⟨before.length, before, after, ?_, rfl⟩
    rw [← htext, List.append_assoc]
    rfl
  · intro h
    rcases h with ⟨_, before, after, rfl, _⟩
    refine ⟨before, after, ?_⟩
    rw [List.append_assoc]
    rfl

/-- A marker in a joined text lies in one of the parts or across the joint. -/
theorem infix_append_cases {a b : Text} (h : [p, q] <:+: a ++ b) :
    [p, q] <:+: a ∨ [p, q] <:+: b ∨ a.getLast? = some p ∧ b.head? = some q := by
  rcases infix_iff_standsAt.mp h with ⟨_, before, after, htext, _⟩
  rcases List.append_eq_append_iff.mp htext with ⟨rest, _, rfl⟩ | ⟨rest, rfl, hrest⟩
  · exact Or.inr (Or.inl (infix_iff_standsAt.mpr ⟨_, rest, after, rfl, rfl⟩))
  · rcases rest with _ | ⟨c, _ | ⟨d, rest⟩⟩
    · exact Or.inr (Or.inl (infix_iff_standsAt.mpr ⟨_, [], after, hrest.symm, rfl⟩))
    · cases hrest
      exact Or.inr (Or.inr ⟨by simp, rfl⟩)
    · cases hrest
      exact Or.inl (infix_iff_standsAt.mpr ⟨_, before, rest, rfl, rfl⟩)

theorem infix_append_cons {a b : Text} {c : Char} (hp : c ≠ p) (hq : c ≠ q)
    (h : [p, q] <:+: a ++ c :: b) : [p, q] <:+: a ∨ [p, q] <:+: b := by
  rcases infix_append_cases h with ha | hb | ⟨_, hhead⟩
  · exact Or.inl ha
  · rcases List.infix_cons_iff.mp hb with hfirst | hrest
    · exact absurd (List.cons_prefix_cons.mp hfirst).1.symm hp
    · exact Or.inr hrest
  · cases hhead
    exact absurd rfl hq

theorem StandsAt.le_length {i : Nat} (h : StandsAt p q text i) : i + 2 ≤ text.length := by
  rcases h with ⟨before, after, rfl, rfl⟩
  simp

theorem standsAt_zero_iff : StandsAt p q text 0 ↔ [p, q] <+: text := by
  constructor
  · intro h
    rcases h with ⟨before, after, rfl, hlength⟩
    rw [List.length_eq_zero_iff.mp hlength]
    exact ⟨after, rfl⟩
  · intro h
    rcases h with ⟨after, rfl⟩
    exact ⟨[], after, rfl, rfl⟩

theorem standsAt_succ_iff {c : Char} {i : Nat} :
    StandsAt p q (c :: text) (i + 1) ↔ StandsAt p q text i := by
  constructor
  · intro h
    rcases h with ⟨before, after, htext, hlength⟩
    cases before with
    | nil => cases hlength
    | cons d before =>
        cases htext
        exact ⟨before, after, rfl, Nat.succ.inj hlength⟩
  · intro h
    rcases h with ⟨before, after, rfl, rfl⟩
    exact ⟨c :: before, after, rfl, rfl⟩

theorem lastIndex?_eq_none (h : lastIndex? [p, q] text = none) (i : Nat) :
    ¬ StandsAt p q text i := by
  induction text generalizing i with
  | nil =>
      intro h
      rcases h with ⟨before, after, htext, _⟩
      simp at htext
  | cons c rest ih =>
      rw [lastIndex?] at h
      split at h
      · cases h
      · next hrest =>
          split at h
          · cases h
          · next hfirst =>
              cases i with
              | zero =>
                  rw [standsAt_zero_iff, ← List.isPrefixOf_iff_prefix]
                  exact hfirst
              | succ i =>
                  rw [standsAt_succ_iff]
                  exact ih hrest i

theorem lastIndex?_eq_some {i : Nat} (h : lastIndex? [p, q] text = some i) :
    StandsAt p q text i ∧ ∀ j, StandsAt p q text j → j ≤ i := by
  induction text generalizing i with
  | nil => cases h
  | cons c rest ih =>
      rw [lastIndex?] at h
      split at h
      · next k hrest =>
          cases h
          rcases ih hrest with ⟨hlast, hlatest⟩
          refine ⟨standsAt_succ_iff.mpr hlast, ?_⟩
          intro j hj
          cases j with
          | zero => exact Nat.zero_le _
          | succ j => exact Nat.succ_le_succ (hlatest j (standsAt_succ_iff.mp hj))
      · next hrest =>
          split at h
          · next hfirst =>
              cases h
              refine ⟨standsAt_zero_iff.mpr (List.isPrefixOf_iff_prefix.mp hfirst), ?_⟩
              intro j hj
              cases j with
              | zero => exact Nat.le_refl 0
              | succ j => exact absurd (standsAt_succ_iff.mp hj) (lastIndex?_eq_none hrest j)
          · cases h

/-!
# Places in a longer text

A character that is not in the marker moves the last place if it is put in front of
the text, and does nothing if it is put behind it.
-/

theorem lastIndex?_cons_other {c : Char} (h : c ≠ p) :
    lastIndex? [p, q] (c :: text) = (lastIndex? [p, q] text).map (· + 1) := by
  have hother : [p, q].isPrefixOf (c :: text) = false := by
    rw [List.isPrefixOf, beq_eq_false_iff_ne.mpr h.symm, Bool.false_and]
  rw [lastIndex?, hother]
  cases lastIndex? [p, q] text <;> rfl

theorem lastIndex?_append_other {c : Char} (h : c ≠ q) :
    lastIndex? [p, q] (text ++ [c]) = lastIndex? [p, q] text := by
  induction text with
  | nil => simp [lastIndex?, List.isPrefixOf]
  | cons d rest ih =>
      have hsame : [p, q].isPrefixOf (d :: (rest ++ [c])) = [p, q].isPrefixOf (d :: rest) := by
        cases rest with
        | nil => simp [List.isPrefixOf, h.symm]
        | cons e rest => simp [List.isPrefixOf]
      rw [List.cons_append, lastIndex?, ih, hsame, lastIndex?]

/-!
# Offsets

Where a marker stands can be told by the number of bytes in front of it as well.
-/

/-- The last occurrence of a marker has the given number of bytes in front of it. -/
def LastAt (marker text : Text) (offset : Nat) : Prop :=
  (∃ before after, text = before ++ marker ++ after ∧ byteLength before = offset) ∧
    ∀ before after, text = before ++ marker ++ after → byteLength before ≤ offset

theorem byteLength_take_le (text : Text) {i j : Nat} (h : i ≤ j) :
    byteLength (text.take i) ≤ byteLength (text.take j) := by
  rcases List.take_prefix_take_left (l := text) h with ⟨rest, hrest⟩
  rw [← hrest, byteLength_append]
  exact Nat.le_add_right _ _

theorem standsAt_of_append {before after : Text} (h : text = before ++ [p, q] ++ after) :
    StandsAt p q text before.length ∧ text.take before.length = before := by
  rw [List.append_assoc] at h
  refine ⟨⟨before, after, h, rfl⟩, ?_⟩
  rw [h, List.take_left]

theorem StandsAt.exists_append {i : Nat} (h : StandsAt p q text i) :
    ∃ after, text = text.take i ++ [p, q] ++ after := by
  rcases h with ⟨before, after, htext, rfl⟩
  have hbefore : text.take before.length = before := by
    rw [htext, List.take_left]
  refine ⟨after, ?_⟩
  rw [hbefore, List.append_assoc]
  exact htext

theorem lastAt_iff {offset : Nat} :
    LastAt [p, q] text offset ↔
      ∃ i, lastIndex? [p, q] text = some i ∧ byteLength (text.take i) = offset := by
  constructor
  · intro h
    rcases h with ⟨⟨before, after, htext, hoffset⟩, hlast⟩
    rcases standsAt_of_append htext with ⟨hstands, hbefore⟩
    cases hindex : lastIndex? [p, q] text with
    | none => exact absurd hstands (lastIndex?_eq_none hindex _)
    | some i =>
        rcases lastIndex?_eq_some hindex with ⟨hi, hlatest⟩
        rcases hi.exists_append with ⟨rest, hrest⟩
        have hle := byteLength_take_le text (hlatest _ hstands)
        rw [hbefore, hoffset] at hle
        exact ⟨i, rfl, Nat.le_antisymm (hlast _ rest hrest) hle⟩
  · intro h
    rcases h with ⟨i, hindex, rfl⟩
    rcases lastIndex?_eq_some hindex with ⟨hi, hlatest⟩
    rcases hi.exists_append with ⟨rest, hrest⟩
    refine ⟨⟨_, rest, hrest, rfl⟩, ?_⟩
    intro before after htext
    rcases standsAt_of_append htext with ⟨hstands, hbefore⟩
    have hle := byteLength_take_le text (hlatest _ hstands)
    rw [hbefore] at hle
    exact hle

theorem exists_lastIndex?_of_infix (h : [p, q] <:+: text) :
    ∃ i, lastIndex? [p, q] text = some i := by
  cases hindex : lastIndex? [p, q] text with
  | some i => exact ⟨i, rfl⟩
  | none =>
      rcases infix_iff_standsAt.mp h with ⟨i, hi⟩
      exact absurd hi (lastIndex?_eq_none hindex i)

/-!
# Replacement
-/

section Replacement

variable {old new : Text}

theorem substituteFrom_skip (a b : Text) :
    substituteFrom old new a.length (a ++ b) = substitute old new b := by
  induction a with
  | nil => rfl
  | cons c a ih => exact ih

theorem substitute_append (h : old ≠ []) (rest : Text) :
    substitute old new (old ++ rest) = new ++ substitute old new rest := by
  cases old with
  | nil => exact absurd rfl h
  | cons c old =>
      have hfound : (c :: old).isPrefixOf (c :: (old ++ rest)) = true :=
        List.isPrefixOf_iff_prefix.mpr (List.prefix_append (c :: old) rest)
      rw [substitute, List.cons_append, substituteFrom, if_pos hfound]
      exact congrArg (new ++ ·) (substituteFrom_skip old rest)

theorem substitute_cons {c : Char} {rest : Text} (h : ¬ old <+: c :: rest) :
    substitute old new (c :: rest) = c :: substitute old new rest := by
  rw [substitute, substituteFrom, if_neg]
  · rfl
  · rwa [List.isPrefixOf_iff_prefix]

/-- Induction along a replacement: over the occurrences that are replaced and the
characters between them. -/
theorem substitute_induction {motive : Text → Prop} (h : old ≠ []) (nil : motive [])
    (found : ∀ rest, motive rest → motive (old ++ rest))
    (other : ∀ c rest, ¬ old <+: c :: rest → motive rest → motive (c :: rest))
    (text : Text) : motive text := by
  induction hn : text.length using Nat.strongRecOn generalizing text with
  | ind n ih =>
      by_cases hfound : old <+: text
      · rcases hfound with ⟨rest, rfl⟩
        have hpos : 0 < old.length := List.length_pos_iff.mpr h
        rw [List.length_append] at hn
        exact found rest (ih rest.length (by omega) rest rfl)
      · cases text with
        | nil => exact nil
        | cons c rest =>
            rw [List.length_cons] at hn
            exact other c rest hfound (ih rest.length (by omega) rest rfl)

end Replacement

end Text
end SourceTidy
