import SourceTidy.Text.Basic

/-!
# Texts cut at separators

The pieces of a text have no separator in them, and a character that is none belongs to
one of the pieces.  A cut at the first separator gives back the text that stands in front
of it.
-/

namespace SourceTidy
namespace Text

variable {α : Type}

theorem splitOnP_cons_of_not_sep {sep : α → Bool} {c : α} {rest piece : List α}
    {pieces : List (List α)} (hc : sep c = false) (hrest : rest.splitOnP sep = piece :: pieces) :
    (c :: rest).splitOnP sep = (c :: piece) :: pieces := by
  rw [List.splitOnP_cons_eq_if_modifyHead, hc, hrest]
  rfl

theorem beq_eq_false_of_not_mem {text : Text} {c : Char} (h : c ∉ text) :
    ∀ d ∈ text, (d == c) = false := by
  intro d hd
  have hne : d ≠ c := fun heq => h (heq ▸ hd)
  simpa using hne

theorem not_sep_of_mem_splitOnP {sep : α → Bool} {text piece : List α}
    (h : piece ∈ text.splitOnP sep) : ∀ c ∈ piece, sep c = false := by
  induction text generalizing piece with
  | nil =>
      rw [List.splitOnP_nil, List.mem_singleton] at h
      rw [h]
      simp
  | cons d rest ih =>
      cases hd : sep d with
      | true =>
          rw [List.splitOnP_cons_eq_if_modifyHead, if_pos hd] at h
          rcases List.mem_cons.mp h with rfl | hpiece
          · simp
          · exact ih hpiece
      | false =>
          cases hrest : rest.splitOnP sep with
          | nil => exact absurd hrest (List.splitOnP_ne_nil sep rest)
          | cons first others =>
              rw [hrest] at ih
              rw [splitOnP_cons_of_not_sep hd hrest] at h
              rcases List.mem_cons.mp h with rfl | hpiece
              · rw [List.forall_mem_cons]
                exact ⟨hd, ih List.mem_cons_self⟩
              · exact ih (List.mem_cons_of_mem first hpiece)

/-!
# The first separator
-/

theorem cutBefore?_append {stop : Char → Bool} {before : Text} {c : Char}
    (hbefore : ∀ d ∈ before, stop d = false) (hc : stop c = true) (rest : Text) :
    cutBefore? stop (before ++ c :: rest) = some (before, c :: rest) := by
  induction before with
  | nil => rw [List.nil_append, cutBefore?, if_pos hc]
  | cons d before ih =>
      have hd : stop d = false := hbefore d List.mem_cons_self
      have hcut := ih fun e he => hbefore e (List.mem_cons_of_mem d he)
      rw [List.cons_append, cutBefore?, hd, hcut]
      rfl

theorem cutBefore?_eq_none {stop : Char → Bool} {text : Text}
    (h : ∀ c ∈ text, stop c = false) : cutBefore? stop text = none := by
  induction text with
  | nil => rfl
  | cons c rest ih =>
      have hc : stop c = false := h c List.mem_cons_self
      have hcut := ih fun d hd => h d (List.mem_cons_of_mem c hd)
      rw [cutBefore?, hc, hcut]
      rfl

/-- Every text either has no separator or is cut at its first one. -/
theorem cutBefore?_cases (stop : Char → Bool) (text : Text) :
    (∀ c ∈ text, stop c = false) ∨
      ∃ before c rest, text = before ++ c :: rest ∧ (∀ d ∈ before, stop d = false) ∧
        stop c = true := by
  cases hfind : text.find? stop with
  | none =>
      refine Or.inl ?_
      intro c hc
      simpa using List.find?_eq_none.mp hfind c hc
  | some c =>
      rcases List.find?_eq_some_iff_append.mp hfind with ⟨hc, before, rest, htext, hbefore⟩
      refine Or.inr ⟨before, c, rest, htext, ?_, hc⟩
      intro d hd
      simpa using hbefore d hd

end Text
end SourceTidy
