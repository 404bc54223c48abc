import SourceTidy.Proofs.Config.Validation
import SourceTidy.Proofs.DocBlock.Structure
import SourceTidy.Proofs.Text.Separators
import SourceTidy.Proofs.Tidy.SecondPass

/-!
# Tokens under a pass over the whitespace

The tokens of a line are what stands between its gaps.  A pass that leaves the
documentation block alone makes gaps longer or shorter, but joins no two tokens and
breaks none, and it puts no gap at an end of a line and takes none away there.
-/

namespace SourceTidy
namespace Text

instance (c : Char) : Decidable (IsGap c) :=
  inferInstanceAs (Decidable (c = ' ' ∨ c = '\t'))

/-- The longest stretches of a text without spaces and tabs. -/
def tokens (text : Text) : List Text :=
  (text.splitOnP fun c => IsGap c).filter fun token => !token.isEmpty

def StartsInGap (text : Text) : Prop :=
  ∃ c, text.head? = some c ∧ IsGap c

def EndsInGap (text : Text) : Prop :=
  ∃ c, text.getLast? = some c ∧ IsGap c

structure SameTokens (old new : Text) : Prop where
  tokens : tokens new = tokens old
  first : StartsInGap new ↔ StartsInGap old
  last : EndsInGap new ↔ EndsInGap old

theorem SameTokens.trans {first second third : Text} (h : SameTokens first second)
    (h' : SameTokens second third) : SameTokens first third where
  tokens := h'.tokens.trans h.tokens
  first := h'.first.trans h.first
  last := h'.last.trans h.last

/-!
# Gaps
-/

theorem tokens_gap_append {gap : Text} (h : ∀ c ∈ gap, IsGap c) (text : Text) :
    tokens (gap ++ text) = tokens text := by
  induction gap with
  | nil => rfl
  | cons c gap ih =>
      have hc : decide (IsGap c) = true := decide_eq_true (h c List.mem_cons_self)
      have hrest := ih fun d hd => h d (List.mem_cons_of_mem c hd)
      unfold tokens
      rw [List.cons_append, List.splitOnP_cons_eq_if_modifyHead, if_pos hc,
        List.filter_cons_of_neg (by simp)]
      exact hrest

theorem exists_splitOnP_gap_append {gap : Text} (hne : gap ≠ []) (h : ∀ c ∈ gap, IsGap c)
    (text : Text) :
    ∃ pieces, (gap ++ text).splitOnP (fun c => IsGap c) = [] :: pieces ∧
      pieces.filter (fun token => !token.isEmpty) = tokens text := by
  cases gap with
  | nil => exact absurd rfl hne
  | cons c gap =>
      have hc : decide (IsGap c) = true := decide_eq_true (h c List.mem_cons_self)
      refine ⟨(gap ++ text).splitOnP (fun c => IsGap c), ?_, ?_⟩
      · rw [List.cons_append, List.splitOnP_cons_eq_if_modifyHead, if_pos hc]
      · exact tokens_gap_append (fun d hd => h d (List.mem_cons_of_mem c hd)) text

theorem startsInGap_gap_append {gap : Text} (hne : gap ≠ []) (h : ∀ c ∈ gap, IsGap c)
    (text : Text) : StartsInGap (gap ++ text) := by
  cases gap with
  | nil => exact absurd rfl hne
  | cons c gap => exact ⟨c, rfl, h c List.mem_cons_self⟩

theorem not_startsInGap_cons {c : Char} (hc : ¬ IsGap c) (text : Text) :
    ¬ StartsInGap (c :: text) := by
  intro h
  rcases h with ⟨d, hd, hgap⟩
  cases hd
  exact hc hgap

theorem startsInGap_reverse (text : Text) : StartsInGap text.reverse ↔ EndsInGap text := by
  unfold StartsInGap EndsInGap
  rw [List.head?_reverse]

/-!
# Respaced texts
-/

namespace Respaced

variable {a b : Text}

/-- The piece in front of the first gap is the same, and of the others at least those
that are not empty. -/
theorem exists_splitOnP (h : Respaced a b) :
    ∃ piece old new, a.splitOnP (fun c => IsGap c) = piece :: old ∧
      b.splitOnP (fun c => IsGap c) = piece :: new ∧
      old.filter (fun token => !token.isEmpty) = new.filter (fun token => !token.isEmpty) := by
  induction h with
  | nil => exact ⟨[], [], [], rfl, rfl, rfl⟩
  | @visible c a b hc _ ih =>
      rcases ih with ⟨piece, old, new, hold, hnew, hfilter⟩
      have hsep : decide (IsGap c) = false := decide_eq_false hc
      exact ⟨c :: piece, old, new, splitOnP_cons_of_not_sep hsep hold,
        splitOnP_cons_of_not_sep hsep hnew, hfilter⟩
  | @gap m n a b hm hn hmgap hngap _ ih =>
      rcases ih with ⟨piece, old, new, hold, hnew, hfilter⟩
      rcases exists_splitOnP_gap_append hm hmgap a with ⟨pieces, hpieces, htokens⟩
      rcases exists_splitOnP_gap_append hn hngap b with ⟨pieces', hpieces', htokens'⟩
      refine ⟨[], pieces, pieces', hpieces, hpieces', ?_⟩
      rw [htokens, htokens', tokens, tokens, hold, hnew, List.filter_cons, List.filter_cons,
        hfilter]

theorem tokens_eq (h : Respaced a b) : tokens b = tokens a := by
  rcases h.exists_splitOnP with ⟨piece, old, new, hold, hnew, hfilter⟩
  unfold tokens
  rw [hold, hnew, List.filter_cons, List.filter_cons, hfilter]

theorem startsInGap_iff (h : Respaced a b) : StartsInGap b ↔ StartsInGap a := by
  cases h with
  | nil => exact Iff.rfl
  | visible hc _ => exact iff_of_false (not_startsInGap_cons hc _) (not_startsInGap_cons hc _)
  | gap hm hn hmgap hngap _ =>
      exact iff_of_true (startsInGap_gap_append hn hngap _) (startsInGap_gap_append hm hmgap _)

theorem sameTokens (h : Respaced a b) : SameTokens a b where
  tokens := h.tokens_eq
  first := h.startsInGap_iff
  last := by
    rw [← startsInGap_reverse, ← startsInGap_reverse]
    exact h.reverse.startsInGap_iff

end Respaced

theorem forall₂_sameTokens_trans {first second third : List Text}
    (h : List.Forall₂ Respaced first second) (h' : List.Forall₂ Respaced second third) :
    List.Forall₂ SameTokens first third := by
  induction h generalizing third with
  | nil =>
      cases h'
      exact List.Forall₂.nil
  | cons hline _ ih =>
      cases h' with
      | cons hline' hrest =>
          exact List.Forall₂.cons (hline.sameTokens.trans hline'.sameTokens) (ih hrest)

end Text

namespace Config

/-!
# The stages of a pass
-/

theorem forall₂_respaced_tidyTabs {config : Config} (h : 0 < config.indentWidth)
    (lines : List Text) : List.Forall₂ Text.Respaced lines (config.tidyTabs lines).1 := by
  unfold tidyTabs
  split
  · exact DocBlock.forall₂_respaced_expand h lines
  · exact List.forall₂_same.mpr fun line _ => Text.Respaced.refl line

theorem forall₂_respaced_tidyIndent {config : Config} (h : 0 < config.indentWidth)
    (lines : List Text) : List.Forall₂ Text.Respaced lines (config.tidyIndent lines).1 := by
  unfold tidyIndent
  split
  · exact DocBlock.forall₂_respaced_changeUnit (Indent.infer lines) h lines
  · exact List.forall₂_same.mpr fun line _ => Text.Respaced.refl line

/-- With an accepted configuration that leaves the documentation block alone a pass
succeeds, and it keeps the number of lines and the tokens of every line.  If it
replaces tabs then none is left. -/
theorem tidy_keeps_tokens {config : Config} (hvalid : config.defect? = none)
    (hdocu : config.fixDocu = false) (lines : List Text) :
    (∃ record, (config.tidy lines).result = .ok record) ∧
      (config.tidy lines).lines.length = lines.length ∧
      List.Forall₂ Text.SameTokens lines (config.tidy lines).lines ∧
      (config.replaceTabs = true → ∀ line ∈ (config.tidy lines).lines, '\t' ∉ line) := by
  have hpos := pos_of_defect? hvalid
  have hlines : (config.tidy lines).lines = config.indented lines := by
    rw [lines_tidy, tidyDocu_of_off hdocu]
  have htokens : List.Forall₂ Text.SameTokens lines (config.indented lines) :=
    Text.forall₂_sameTokens_trans (forall₂_respaced_tidyTabs hpos lines)
      (forall₂_respaced_tidyIndent hpos _)
  refine ⟨?_, ?_, ?_, ?_⟩
  · change ∃ record, (config.tidyDocu (config.indented lines)).result.map _ = .ok record
    rw [tidyDocu_of_off hdocu]
    exact ⟨_, rfl⟩
  · rw [hlines]
    exact htokens.length_eq.symm
  · rw [hlines]
    exact htokens
  · rw [hlines]
    exact (config.expanded_tidyTabs lines).tidyIndent

def whitespaceOnly : Config := { standard with fixDocu := false }

def alignedCode : List Text :=
  ["if (x)\t".toList, "    int\ty     = 1;".toList, "\t \tg();".toList]

theorem tidy_keeps_tokens_alignedCode :
    (whitespaceOnly.tidy alignedCode).lines =
        ["if (x)  ".toList, "  int  y   = 1;".toList, "   g();".toList] ∧
      List.Forall₂ Text.SameTokens alignedCode (whitespaceOnly.tidy alignedCode).lines := by
  have hvalid : whitespaceOnly.defect? = none := by decide +kernel
  exact ⟨by decide +kernel, (tidy_keeps_tokens hvalid rfl alignedCode).2.2.1⟩

end Config
end SourceTidy
