import Mathlib.Data.List.Forall2
import SourceTidy.Proofs.Tidy.SecondPass

/-!
# What a record says

A later stage can take back what an earlier one did to a line, so it is not plain
that a file with changes on record is another file.  It is: the run of spaces that
an estimate comes from is never restored, since a documentation line is not indented,
and no tab comes back.
-/

namespace SourceTidy

/-!
# Records of the three stages
-/

/-- The record of a pass, given which of its stages changed something. -/
def Record.ofStages (tabs indent docu : Bool) : Record :=
  ((Record.empty.addIf tabs .tabs).addIf indent .indent).addIf docu .docu

namespace Record

theorem changes_ofStages (tabs indent docu : Bool) :
    (ofStages tabs indent docu).changes =
      (if tabs then [.tabs] else []) ++ (if indent then [.indent] else []) ++
        (if docu then [.docu] else []) := by
  cases tabs <;> cases indent <;> cases docu <;> rfl

theorem sublist_changes_ofStages (tabs indent docu : Bool) :
    (ofStages tabs indent docu).changes.Sublist [.tabs, .indent, .docu] := by
  rw [changes_ofStages]
  cases tabs <;> cases indent <;> cases docu <;> decide

theorem isDirty_ofStages (tabs indent docu : Bool) :
    (ofStages tabs indent docu).isDirty = (tabs || indent || docu) := by
  cases tabs <;> cases indent <;> cases docu <;> rfl

theorem contains_tabs_ofStages (tabs indent docu : Bool) :
    (ofStages tabs indent docu).contains .tabs = tabs := by
  cases tabs <;> cases indent <;> cases docu <;> rfl

theorem contains_indent_ofStages (tabs indent docu : Bool) :
    (ofStages tabs indent docu).contains .indent = indent := by
  cases tabs <;> cases indent <;> cases docu <;> rfl

end Record

/-!
# Lines of a normalized block

Each line stays, becomes a banner or takes its canonical form, and in the last two
cases it has no space in front.
-/

namespace DocBlock

/-- What normalizing may put in the place of a line. -/
def Replaced (keys : KeyTable) (old new : Text) : Prop :=
  new = old ∨ new = openingBanner ∨ new = closingBanner ∨ canonicalLine keys old = .ok new

theorem forall₂_replaced_self (keys : KeyTable) (lines : List Text) :
    List.Forall₂ (Replaced keys) lines lines :=
  List.forall₂_same.mpr fun _ _ => Or.inl rfl

theorem forall₂_normalizeInterior (keys : KeyTable) (changed : Bool) (left : Nat)
    (lines : List Text) :
    List.Forall₂ (Replaced keys) lines (normalizeInterior keys changed left lines).lines := by
  fun_induction normalizeInterior keys changed left lines with
  | case1 | case2 | case4 => exact forall₂_replaced_self keys _
  | case3 _ _ _ _ _ ih | case5 _ _ _ _ _ _ _ _ ih => exact List.Forall₂.cons (Or.inl rfl) ih
  | case6 _ _ _ _ _ hcanonical _ _ ih =>
      exact List.Forall₂.cons (Or.inr (Or.inr (Or.inr hcanonical))) ih

theorem forall₂_normalize (keys : KeyTable) (lines : List Text) :
    List.Forall₂ (Replaced keys) lines (normalize keys lines).lines := by
  cases hspan : locate? lines with
  | none =>
      rw [normalize, hspan]
      exact forall₂_replaced_self keys lines
  | some span =>
      rcases exists_block_of_locateFrom hspan with ⟨block, rfl⟩
      have hopening : Replaced keys block.opening openingBanner := Or.inr (Or.inl rfl)
      have hclosing : Replaced keys block.closing closingBanner := Or.inr (Or.inr (Or.inl rfl))
      have hinterior :=
        forall₂_normalizeInterior keys block.edgesChanged probeLength block.interior
      rw [normalize_lines, Block.lines]
      apply List.rel_append (forall₂_replaced_self keys block.before)
      apply List.Forall₂.cons hopening
      apply List.rel_append hinterior
      exact List.Forall₂.cons hclosing (forall₂_replaced_self keys block.after)

theorem exists_star_of_canonicalLine {keys : KeyTable} {line out : Text}
    (h : canonicalLine keys line = .ok out) : ∃ rest, out = '*' :: rest := by
  rcases canonicalLine_cases h with
    ⟨_, rfl⟩ | ⟨text, _, rfl⟩ | ⟨key, value, target, written, _, _, _, rfl⟩
  · exact ⟨[], rfl⟩
  · exact ⟨' ' :: ' ' :: ' ' :: text, rfl⟩
  · exact ⟨_, entryLine_eq target written⟩

theorem Replaced.flush {keys : KeyTable} {old new : Text} (h : Replaced keys old new) :
    new = old ∨ Indent.leadingSpaces new = 0 := by
  rcases h with hsame | rfl | rfl | hcanonical
  · exact Or.inl hsame
  · exact Or.inr rfl
  · exact Or.inr rfl
  · rcases exists_star_of_canonicalLine hcanonical with ⟨rest, rfl⟩
    exact Or.inr (Indent.leadingSpaces_other (by decide) rest)

/-!
# A block that is reported as changed
-/

theorem normalizeInterior_reports {keys : KeyTable} {changed : Bool} {left : Nat}
    {lines : List Text} (h : (normalizeInterior keys changed left lines).result = .ok true) :
    changed = true ∨ (normalizeInterior keys changed left lines).lines ≠ lines := by
  have htail : ∀ {line : Text} {edited rest : List Text},
      edited ≠ rest → line :: edited ≠ line :: rest := by
    intro line edited rest hne heq
    exact hne (List.cons.inj heq).2
  fun_induction normalizeInterior keys changed left lines with
  | case1 =>
      cases h
      exact Or.inl rfl
  | case2 => cases h
  | case3 => exact Or.inl rfl
  | case4 => cases h
  | case5 _ _ _ _ hchanged _ _ _ ih =>
      rcases ih h with hfalse | hne
      · cases hfalse
      · exact Or.inr (htail hne)
  | case6 _ _ _ _ _ _ hne _ _ =>
      refine Or.inr ?_
      intro heq
      exact hne (List.cons.inj heq).1

theorem Block.lines_normalized_of_reported {keys : KeyTable} {block : Block}
    (h : (normalizeInterior keys block.edgesChanged probeLength block.interior).result =
      .ok true) : (block.normalized keys).lines ≠ block.lines := by
  intro heq
  have hrest := List.append_cancel_left heq
  have hopening : openingBanner = block.opening := (List.cons.inj hrest).1
  have hlength : (block.normalized keys).interior.length = block.interior.length :=
    length_normalizeInterior keys block.edgesChanged probeLength block.interior
  have hparts := List.append_inj (List.cons.inj hrest).2 hlength
  have hclosing : closingBanner = block.closing := (List.cons.inj hparts.2).1
  have hedges := block.edgesChanged_eq_false_iff.mpr ⟨hopening.symm, hclosing.symm⟩
  rcases normalizeInterior_reports h with hchanged | hne
  · rw [hedges] at hchanged
    cases hchanged
  · exact hne hparts.1

theorem normalize_reports {keys : KeyTable} {lines : List Text} {changed : Bool}
    (h : (normalize keys lines).result = .ok changed) :
    changed = true ↔ (normalize keys lines).lines ≠ lines := by
  cases hspan : locate? lines with
  | none =>
      rw [normalize, hspan] at h
      cases h
  | some span =>
      rcases exists_block_of_locateFrom hspan with ⟨block, rfl⟩
      rw [normalize_eq] at h ⊢
      cases changed with
      | true =>
          constructor
          · intro _
            exact Block.lines_normalized_of_reported h
          · intro _
            rfl
      | false =>
          constructor
          · intro hfalse
            cases hfalse
          · intro hne
            exact absurd (Block.lines_normalized_of_unchanged h) hne

end DocBlock

namespace Config

/-!
# The flags of the stages
-/

theorem tidyTabs_flag (config : Config) (lines : List Text) :
    (config.tidyTabs lines).2 = true ↔
      config.replaceTabs = true ∧ ∃ line ∈ lines, '\t' ∈ line := by
  rw [tidyTabs]
  split
  · next hon =>
      rw [Tabs.expand, List.any_eq_true]
      simp only [hon, true_and, List.contains_iff_mem]
  · next hoff => simp [hoff]

theorem tidyIndent_flag (config : Config) (lines : List Text) :
    (config.tidyIndent lines).2 = true ↔ config.CallsForChange lines := by
  by_cases h : config.CallsForChange lines
  · rw [tidyIndent_of_callsForChange h]
    exact iff_of_true rfl h
  · rw [tidyIndent_of_not_callsForChange h]
    exact iff_of_false Bool.false_ne_true h

theorem tidyDocu_reports {config : Config} {lines : List Text} {changed : Bool}
    (h : (config.tidyDocu lines).result = .ok changed) :
    changed = true ↔ (config.tidyDocu lines).lines ≠ lines := by
  rw [tidyDocu] at h ⊢
  split at h
  · next hon =>
      rw [if_pos hon]
      exact DocBlock.normalize_reports h
  · next hoff =>
      cases h
      rw [if_neg hoff]
      simp

theorem tidyTabs_of_flag {config : Config} {lines : List Text}
    (h : (config.tidyTabs lines).2 = false) : config.tidyTabs lines = (lines, false) := by
  apply tidyTabs_of_expanded
  intro hon line hline htab
  have hflag := (tidyTabs_flag config lines).mpr ⟨hon, line, hline, htab⟩
  rw [h] at hflag
  cases hflag

/-!
# Changes that stay
-/

theorem lines_tidy_ne_of_tabs {config : Config} (hkeys : config.keyTable.TabFree)
    {lines : List Text} (h : (config.tidyTabs lines).2 = true) :
    (config.tidy lines).lines ≠ lines := by
  rcases (tidyTabs_flag config lines).mp h with ⟨hon, line, hline, htab⟩
  intro heq
  have hexpanded := expanded_tidy hkeys lines hon line
  rw [heq] at hexpanded
  exact hexpanded hline htab

theorem forall₂_tidyDocu (config : Config) (lines : List Text) :
    List.Forall₂ (fun old new => new = old ∨ Indent.leadingSpaces new = 0) lines
      (config.tidyDocu lines).lines := by
  rw [tidyDocu]
  split
  · apply (DocBlock.forall₂_normalize config.keyTable lines).imp
    intro old new hreplaced
    exact hreplaced.flush
  · exact List.forall₂_same.mpr fun line _ => Or.inl rfl

/-- A line whose run of spaces is the estimated unit does not have this run after
the unit was changed and the block normalized. -/
theorem lines_tidyDocu_ne_of_callsForChange {config : Config} {lines : List Text}
    (h : config.CallsForChange lines) :
    (config.tidyDocu (config.tidyIndent lines).1).lines ≠ lines := by
  intro heq
  have hlines := config.forall₂_tidyDocu (config.tidyIndent lines).1
  rw [heq, tidyIndent_of_callsForChange h, List.forall₂_map_left_iff, List.forall₂_same] at hlines
  rcases Indent.infer_cases lines with hzero | ⟨hlong, _, _, line, hline, hrun⟩
  · have hcalled := h.2
    rw [hzero] at hcalled
    cases hcalled
  · have hpos : 0 < Indent.infer lines := Nat.lt_of_lt_of_le (by decide) hlong
    rcases hlines line hline with hsame | hflush
    · have hchanged := Indent.leadingSpaces_changeLine config.indentWidth hpos line
      rw [← hsame, hrun, Indent.changedRun_self config.indentWidth hpos] at hchanged
      have hcalled := h.2
      rw [hchanged] at hcalled
      simp [Indent.shouldChange] at hcalled
    · rw [hrun] at hflush
      exact absurd hflush (Nat.pos_iff_ne_zero.mp hpos)

/-!
# The record of a pass
-/

theorem record_of_tidy {config : Config} {lines : List Text} {record : Record}
    (h : (config.tidy lines).result = .ok record) :
    ∃ docu, (config.tidyDocu (config.indented lines)).result = .ok docu ∧
      record = Record.ofStages (config.tidyTabs lines).2
        (config.tidyIndent (config.tidyTabs lines).1).2 docu := by
  rcases tidyDocu_of_tidy h with ⟨docu, hdocu⟩
  have hresult : (config.tidy lines).result =
      (config.tidyDocu (config.indented lines)).result.map
        (Record.ofStages (config.tidyTabs lines).2
          (config.tidyIndent (config.tidyTabs lines).1).2) := rfl
  rw [hresult, hdocu] at h
  cases h
  exact ⟨docu, hdocu, rfl⟩

theorem isDirty_iff_lines_ne {config : Config} (hkeys : config.keyTable.TabFree)
    {lines : List Text} {docu : Bool}
    (h : (config.tidyDocu (config.indented lines)).result = .ok docu) :
    ((config.tidyTabs lines).2 || (config.tidyIndent (config.tidyTabs lines).1).2 || docu) =
      true ↔ (config.tidy lines).lines ≠ lines := by
  cases htabs : (config.tidyTabs lines).2 with
  | true => exact iff_of_true rfl (lines_tidy_ne_of_tabs hkeys htabs)
  | false =>
      -- The stage of tabs leaves the lines as they are.
      have hidle := tidyTabs_of_flag htabs
      rw [indented, hidle] at h
      rw [lines_tidy, indented, hidle, Bool.false_or]
      by_cases hcalls : config.CallsForChange lines
      · have hflag := (tidyIndent_flag config lines).mpr hcalls
        rw [hflag, Bool.true_or]
        exact iff_of_true rfl (lines_tidyDocu_ne_of_callsForChange hcalls)
      · rw [tidyIndent_of_not_callsForChange hcalls] at h ⊢
        exact tidyDocu_reports h

/-- A pass that succeeds has changes on record exactly if it left other lines.  They
stand in the order of the stages, each at most once, that of tabs exactly if there
was one to replace and that of the unit exactly if the estimate called for it. -/
theorem record_exact {config : Config} (hkeys : config.keyTable.TabFree) (lines : List Text)
    {record : Record} (h : (config.tidy lines).result = .ok record) :
    (record.isDirty = true ↔ (config.tidy lines).lines ≠ lines) ∧
      record.changes.Sublist [.tabs, .indent, .docu] ∧ record.changes.Nodup ∧
      (record.contains .tabs = true ↔
        config.replaceTabs = true ∧ ∃ line ∈ lines, '\t' ∈ line) ∧
      (record.contains .indent = true ↔
        config.fixIndent = true ∧
          Indent.shouldChange (Indent.infer (config.tidyTabs lines).1) config.indentWidth =
            true) := by
  rcases record_of_tidy h with ⟨docu, hdocu, rfl⟩
  have hsublist := Record.sublist_changes_ofStages (config.tidyTabs lines).2
    (config.tidyIndent (config.tidyTabs lines).1).2 docu
  rw [Record.isDirty_ofStages, Record.contains_tabs_ofStages, Record.contains_indent_ofStages]
  refine ⟨?_, hsublist, ?_, ?_, ?_⟩
  · exact isDirty_iff_lines_ne hkeys hdocu
  · exact hsublist.nodup (by decide)
  · exact tidyTabs_flag config lines
  · exact tidyIndent_flag config (config.tidyTabs lines).1

def wide : Config := { standard with indentWidth := 4 }

def indentedEntry : List Text :=
  ["/*".toList, "  Title:  x".toList, " */".toList, "  int y;".toList]

theorem record_exact_indentedEntry :
    (wide.tidy indentedEntry).result = .ok ⟨[.indent, .docu]⟩ ∧
      (wide.tidy indentedEntry).lines ≠ indentedEntry ∧
      Indent.shouldChange (Indent.infer (wide.tidyTabs indentedEntry).1) 4 = true := by
  have h : (wide.tidy indentedEntry).result = .ok ⟨[.indent, .docu]⟩ := by decide +kernel
  have hkeys : wide.keyTable.TabFree := DocBlock.plain_standard.tabFree
  rcases record_exact hkeys indentedEntry h with ⟨hdirty, _, _, _, hindent⟩
  exact ⟨h, hdirty.mp rfl, (hindent.mp rfl).2⟩

end Config
end SourceTidy
