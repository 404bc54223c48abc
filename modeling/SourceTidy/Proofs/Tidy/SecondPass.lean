import SourceTidy.Proofs.DocBlock.Estimate
import SourceTidy.Tidy

/-!
# A second pass

After a pass no tab is left and the documentation block is canonical, so a second
pass is idle in these two stages.  In the remaining stage it goes by a new estimate
of the unit.  The pass changes nothing exactly if that estimate calls for no change.
-/

namespace SourceTidy
namespace Config

/-!
# Tabs
-/

def Expanded (config : Config) (lines : List Text) : Prop :=
  config.replaceTabs = true → ∀ line ∈ lines, '\t' ∉ line

theorem tab_not_mem_expandLine (width : Nat) (line : Text) :
    '\t' ∉ Tabs.expandLine width line := by
  intro hmem
  rcases List.mem_flatMap.mp hmem with ⟨c, _, hc⟩
  split at hc
  · exact absurd (List.eq_of_mem_replicate hc) (by decide)
  · next hne => exact hne (List.mem_singleton.mp hc).symm

theorem expandLine_eq_self {line : Text} (h : '\t' ∉ line) (width : Nat) :
    Tabs.expandLine width line = line := by
  induction line with
  | nil => rfl
  | cons c rest ih =>
      have hc : c ≠ '\t' := fun heq => h (heq ▸ List.mem_cons_self)
      have hrest := ih fun hmem => h (List.mem_cons_of_mem c hmem)
      rw [Tabs.expandLine, List.flatMap_cons, if_neg hc, List.singleton_append]
      exact congrArg (List.cons c) hrest

theorem tidyTabs_of_expanded {config : Config} {lines : List Text}
    (h : config.Expanded lines) : config.tidyTabs lines = (lines, false) := by
  rw [tidyTabs]
  split
  · next hon =>
      have hlines : lines.map (Tabs.expandLine config.indentWidth) = lines.map id := by
        apply List.map_congr_left
        intro line hline
        exact expandLine_eq_self (h hon line hline) config.indentWidth
      have hflag : lines.any (·.contains '\t') = false := by
        apply List.any_eq_false.mpr
        intro line hline
        simpa using h hon line hline
      rw [Tabs.expand, hlines, List.map_id, hflag]
  · rfl

theorem expanded_tidyTabs (config : Config) (lines : List Text) :
    config.Expanded (config.tidyTabs lines).1 := by
  intro hon line hline
  rw [tidyTabs, if_pos hon] at hline
  rcases List.mem_map.mp hline with ⟨old, _, rfl⟩
  exact tab_not_mem_expandLine _ old

theorem Expanded.tidyIndent {config : Config} {lines : List Text} (h : config.Expanded lines) :
    config.Expanded (config.tidyIndent lines).1 := by
  intro hon line hline
  rw [Config.tidyIndent] at hline
  split at hline
  · rw [Indent.changeUnit] at hline
    split at hline
    · next hcalled =>
        have hpos := Indent.pos_of_shouldChange hcalled
        rcases List.mem_map.mp hline with ⟨old, hold, rfl⟩
        intro htab
        rcases Indent.mem_changeLine config.indentWidth hpos htab with hspace | hmem
        · cases hspace
        · exact h hon old hold hmem
    · exact h hon line hline
  · exact h hon line hline

theorem Expanded.tidyDocu {config : Config} (hkeys : config.keyTable.TabFree) {lines : List Text}
    (h : config.Expanded lines) : config.Expanded (config.tidyDocu lines).lines := by
  intro hon line hline
  rw [Config.tidyDocu] at hline
  split at hline
  · rcases DocBlock.mem_normalize hline with hmem | hbanner | ⟨old, hold, hcanonical⟩
    · exact h hon line hmem
    · exact DocBlock.tab_not_mem_banner hbanner
    · exact DocBlock.passesOn_no_tab.canonicalLine hkeys hcanonical (h hon old hold)
  · exact h hon line hline

/-!
# The three stages of the first pass
-/

/-- The lines that the documentation stage is given. -/
def indented (config : Config) (lines : List Text) : List Text :=
  (config.tidyIndent (config.tidyTabs lines).1).1

theorem lines_tidy (config : Config) (lines : List Text) :
    (config.tidy lines).lines = (config.tidyDocu (config.indented lines)).lines :=
  rfl

theorem tidyDocu_of_tidy {config : Config} {lines : List Text} {record : Record}
    (h : (config.tidy lines).result = .ok record) :
    ∃ changed, (config.tidyDocu (config.indented lines)).result = .ok changed := by
  have hmap : (config.tidy lines).result =
      (config.tidyDocu (config.indented lines)).result.map _ := rfl
  rw [hmap] at h
  cases hresult : (config.tidyDocu (config.indented lines)).result with
  | error fault =>
      rw [hresult] at h
      cases h
  | ok changed => exact ⟨changed, rfl⟩

theorem expanded_tidy {config : Config} (hkeys : config.keyTable.TabFree) (lines : List Text) :
    config.Expanded (config.tidy lines).lines :=
  (config.expanded_tidyTabs lines).tidyIndent.tidyDocu hkeys

theorem tidyDocu_of_off {config : Config} (h : config.fixDocu = false) (lines : List Text) :
    config.tidyDocu lines = { lines := lines, result := .ok false } := by
  unfold tidyDocu
  rw [h]
  rfl

/-- The estimated unit of the lines calls for a change. -/
def CallsForChange (config : Config) (lines : List Text) : Prop :=
  config.fixIndent = true ∧ Indent.shouldChange (Indent.infer lines) config.indentWidth = true

theorem tidyIndent_of_not_callsForChange {config : Config} {lines : List Text}
    (h : ¬ config.CallsForChange lines) : config.tidyIndent lines = (lines, false) := by
  rw [tidyIndent]
  split
  · next hon =>
      rw [Indent.changeUnit, if_neg]
      intro hcalled
      exact h ⟨hon, hcalled⟩
  · rfl

theorem tidyIndent_of_callsForChange {config : Config} {lines : List Text}
    (h : config.CallsForChange lines) :
    config.tidyIndent lines =
      (lines.map (Indent.changeLine (Indent.infer lines) config.indentWidth), true) := by
  have hflag := Indent.changeUnit_changes h.2
  rw [Indent.changeUnit, if_pos h.2] at hflag
  rw [tidyIndent, if_pos h.1, Indent.changeUnit, if_pos h.2]
  exact congrArg (Prod.mk _) hflag

end Config
end SourceTidy
