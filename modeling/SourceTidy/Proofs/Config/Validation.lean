import SourceTidy.Config.Basic
import SourceTidy.Proofs.Text.Dictionary

/-!
# Accepted configurations

A configuration is free of defects exactly if its width lies within the limits, it
has canonical keys, and every alias stands for one of them.
-/

namespace SourceTidy
namespace Config

theorem defect?_eq_none_iff (config : Config) :
    config.defect? = none ↔
      0 < config.indentWidth ∧ config.indentWidth ≤ widthLimit ∧ config.canonicalKeys ≠ [] ∧
        config.keyTable.dangling = [] := by
  unfold defect?
  split
  · next hzero =>
      refine iff_of_false (by simp) ?_
      intro h
      exact absurd hzero (Nat.pos_iff_ne_zero.mp h.1)
  · next hpos =>
      split
      · next hwide =>
          refine iff_of_false (by simp) ?_
          intro h
          exact absurd hwide (Nat.not_lt.mpr h.2.1)
      · next hwidth =>
          split
          · next hempty =>
              refine iff_of_false (by simp) ?_
              intro h
              exact h.2.2.1 (List.isEmpty_iff.mp hempty)
          · next hkeys =>
              have hlimits : 0 < config.indentWidth ∧ config.indentWidth ≤ widthLimit :=
                ⟨Nat.pos_of_ne_zero hpos, Nat.not_lt.mp hwidth⟩
              have hnonempty : config.canonicalKeys ≠ [] := by
                rwa [List.isEmpty_iff] at hkeys
              cases hdangling : config.keyTable.dangling with
              | nil => exact iff_of_true rfl ⟨hlimits.1, hlimits.2, hnonempty, rfl⟩
              | cons entry others =>
                  refine iff_of_false (by simp) ?_
                  intro h
                  cases h.2.2.2

theorem pos_of_defect? {config : Config} (h : config.defect? = none) : 0 < config.indentWidth :=
  ((defect?_eq_none_iff config).mp h).1

theorem dangling_of_defect? {config : Config} (h : config.defect? = none) :
    config.keyTable.dangling = [] :=
  ((defect?_eq_none_iff config).mp h).2.2.2

structure Accepted (config : Config) : Prop where
  least : 1 ≤ config.indentWidth
  most : config.indentWidth ≤ 16
  keys : config.canonicalKeys ≠ []
  targets : ∀ spelling target, config.keyAliases.get? spelling = some target →
    target ∈ config.canonicalKeys

theorem dangling_eq_nil_iff {config : Config} (h : config.keyAliases.Ordered) :
    config.keyTable.dangling = [] ↔
      ∀ spelling target, config.keyAliases.get? spelling = some target →
        target ∈ config.canonicalKeys := by
  unfold DocBlock.KeyTable.dangling DocBlock.KeyTable.isCanonical
  rw [List.filter_eq_nil_iff]
  constructor
  · intro hnone spelling target hget
    have hcanonical : ¬ (!config.canonicalKeys.contains target) = true :=
      hnone (spelling, target) (Dictionary.mem_of_get? hget)
    simpa using hcanonical
  · intro htargets entry hentry
    have hcanonical := htargets entry.1 entry.2 (Dictionary.get?_of_mem h hentry)
    change ¬ (!config.canonicalKeys.contains entry.2) = true
    simpa using hcanonical

theorem accepted_iff {config : Config} (h : config.keyAliases.Ordered) :
    config.defect? = none ↔ config.Accepted := by
  rw [defect?_eq_none_iff, dangling_eq_nil_iff h]
  constructor
  · intro hall
    exact ⟨hall.1, hall.2.1, hall.2.2.1, hall.2.2.2⟩
  · intro haccepted
    exact ⟨haccepted.least, haccepted.most, haccepted.keys, haccepted.targets⟩

end Config
end SourceTidy
