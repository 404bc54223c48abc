import Mathlib.Data.List.Sort
import SourceTidy.Proofs.Text.Dictionary
import SourceTidy.Run.Summary

/-!
# What a summary says

The totals of a run are taken report by report.  What they say about all reports
together does not mention the order of the reports, and it leaves no choice for the
totals, so the same reports in another order have the same summary.
-/

namespace SourceTidy

theorem Report.isDirty_iff (report : Report) :
    report.isDirty = true ↔ report.record ≠ Record.empty := by
  rcases report with ⟨path, display, ⟨changes⟩, persisted⟩
  simp [Report.isDirty, Record.isDirty, Record.empty]

namespace Summary

/-- The totals are those of the given reports: the number of all and of those with
changes, and the extensions that occur among the latter, in order and each of them
once. -/
structure Summarizes (summary : Summary) (reports : List Report) : Prop where
  seen : summary.seen = reports.length
  modified : summary.modified = reports.countP fun report => report.record ≠ Record.empty
  increasing : summary.extensions.Pairwise (· < ·)
  mem_extensions : ∀ extension, extension ∈ summary.extensions ↔
    ∃ report ∈ reports, report.record ≠ Record.empty ∧ report.extension? = some extension

/-!
# Report by report
-/

variable {summary : Summary} {reports : List Report} {report : Report}

theorem summarizes_nil : empty.Summarizes [] where
  seen := rfl
  modified := rfl
  increasing := List.Pairwise.nil
  mem_extensions := by
    intro extension
    simp [empty]

theorem add_of_clean (h : report.record = Record.empty) :
    summary.add report = { summary with seen := summary.seen + 1 } := by
  have hclean : ¬ report.isDirty = true := by
    rw [Report.isDirty_iff]
    exact not_not_intro h
  rw [add, if_neg hclean]

theorem add_of_dirty (h : report.record ≠ Record.empty) :
    summary.add report =
      { seen := summary.seen + 1
        modified := summary.modified + 1
        extensions :=
          match report.extension? with
          | some extension => Text.insertSorted extension summary.extensions
          | none => summary.extensions } := by
  rw [add]
  exact if_pos (report.isDirty_iff.mpr h)

theorem mem_extensions_add (h : report.record ≠ Record.empty) (extension : Text) :
    extension ∈ (summary.add report).extensions ↔
      extension ∈ summary.extensions ∨ report.extension? = some extension := by
  rw [add_of_dirty h]
  cases report.extension? with
  | none => simp
  | some found =>
      simp only [Text.mem_insertSorted, Option.some.injEq]
      rw [or_comm, eq_comm]

theorem increasing_add (h : summary.extensions.Pairwise (· < ·)) (report : Report) :
    (summary.add report).extensions.Pairwise (· < ·) := by
  by_cases hrecord : report.record = Record.empty
  · rw [add_of_clean hrecord]
    exact h
  · rw [add_of_dirty hrecord]
    cases report.extension? with
    | none => exact h
    | some extension => exact Text.pairwise_insertSorted h extension

theorem Summarizes.add (h : summary.Summarizes reports) (report : Report) :
    (summary.add report).Summarizes (reports ++ [report]) := by
  by_cases hrecord : report.record = Record.empty
  · rw [add_of_clean hrecord]
    refine ⟨?_, ?_, h.increasing, ?_⟩
    · simp [h.seen]
    · simp [h.modified, hrecord]
    · intro extension
      simp [h.mem_extensions, hrecord, or_and_right, exists_or]
  · refine ⟨?_, ?_, increasing_add h.increasing report, ?_⟩
    · simp [add_of_dirty hrecord, h.seen]
    · simp [add_of_dirty hrecord, h.modified, hrecord]
    · intro extension
      rw [mem_extensions_add hrecord, h.mem_extensions]
      simp [hrecord, or_and_right, exists_or]

theorem Summarizes.foldl (h : summary.Summarizes reports) (others : List Report) :
    (others.foldl Summary.add summary).Summarizes (reports ++ others) := by
  induction others generalizing summary reports with
  | nil =>
      rw [List.append_nil]
      exact h
  | cons report others ih =>
      rw [List.append_cons]
      exact ih (h.add report)

theorem summarizes_foldl (reports : List Report) :
    (reports.foldl Summary.add empty).Summarizes reports :=
  summarizes_nil.foldl reports

/-!
# All reports together
-/

theorem Summarizes.modified_le_seen (h : summary.Summarizes reports) :
    summary.modified ≤ summary.seen := by
  rw [h.modified, h.seen]
  exact List.countP_le_length

theorem Summarizes.eq_of_perm {other : Summary} {others : List Report}
    (h : summary.Summarizes reports) (hother : other.Summarizes others)
    (hperm : reports.Perm others) : summary = other := by
  have hseen : summary.seen = other.seen := by
    rw [h.seen, hother.seen, hperm.length_eq]
  have hmodified : summary.modified = other.modified := by
    rw [h.modified, hother.modified, hperm.countP_eq]
  have hextensions : summary.extensions = other.extensions := by
    apply h.increasing.eq_of_mem_iff hother.increasing
    intro extension
    rw [h.mem_extensions, hother.mem_extensions]
    simp only [hperm.mem_iff]
  rcases summary with ⟨seen, modified, extensions⟩
  cases hseen
  cases hmodified
  cases hextensions
  rfl

/-- The totals of a run are those of its reports, in whatever order they come. -/
theorem foldl_add_summarizes (reports : List Report) :
    (reports.foldl add empty).Summarizes reports ∧
      (reports.foldl add empty).modified ≤ (reports.foldl add empty).seen ∧
      ∀ others : List Report, reports.Perm others →
        others.foldl add empty = reports.foldl add empty ∧
          (others.foldl add empty).text = (reports.foldl add empty).text := by
  have hreports := summarizes_foldl reports
  refine ⟨hreports, hreports.modified_le_seen, ?_⟩
  intro others hperm
  have hsame := hreports.eq_of_perm (summarizes_foldl others) hperm
  rw [hsame]
  exact ⟨rfl, rfl⟩

/-- Reports of files with two extensions, without one, and of a file that was left as
it is. -/
def fiveReports : List Report :=
  [⟨Path.of "b.cs", "b.cs".toList, ⟨[.tabs]⟩, true⟩,
   ⟨Path.of "tool.py", "tool.py".toList, .empty, false⟩,
   ⟨Path.of "lib/a.cpp", "lib/a.cpp".toList, ⟨[.docu]⟩, true⟩,
   ⟨Path.of "c.cs", "c.cs".toList, ⟨[.tabs, .indent]⟩, true⟩,
   ⟨Path.of "Makefile", "Makefile".toList, ⟨[.tabs]⟩, true⟩]

theorem foldl_add_summarizes_backwards :
    fiveReports.Perm fiveReports.reverse ∧ fiveReports.reverse ≠ fiveReports ∧
      fiveReports.reverse.foldl add empty = ⟨5, 4, ["cpp".toList, "cs".toList]⟩ ∧
      (fiveReports.reverse.foldl add empty).text =
        "4 files modified (5 checked); extensions: cpp, cs".toList := by
  have hperm : fiveReports.Perm fiveReports.reverse := (List.reverse_perm _).symm
  rcases (foldl_add_summarizes fiveReports).2.2 fiveReports.reverse hperm with ⟨hsame, htext⟩
  refine ⟨hperm, by decide, ?_, ?_⟩
  · rw [hsame]
    decide
  · rw [htext]
    decide

end Summary
end SourceTidy
