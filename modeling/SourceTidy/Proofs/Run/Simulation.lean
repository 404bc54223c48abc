import SourceTidy.Proofs.Run.Refinement

/-!
# Simulated and real runs

A real run writes files while later ones are still to be read, a simulated one
writes nothing.  Both are told by the disk at the start, so they differ in nothing
but what is written and in the mark for it in the reports.
-/

namespace SourceTidy

namespace Report

def unpersisted (report : Report) : Report :=
  { report with persisted := false }

end Report

theorem Summary.foldl_add_unpersisted (summary : Summary) (reports : List Report) :
    (reports.map Report.unpersisted).foldl Summary.add summary =
      reports.foldl Summary.add summary := by
  rw [List.foldl_map]
  rfl

namespace Disk

theorem reportOn_simulated (disk : Disk) (root : Path) (file : TidiedFile) :
    disk.reportOn true root file = (disk.reportOn false root file).unpersisted := by
  simp [reportOn, Report.unpersisted]

theorem map_reportOn_simulated (disk : Disk) (root : Path) (files : List TidiedFile) :
    files.map (disk.reportOn true root) =
      (files.map (disk.reportOn false root)).map Report.unpersisted := by
  rw [List.map_map]
  exact List.map_congr_left fun file _ => disk.reportOn_simulated root file

theorem rewrites_simulated (disk : Disk) (config : Config) (files : List TidiedFile) :
    disk.rewrites config true files = [] := by
  rw [rewrites, List.filterMap_eq_nil_iff]
  intro file _
  unfold rewrite?
  split
  · rfl
  · simp

/-- A simulated run ends as the real one does, gives the same reports except that
nothing counts as written, and leaves the disk alone.  In the real run exactly the
files with changes are written. -/
theorem simulation_predicts_run (disk : Disk) (hdisk : disk.WellFormed) (config : Config)
    (root : Path) :
    (disk.run config true root).result = (disk.run config false root).result ∧
      (disk.run config true root).reports =
        (disk.run config false root).reports.map Report.unpersisted ∧
      (∀ report ∈ (disk.run config true root).reports, report.persisted = false) ∧
      (∀ report ∈ (disk.run config false root).reports, report.persisted = report.isDirty) ∧
      (disk.run config true root).disk = disk := by
  cases hwalk : disk.walk (Exclusions.ofConfig config) root with
  | error failure =>
      rcases failure with ⟨path, e⟩
      rw [run_of_walk_error config true root hwalk, run_of_walk_error config false root hwalk]
      simp
  | ok paths =>
      rcases disk.exists_judged config paths with ⟨files, remaining, hjudged⟩
      rcases hjudged.exists_ends
        ((files.map (disk.reportOn false root)).foldl Summary.add Summary.empty)
        with ⟨result, hresult⟩
      have hsimulated := hresult
      rw [← Summary.foldl_add_unpersisted, ← map_reportOn_simulated] at hsimulated
      rw [run_of_walk hdisk true root hwalk hjudged hsimulated,
        run_of_walk hdisk false root hwalk hjudged hresult]
      refine ⟨rfl, disk.map_reportOn_simulated root files, ?_, ?_, ?_⟩
      · intro report hreport
        rcases List.mem_map.mp hreport with ⟨file, _, rfl⟩
        rw [reportOn_simulated]
        rfl
      · intro report hreport
        rcases List.mem_map.mp hreport with ⟨file, _, rfl⟩
        simp [reportOn, Report.isDirty]
      · rw [rewrites_simulated]
        exact overwrite_nil disk

theorem simulation_predicts_run_threeFiles :
    threeFiles.WellFormed ∧
      (threeFiles.run Config.standard true [Path.slash]).result =
        (threeFiles.run Config.standard false [Path.slash]).result ∧
      (threeFiles.run Config.standard true [Path.slash]).disk = threeFiles := by
  have hdisk := wellFormed_threeFiles
  rcases simulation_predicts_run threeFiles hdisk Config.standard [Path.slash] with
    ⟨hresult, _, _, _, hsame⟩
  exact ⟨hdisk, hresult, hsame⟩

end Disk
end SourceTidy
