import SourceTidy.CommandLine.Session
import SourceTidy.Proofs.CommandLine.Flags
import SourceTidy.Proofs.Run.Refinement

/-!
# What a session promises

A session either refuses to start, and then leaves no trace, or it runs.  After a run the
exit code, the problem and the disk are those of the run, and what is printed tells which
files needed changes, in the order in which they were enumerated.  A silent session prints
nothing and does the same.
-/

namespace SourceTidy

/-!
# The order of reports
-/

/-- A run over some paths, given the totals before it: it reports on one path after the
other, and the first one that it does not report on is the one that it failed at. -/
structure Outcome.Follows (outcome : Outcome) (summary : Summary) (paths : List Path) : Prop where
  order : outcome.reports.map Report.path = paths.take outcome.reports.length
  completed : ∀ total, outcome.result = .ok total →
    outcome.reports.length = paths.length ∧ total = outcome.reports.foldl Summary.add summary
  aborted : ∀ failure, outcome.result = .error failure →
    paths[outcome.reports.length]? = some failure.path

namespace Disk

section Steps

variable {disk next : Disk} {config : Config} {simulate : Bool} {root path : Path}
  {report : Report} {failure : Failure}

theorem path_of_tidyFile (h : disk.tidyFile config simulate root path = .ok (report, next)) :
    report.path = path := by
  rw [tidyFile] at h
  split at h
  · cases h
  · cases h
    rfl

theorem path_of_tidyFile_error (h : disk.tidyFile config simulate root path = .error failure) :
    failure.path = path := by
  rw [tidyFile] at h
  split at h
  · cases h
    rfl
  · cases h

end Steps

theorem follows_tidyFiles (config : Config) (simulate : Bool) (root : Path) (disk : Disk)
    (summary : Summary) (paths : List Path) :
    (tidyFiles config simulate root disk summary paths).Follows summary paths := by
  -- every file leaves another disk and other totals to the ones after it
  induction paths generalizing disk summary with
  | nil =>
      rw [tidyFiles]
      refine ⟨rfl, ?_, ?_⟩
      · intro total h
        cases h
        exact ⟨rfl, rfl⟩
      · intro failure h
        cases h
  | cons path paths ih =>
      rw [tidyFiles]
      cases htidy : disk.tidyFile config simulate root path with
      | error failure =>
          refine ⟨rfl, ?_, ?_⟩
          · intro total h
            cases h
          · intro _ h
            cases h
            rw [path_of_tidyFile_error htidy]
            rfl
      | ok tidied =>
          rcases tidied with ⟨report, next⟩
          rcases ih next (summary.add report) with ⟨horder, hcompleted, haborted⟩
          refine ⟨?_, ?_, ?_⟩
          · rw [List.map_cons, List.length_cons, List.take_succ_cons, path_of_tidyFile htidy,
              horder]
          · intro total h
            rcases hcompleted total h with ⟨hlength, htotal⟩
            exact ⟨congrArg (· + 1) hlength, htotal⟩
          · intro failure h
            exact haborted failure h

theorem follows_run {disk : Disk} {config : Config} {root : Path} {paths : List Path}
    (h : disk.enumerate config root = .ok paths) (simulate : Bool) :
    (disk.run config simulate root).Follows Summary.empty paths := by
  rw [run, h]
  exact follows_tidyFiles config simulate root disk Summary.empty paths

theorem run_of_enumerate_error {disk : Disk} {config : Config} {root : Path} {failure : Failure}
    (h : disk.enumerate config root = .error failure) (simulate : Bool) :
    disk.run config simulate root = { reports := [], result := .error failure, disk := disk } := by
  rw [run, h]

end Disk

namespace CommandLine

/-!
# What stands in the way of a run
-/

/-- The reasons not to start a run. -/
inductive Obstacle (disk : Disk) (environment : Environment) (arguments : Arguments) :
    Problem → Prop
  | noSuchPath (h : disk.pathExists arguments.path = false) :
      Obstacle disk environment arguments (.noSuchPath arguments.path)
  | badConfigFile {path : Path} {error : Disk.LayerError} (hpath : arguments.config = some path)
      (herror : disk.configFrom path = .error error) :
      Obstacle disk environment arguments (.badConfigFile path error)
  | invalidConfig {config : Config} {defect : Config.Defect}
      (hconfig : fileConfig disk environment arguments = .ok config)
      (hdefect : (arguments.override config).defect? = some defect) :
      Obstacle disk environment arguments (.invalidConfig defect)

def refusal (disk : Disk) (problem : Problem) : Ending where
  exitCode := 1
  output := []
  simulating := false
  problem? := some problem
  disk := disk

def problemOf? (outcome : Outcome) : Option Problem :=
  match outcome.result with
  | .ok _ => none
  | .error failure => some (.aborted failure)

def conclusion (arguments : Arguments) (outcome : Outcome) : Ending where
  exitCode := if (problemOf? outcome).isSome then 1 else 0
  output := if arguments.silent then [] else printed (outputLines outcome arguments.simulate)
  simulating := arguments.simulate && !arguments.silent
  problem? := problemOf? outcome
  disk := outcome.disk

section Sessions

variable {disk : Disk} {environment : Environment} {arguments : Arguments} {problem : Problem}

theorem obstacle_of_effectiveConfig
    (h : effectiveConfig disk environment arguments = .error problem) :
    Obstacle disk environment arguments problem := by
  rw [effectiveConfig] at h
  cases hfile : fileConfig disk environment arguments with
  | error problem' =>
      rw [hfile] at h
      cases h
      rw [fileConfig] at hfile
      cases hpath : arguments.config with
      | none =>
          rw [hpath] at hfile
          cases hfile
      | some path =>
          rw [hpath] at hfile
          cases hconfig : disk.configFrom path with
          | ok config =>
              simp only [hconfig] at hfile
              cases hfile
          | error error =>
              simp only [hconfig] at hfile
              cases hfile
              exact .badConfigFile hpath hconfig
  | ok config =>
      rw [hfile] at h
      cases hdefect : (arguments.override config).defect? with
      | none =>
          simp only [hdefect] at h
          cases h
      | some defect =>
          simp only [hdefect] at h
          cases h
          exact .invalidConfig hfile hdefect

theorem effectiveConfig_of_obstacle (h : Obstacle disk environment arguments problem)
    (hpath : disk.pathExists arguments.path = true) :
    effectiveConfig disk environment arguments = .error problem := by
  cases h with
  | noSuchPath h =>
      rw [hpath] at h
      cases h
  | badConfigFile hconfig herror => simp only [effectiveConfig, fileConfig, hconfig, herror]
  | invalidConfig hconfig hdefect => simp only [effectiveConfig, hconfig, hdefect]

theorem perform_of_obstacle (h : Obstacle disk environment arguments problem) :
    ∃ problem, Obstacle disk environment arguments problem ∧
      perform disk environment arguments = refusal disk problem := by
  cases hpath : disk.pathExists arguments.path with
  | false =>
      refine ⟨_, .noSuchPath hpath, ?_⟩
      rw [perform, hpath]
      rfl
  | true =>
      refine ⟨problem, h, ?_⟩
      rw [perform, hpath, effectiveConfig_of_obstacle h hpath]
      rfl

theorem perform_of_no_obstacle (h : ¬ ∃ problem, Obstacle disk environment arguments problem) :
    ∃ config, effectiveConfig disk environment arguments = .ok config ∧
      perform disk environment arguments =
        conclusion arguments (disk.run config arguments.simulate arguments.path) := by
  have hpath : disk.pathExists arguments.path = true := by
    cases hpath : disk.pathExists arguments.path with
    | true => rfl
    | false => exact absurd ⟨_, .noSuchPath hpath⟩ h
  cases hconfig : effectiveConfig disk environment arguments with
  | error problem => exact absurd ⟨problem, obstacle_of_effectiveConfig hconfig⟩ h
  | ok config =>
      refine ⟨config, rfl, ?_⟩
      rw [perform, hpath, hconfig]
      rfl

theorem execute_of_parse {words : List Text} (h : parse words = .ok arguments) :
    execute disk environment words = perform disk environment arguments := by
  rw [execute, h]

/-- A silent session differs in what is printed and announced only. -/
theorem perform_silent :
    perform disk environment { arguments with silent := true } =
      { perform disk environment arguments with output := [], simulating := false } := by
  have hconfig : effectiveConfig disk environment { arguments with silent := true } =
      effectiveConfig disk environment arguments := rfl
  rw [perform, perform, hconfig]
  cases disk.pathExists arguments.path with
  | false => rfl
  | true =>
      cases effectiveConfig disk environment arguments with
      | error problem => rfl
      | ok config => simp

end Sessions

/-!
# The contract
-/

def dirtyLines (reports : List Report) (simulate : Bool) : List Text :=
  (reports.filter Report.isDirty).map fun report => report.line simulate

/-- What a session shows of its run. -/
structure Ending.Shows (ending : Ending) (arguments : Arguments) (outcome : Outcome) : Prop where
  exitCode : ending.exitCode = 0 ↔ ∃ summary, outcome.result = .ok summary
  problem : ∀ problem, ending.problem? = some problem ↔
    ∃ failure, outcome.result = .error failure ∧ problem = .aborted failure
  disk : ending.disk = outcome.disk
  completed : arguments.silent = false → ∀ summary, outcome.result = .ok summary →
    ending.output = printed (dirtyLines outcome.reports arguments.simulate ++ [summary.text])
  aborted : arguments.silent = false → ∀ failure, outcome.result = .error failure →
    ending.output = printed (dirtyLines outcome.reports arguments.simulate)

theorem shows_conclusion (arguments : Arguments) (outcome : Outcome) :
    (conclusion arguments outcome).Shows arguments outcome := by
  cases hresult : outcome.result with
  | ok summary =>
      have hproblem : problemOf? outcome = none := by rw [problemOf?, hresult]
      refine ⟨?_, ?_, rfl, ?_, ?_⟩
      · simp [conclusion, hproblem, hresult]
      · simp [conclusion, hproblem, hresult]
      · intro hsilent total htotal
        cases hresult.symm.trans htotal
        simp [conclusion, hsilent, outputLines, hresult, dirtyLines]
      · intro _ failure hfailure
        cases hresult.symm.trans hfailure
  | error failure =>
      have hproblem : problemOf? outcome = some (.aborted failure) := by rw [problemOf?, hresult]
      refine ⟨?_, ?_, rfl, ?_, ?_⟩
      · simp [conclusion, hproblem, hresult]
      · intro problem
        constructor
        · intro h
          cases hproblem.symm.trans h
          exact ⟨failure, hresult, rfl⟩
        · rintro ⟨other, hother, rfl⟩
          cases hresult.symm.trans hother
          exact hproblem
      · intro _ total htotal
        cases hresult.symm.trans htotal
      · intro hsilent other hother
        simp [conclusion, hsilent, outputLines, hresult, dirtyLines]

/-- A session that is refused prints nothing and leaves the disk as it is.  Any other one
shows its run, whose reports come in the order of the enumeration.  Silence changes what is
printed, and nothing else. -/
theorem execute_contract (disk : Disk) (environment : Environment) {words : List Text}
    {arguments : Arguments} (h : parse words = .ok arguments) :
    ((∃ problem, Obstacle disk environment arguments problem) →
      (execute disk environment words).exitCode = 1 ∧
      (execute disk environment words).output = [] ∧
      (execute disk environment words).disk = disk ∧
      ∃ problem, Obstacle disk environment arguments problem ∧
        (execute disk environment words).problem? = some problem) ∧
    ((¬ ∃ problem, Obstacle disk environment arguments problem) →
      ∃ config, effectiveConfig disk environment arguments = .ok config ∧
        (execute disk environment words).Shows arguments
          (disk.run config arguments.simulate arguments.path) ∧
        (∀ paths, disk.enumerate config arguments.path = .ok paths →
          (disk.run config arguments.simulate arguments.path).Follows Summary.empty paths) ∧
        (∀ failure, disk.enumerate config arguments.path = .error failure →
          disk.run config arguments.simulate arguments.path =
            { reports := [], result := .error failure, disk := disk })) ∧
    (arguments.silent = false →
      parse ("--silent".toList :: words) = .ok { arguments with silent := true }) ∧
    ∀ silent, parse silent = .ok { arguments with silent := true } →
      (execute disk environment silent).output = [] ∧
      (execute disk environment silent).disk = (execute disk environment words).disk ∧
      (execute disk environment silent).exitCode = (execute disk environment words).exitCode ∧
      (execute disk environment silent).problem? = (execute disk environment words).problem? := by
  have hexecute : execute disk environment words = perform disk environment arguments :=
    execute_of_parse h
  refine ⟨?_, ?_, parse_silent_cons h, ?_⟩
  · rintro ⟨problem, hobstacle⟩
    rcases perform_of_obstacle hobstacle with ⟨problem, hobstacle, hperform⟩
    rw [hexecute, hperform]
    exact ⟨rfl, rfl, rfl, problem, hobstacle, rfl⟩
  · intro hfree
    rcases perform_of_no_obstacle hfree with ⟨config, hconfig, hperform⟩
    rw [hexecute, hperform]
    refine ⟨config, hconfig, shows_conclusion _ _, ?_, ?_⟩
    · intro paths hpaths
      exact Disk.follows_run hpaths arguments.simulate
    · intro failure hfailure
      exact Disk.run_of_enumerate_error hfailure arguments.simulate
  · intro silent hsilent
    rw [execute_of_parse hsilent, hexecute, perform_silent]
    exact ⟨rfl, rfl, rfl, rfl⟩

def plainArguments (path : Path) : Arguments where
  path := path
  indentWidth := none
  noTabs := false
  noIndent := false
  noDocu := false
  simulate := false
  exclude := []
  skipExtensions := []
  config := none
  debug := false
  silent := false

theorem execute_contract_threeFiles :
    (execute Disk.threeFiles ⟨none, none⟩ ["/".toList]).output = "a: docu\n".toList ∧
      (execute Disk.threeFiles ⟨none, none⟩ ["/".toList]).exitCode ≠ 0 ∧
      (execute Disk.threeFiles ⟨none, none⟩ ["--silent".toList, "/".toList]).output = [] ∧
      (execute Disk.threeFiles ⟨none, none⟩ ["--silent".toList, "/".toList]).exitCode ≠ 0 := by
  have hparse : parse ["/".toList] = .ok (plainArguments [Path.slash]) := by rfl
  have hstandard : effectiveConfig Disk.threeFiles ⟨none, none⟩ (plainArguments [Path.slash]) =
      .ok Config.standard := by
    rfl
  have hexists : Disk.threeFiles.pathExists [Path.slash] = true := by decide +kernel
  have hfree : ¬ ∃ problem, Obstacle Disk.threeFiles ⟨none, none⟩ (plainArguments [Path.slash])
      problem := by
    rintro ⟨problem, hobstacle⟩
    cases hstandard.symm.trans (effectiveConfig_of_obstacle hobstacle hexists)
  have hresult : (Disk.threeFiles.run Config.standard false [Path.slash]).result =
      .error { path := Path.of "/b", cause := .noContent } := by
    rfl
  have hlines : dirtyLines (Disk.threeFiles.run Config.standard false [Path.slash]).reports false =
      ["a: docu".toList] := by
    decide +kernel
  rcases execute_contract Disk.threeFiles ⟨none, none⟩ hparse with ⟨_, hrun, hflag, hsilent⟩
  rcases hrun hfree with ⟨config, hconfig, hshows, _⟩
  cases hstandard.symm.trans hconfig
  rcases hsilent _ (hflag rfl) with ⟨houtput, _, hcode, _⟩
  have hfails : (execute Disk.threeFiles ⟨none, none⟩ ["/".toList]).exitCode ≠ 0 := by
    intro hzero
    rcases hshows.exitCode.mp hzero with ⟨summary, hsummary⟩
    cases hresult.symm.trans hsummary
  refine ⟨?_, hfails, houtput, ?_⟩
  · rw [hshows.aborted rfl _ hresult]
    exact congrArg printed hlines
  · rw [hcode]
    exact hfails

end CommandLine
end SourceTidy
