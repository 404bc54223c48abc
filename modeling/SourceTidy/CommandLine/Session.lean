import SourceTidy.CommandLine.Arguments
import SourceTidy.CommandLine.Help
import SourceTidy.Config.Discovery
import SourceTidy.Run.Batch

/-!
# A session on the command line

A session reads its arguments, builds the configuration, runs over the files and
says what was printed and how the program ended.
-/

namespace SourceTidy
namespace CommandLine

/-!
# The configuration of a session
-/

def Arguments.override (arguments : Arguments) (config : Config) : Config :=
  { config with
    indentWidth := arguments.indentWidth.getD config.indentWidth
    replaceTabs := config.replaceTabs && !arguments.noTabs
    fixIndent := config.fixIndent && !arguments.noIndent
    fixDocu := config.fixDocu && !arguments.noDocu
    exclude := config.exclude ++ arguments.exclude
    excludedExtensions :=
      config.excludedExtensions ++ arguments.skipExtensions.map (Text.dropLeading '.') }

inductive Problem where
  | noSuchPath (path : Path)
  | badConfigFile (path : Path) (error : Disk.LayerError)
  | invalidConfig (defect : Config.Defect)
  | aborted (failure : Failure)
  deriving DecidableEq, Repr

/-- The configuration from files: the given one, or those that are found. -/
def fileConfig (disk : Disk) (environment : Environment) (arguments : Arguments) :
    Except Problem Config :=
  match arguments.config with
  | none => .ok (disk.discoveredConfig environment arguments.path)
  | some path =>
      match disk.configFrom path with
      | .ok config => .ok config
      | .error error => .error (.badConfigFile path error)

def effectiveConfig (disk : Disk) (environment : Environment) (arguments : Arguments) :
    Except Problem Config :=
  match fileConfig disk environment arguments with
  | .error problem => .error problem
  | .ok config =>
      let config := arguments.override config
      match config.defect? with
      | some defect => .error (.invalidConfig defect)
      | none => .ok config

/-!
# Error reports

A report has a headline and the causes of the problem, each of them being the
reason for the one before.  Two or more causes are numbered.  Further lines of a
cause are set in like its first one.
-/

/-- A text with something in front of its first line, and of each further one. -/
def setIn (first others text : Text) : Text :=
  first ++ (['\n'] ++ others).intercalate (List.splitOn '\n' text)

def numbered (n : Nat) : List Text → Text
  | [] => []
  | cause :: causes =>
      '\n' :: setIn ("    ".toList ++ Text.decimal n ++ ": ".toList) "       ".toList cause ++
        numbered (n + 1) causes

def report (headline : Text) (causes : List Text) : Text :=
  "Error: ".toList ++ headline ++ "\n\nCaused by:".toList ++
    match causes with
    | [cause] => '\n' :: setIn "    ".toList "    ".toList cause
    | causes => numbered 0 causes

/-- What a problem is reported as.  For a malformed configuration file no cause is
given. -/
def Problem.report : Problem → Text
  | .noSuchPath path => "Error: path does not exist: ".toList ++ Text.shown path
  | .invalidConfig defect => "Error: Invalid configuration: ".toList ++ defect.message
  | .badConfigFile path error =>
      CommandLine.report ("failed to load ".toList ++ Text.shown path) <|
        match error with
        | .unreadable error => [error.message]
        | .malformed => []
  | .aborted failure =>
      CommandLine.report "run aborted".toList
        ([failure.message, failure.cause.message] ++ failure.cause.diskMessage?.toList)

/-!
# The session
-/

structure Ending where
  /-- The number handed back to the caller. -/
  exitCode : Nat
  output : Text
  /-- Whether it was announced that files are not written. -/
  simulating : Bool
  problem? : Option Problem
  disk : Disk

def printed (lines : List Text) : Text :=
  lines.flatMap fun line => line ++ ['\n']

/-- The lines that a run prints: one for each file that needed changes, and the
summary. -/
def outputLines (outcome : Outcome) (simulate : Bool) : List Text :=
  (outcome.reports.filter Report.isDirty).map (fun report => report.line simulate) ++
    match outcome.result with
    | .ok summary => [summary.text]
    | .error _ => []

def perform (disk : Disk) (environment : Environment) (arguments : Arguments) : Ending :=
  let refused (problem : Problem) : Ending :=
    { exitCode := 1, output := [], simulating := false, problem? := some problem, disk := disk }
  if !disk.pathExists arguments.path then
    refused (.noSuchPath arguments.path)
  else
    match effectiveConfig disk environment arguments with
    | .error problem => refused problem
    | .ok config =>
        let outcome := disk.run config arguments.simulate arguments.path
        let problem? := match outcome.result with
          | .ok _ => none
          | .error failure => some (.aborted failure)
        { exitCode := if problem?.isSome then 1 else 0
          output :=
            if arguments.silent then [] else printed (outputLines outcome arguments.simulate)
          simulating := arguments.simulate && !arguments.silent
          problem? := problem?
          disk := outcome.disk }

def execute (disk : Disk) (environment : Environment) (arguments : List Text) : Ending :=
  let ended (code : Nat) (output : Text) : Ending :=
    { exitCode := code, output := output, simulating := false, problem? := none, disk := disk }
  match parse arguments with
  | .error .help => ended 0 helpText
  | .error .version => ended 0 versionText
  | .error (.error _) => ended 2 []
  | .ok arguments => perform disk environment arguments

end CommandLine
end SourceTidy
