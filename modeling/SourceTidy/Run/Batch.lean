import SourceTidy.Document
import SourceTidy.Files.Walk
import SourceTidy.Run.Summary
import SourceTidy.Text.Bytes
import SourceTidy.Tidy

/-!
# Runs over many files

A run enumerates its files before it touches any of them, then tidies them one
after the other and writes those that changed, unless it only simulates.  The
first failure ends the run; files written before it stay written.
-/

namespace SourceTidy

def Disk.load (disk : Disk) (path : Path) : Except Cause Document :=
  match disk.read path with
  | .error e => .error (.unreadable e)
  | .ok bytes =>
      match Text.decode? bytes with
      | none => .error (.unreadable .notText)
      | some [] => .error .noContent
      | some (c :: text) => .ok (Document.parse (c :: text))

/-- The document in a file with all enabled changes made, and the record of them. -/
def Disk.loadTidied (disk : Disk) (config : Config) (path : Path) :
    Except Cause (Document × Record) :=
  match disk.load path with
  | .error cause => .error cause
  | .ok document =>
      let edited := config.tidy document.lines
      match edited.result with
      | .error fault => .error (.docBlock fault)
      | .ok record => .ok ({ document with lines := edited.lines }, record)

def Disk.tidyFile (disk : Disk) (config : Config) (simulate : Bool) (root path : Path) :
    Except Failure (Report × Disk) :=
  match disk.loadTidied config path with
  | .error cause => .error { path := path, cause := cause }
  | .ok (document, record) =>
      let persisted := record.isDirty && !simulate
      let report :=
        { path := path
          display := disk.displayPath root path
          record := record
          persisted := persisted }
      .ok (report, if persisted then disk.write path (Text.encode document.render) else disk)

/-- How a run ends: a report for each file that was finished, the summary or the
failure that ended the run, and the disk as it was left. -/
structure Outcome where
  reports : List Report
  result : Except Failure Summary
  disk : Disk

def Disk.tidyFiles (config : Config) (simulate : Bool) (root : Path) :
    Disk → Summary → List Path → Outcome
  | disk, summary, [] => { reports := [], result := .ok summary, disk := disk }
  | disk, summary, path :: paths =>
      match disk.tidyFile config simulate root path with
      | .error failure => { reports := [], result := .error failure, disk := disk }
      | .ok (report, disk) =>
          let outcome := Disk.tidyFiles config simulate root disk (summary.add report) paths
          { outcome with reports := report :: outcome.reports }

def Disk.enumerate (disk : Disk) (config : Config) (root : Path) :
    Except Failure (List Path) :=
  match disk.walk (Exclusions.ofConfig config) root with
  | .error (path, e) => .error { path := path, cause := .unlisted path e }
  | .ok paths => .ok paths

def Disk.run (disk : Disk) (config : Config) (simulate : Bool) (root : Path) : Outcome :=
  match disk.enumerate config root with
  | .error failure => { reports := [], result := .error failure, disk := disk }
  | .ok paths => Disk.tidyFiles config simulate root disk Summary.empty paths

end SourceTidy
