import SourceTidy.Change
import SourceTidy.DocBlock.Line
import SourceTidy.Files.Disk

/-!
# Reports and failures

Every file that has been worked on gets a report.  A file that cannot be worked
on, or a directory that cannot be enumerated, is a failure and ends the run.
-/

namespace SourceTidy

structure Report where
  path : Path
  /-- The path as it is shown. -/
  display : Text
  record : Record
  /-- Whether the file was written. -/
  persisted : Bool
  deriving DecidableEq, Repr

namespace Report

def isDirty (report : Report) : Bool :=
  report.record.isDirty

def extension? (report : Report) : Option Text :=
  (Path.extension? report.path).map Text.shown

def line (report : Report) (simulate : Bool) : Text :=
  report.display ++ ": ".toList ++ report.record.text ++
    if simulate then " (simulated)".toList else []

end Report

inductive Cause where
  | docBlock (fault : DocBlock.Fault)
  | unreadable (error : DiskError)
  /-- The entries at a path cannot be enumerated. -/
  | unlisted (path : Path) (error : DiskError)
  | noContent
  deriving DecidableEq, Repr

namespace Cause

def diskMessage? : Cause → Option Text
  | .unreadable error => some error.message
  | .unlisted path error =>
      some ("IO error for operation on ".toList ++ Text.shown path ++ ": ".toList ++ error.message)
  | .docBlock _ => none
  | .noContent => none

def message (cause : Cause) : Text :=
  match cause with
  | .docBlock fault => fault.message
  | .noContent => "file has no content".toList
  | cause => "i/o failure: ".toList ++ cause.diskMessage?.getD []

end Cause

structure Failure where
  path : Path
  cause : Cause
  deriving DecidableEq, Repr

def Failure.message (failure : Failure) : Text :=
  Text.shown failure.path ++ ": ".toList ++ failure.cause.message

end SourceTidy
