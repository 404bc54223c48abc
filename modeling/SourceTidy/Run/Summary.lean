import SourceTidy.Run.Report
import SourceTidy.Text.Decimal
import SourceTidy.Text.Dictionary

/-!
# Summaries

The summary of a run counts the files it has seen and the files that needed
changes, and collects the extensions of the latter.
-/

namespace SourceTidy

structure Summary where
  seen : Nat
  modified : Nat
  /-- The extensions of modified files, in increasing order. -/
  extensions : List Text
  deriving DecidableEq, Repr

namespace Summary

def empty : Summary where
  seen := 0
  modified := 0
  extensions := []

def add (summary : Summary) (report : Report) : Summary :=
  if report.isDirty then
    { seen := summary.seen + 1
      modified := summary.modified + 1
      extensions :=
        match report.extension? with
        | some extension => Text.insertSorted extension summary.extensions
        | none => summary.extensions }
  else
    { summary with seen := summary.seen + 1 }

def text (summary : Summary) : Text :=
  if summary.modified = 0 then
    "No files needed changes (".toList ++ Text.decimal summary.seen ++ " checked).".toList
  else
    Text.decimal summary.modified ++
      (if summary.modified = 1 then " file".toList else " files".toList) ++
      " modified (".toList ++ Text.decimal summary.seen ++ " checked)".toList ++
      if summary.extensions.isEmpty then []
      else "; extensions: ".toList ++ [',', ' '].intercalate summary.extensions

end Summary
end SourceTidy
