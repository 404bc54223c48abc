import SourceTidy.Text.Basic

/-!
# Records of changes

A record lists the kinds of changes made to one file, each of them once and in
the order in which they were first made.
-/

namespace SourceTidy

inductive Change where
  | tabs
  | indent
  | docu
  deriving DecidableEq, Repr

namespace Change

def text : Change → Text
  | .tabs => "tabs".toList
  | .indent => "indent".toList
  | .docu => "docu".toList

end Change

/-- The kinds of changes made to a file. -/
structure Record where
  changes : List Change
  deriving DecidableEq, Repr

namespace Record

def empty : Record := ⟨[]⟩

def add (record : Record) (change : Change) : Record :=
  if record.changes.contains change then record else ⟨record.changes ++ [change]⟩

def addIf (record : Record) (condition : Bool) (change : Change) : Record :=
  if condition then record.add change else record

def contains (record : Record) (change : Change) : Bool :=
  record.changes.contains change

def isDirty (record : Record) : Bool :=
  !record.changes.isEmpty

def text (record : Record) : Text :=
  [',', ' '].intercalate (record.changes.map Change.text)

end Record
end SourceTidy
