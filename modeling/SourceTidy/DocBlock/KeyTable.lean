import SourceTidy.Text.Dictionary

/-!
# Documentation keys

A documentation block may use the canonical keys and a number of older
spellings, the aliases, each of which stands for a canonical key.  Keys are
compared exactly, and an alias goes before a canonical key of the same spelling.
-/

namespace SourceTidy
namespace DocBlock

def standardKeys : List Text :=
  ["Title".toList, "URL".toList, "Date".toList, "Author".toList, "Email".toList, "Desc".toList,
   "Comp".toList, "Status".toList, "Notes".toList, "Ref".toList, "meta".toList]

def standardAliases : List (Text × Text) :=
  [("Problem Link".toList, "URL".toList),
   ("Problem URL".toList, "URL".toList),
   ("Link".toList, "URL".toList),
   ("Problem".toList, "Title".toList),
   ("Problem Name".toList, "Title".toList),
   ("Problem Title".toList, "Title".toList),
   ("Name".toList, "Title".toList),
   ("Created".toList, "Date".toList),
   ("Created On".toList, "Date".toList),
   ("Complexity".toList, "Comp".toList),
   ("Time Complexity".toList, "Comp".toList),
   ("Note".toList, "Notes".toList),
   ("Remarks".toList, "Notes".toList),
   ("Description".toList, "Desc".toList),
   ("Reference".toList, "Ref".toList),
   ("References".toList, "Ref".toList),
   ("Tags".toList, "meta".toList),
   ("Category".toList, "meta".toList),
   ("Mail".toList, "Email".toList)]

def dateKey : Text := "Date".toList

structure KeyTable where
  aliases : Dictionary
  canonical : List Text
  deriving DecidableEq, Repr

namespace KeyTable

def standard : KeyTable where
  aliases := Dictionary.ofList standardAliases
  canonical := standardKeys

def isCanonical (table : KeyTable) (key : Text) : Bool :=
  table.canonical.contains key

/-- The canonical key that a written key stands for. -/
def resolve? (table : KeyTable) (key : Text) : Option Text :=
  match table.aliases.get? key with
  | some target => some target
  | none => if table.isCanonical key then some key else none

def dangling (table : KeyTable) : List (Text × Text) :=
  table.aliases.filter fun (_, target) => !table.isCanonical target

end KeyTable
end DocBlock
end SourceTidy
