import SourceTidy.Text.Bytes

/-!
# Paths

A path is kept as it is written, as bytes.  Its components are what remains when repeated
and final slashes and all single dots but one at the very beginning are ignored,
and two spellings with the same components mean the same place.
-/

namespace SourceTidy

abbrev Name := List UInt8

abbrev Path := List UInt8

/-!
# Paths and texts

Where a path is wanted a text stands for its bytes, and where a text is wanted a path stands
for what it is shown as.  Lists of names go the same way.
-/

instance : Coe Text Path := ⟨Text.bytes⟩

instance : Coe Path Text := ⟨Text.shown⟩

instance : Coe (List Text) (List Path) := ⟨List.map Text.bytes⟩

instance : Coe (List Path) (List Text) := ⟨List.map Text.shown⟩

namespace Path

def of (spelling : String) : Path :=
  Text.bytes spelling.toList

def slash : UInt8 := 0x2F

def dot : UInt8 := 0x2E

inductive Component where
  | root
  /-- A single dot at the beginning of a path. -/
  | here
  | up
  | name (name : Name)
  deriving DecidableEq, Repr

/-!
# Segments

What stands between slashes is a segment.  Empty segments and single dots name
nothing; they are idle.
-/

/-- The pieces of a path between its slashes. -/
def segments (path : Path) : List Name :=
  List.splitOn slash path

def isIdle (segment : Name) : Bool :=
  segment == [] || segment == [dot]

def componentOf? (segment : Name) : Option Component :=
  if isIdle segment then none
  else if segment = [dot, dot] then some .up
  else some (.name segment)

/-- A path in two parts: the root or the dot that it begins with, and the
segments after that. -/
structure Parts where
  lead : Option Component
  body : List Name
  deriving DecidableEq, Repr

def parts (path : Path) : Parts :=
  match segments path with
  | [] => { lead := none, body := [] }
  | first :: rest =>
      if first = [] then
        if rest.isEmpty then { lead := none, body := [] } else { lead := some .root, body := rest }
      else if first = [dot] then
        { lead := some .here, body := rest }
      else
        { lead := none, body := first :: rest }

def joinSegments (body : List Name) : Path :=
  [slash].intercalate body

def Parts.toPath (parts : Parts) : Path :=
  match parts.lead with
  | some .root => slash :: joinSegments parts.body
  | some .here => if parts.body.isEmpty then [dot] else dot :: slash :: joinSegments parts.body
  | _ => joinSegments parts.body

def components (path : Path) : List Component :=
  let parts := parts path
  parts.lead.toList ++ parts.body.filterMap componentOf?

def same (a b : Path) : Bool :=
  components a == components b

def names (path : Path) : List Name :=
  (components path).filterMap fun
    | .name name => some name
    | _ => none

/-!
# Limits

A path as a whole and every name in it must not be too long, and no path holds a
byte that is zero.
-/

/-- The first length that is too much for a path. -/
def lengthLimit : Nat := 4096

def longestName : Nat := 255

def isTooLong (path : Path) : Bool :=
  lengthLimit ≤ path.length

def isOverlongName (name : Name) : Bool :=
  longestName < name.length

/-!
# Names and extensions
-/

def fileName? (path : Path) : Option Name :=
  match (components path).getLast? with
  | some (.name name) => some name
  | _ => none

/-- What follows the last dot of a name, unless that dot comes first. -/
def extensionOfName? (name : Name) : Option Name :=
  match (name.splitOn dot).reverse with
  | last :: before :: others =>
      if before.isEmpty && others.isEmpty then none else some last
  | _ => none

def extension? (path : Path) : Option Name :=
  (fileName? path).bind extensionOfName?

/-!
# Moving up and down
-/

def child (directory : Path) (name : Name) : Path :=
  if directory.isEmpty || directory.getLast? == some slash then
    directory ++ name
  else
    directory ++ slash :: name

/-- Segments without the idle ones at the end. -/
def withoutIdleEnd (body : List Name) : List Name :=
  (body.reverse.dropWhile isIdle).reverse

/-- The directories above a path with the given lead and, from last to first, the
given segments, the nearest one first. -/
def ancestorsAbove (lead : Option Component) : List Name → List Path
  | [] => if lead = some .here then [[]] else []
  | segment :: rest =>
      if isIdle segment then
        ancestorsAbove lead rest
      else
        Parts.toPath { lead := lead, body := withoutIdleEnd rest.reverse } ::
          ancestorsAbove lead rest

/-- A path and the directories above it, the nearest one first.  The directory
above a single relative name is written as the empty path. -/
def ancestors (path : Path) : List Path :=
  let parts := parts path
  path :: ancestorsAbove parts.lead parts.body.reverse

def parent? (path : Path) : Option Path :=
  (ancestors path)[1]?

/-- Segments after a beginning with the given components. -/
def segmentsAfter? : List Component → List Name → Option (List Name)
  | [], body => some body
  | _ :: _, [] => none
  | component :: components, segment :: body =>
      match componentOf? segment with
      | none => segmentsAfter? (component :: components) body
      | some other =>
          if component = other then segmentsAfter? components body else none

/-- The part of a path below a directory, if the path begins with it. -/
def below? (directory path : Path) : Option Path :=
  let above := parts directory
  let parts := parts path
  if above.lead = parts.lead then
    (segmentsAfter? (above.body.filterMap componentOf?) parts.body).map fun body =>
      joinSegments (withoutIdleEnd (body.dropWhile isIdle))
  else
    none

end Path
end SourceTidy
