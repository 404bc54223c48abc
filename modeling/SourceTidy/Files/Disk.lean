import SourceTidy.Files.Listing

/-!
# The disk

A disk is a directory tree and the place in it from which relative paths start.
Paths are followed segment by segment: every segment needs a directory to start
from, also one that names nothing, so a path with a slash at its end never leads
to a file.  Paths and names that are too long lead nowhere.
-/

namespace SourceTidy

inductive DiskError where
  | notFound
  | notADirectory
  | isADirectory
  | nameTooLong
  | zeroInName
  | notText
  deriving DecidableEq, Repr

def DiskError.message : DiskError → Text
  | .notFound => "No such file or directory (os error 2)".toList
  | .notADirectory => "Not a directory (os error 20)".toList
  | .isADirectory => "Is a directory (os error 21)".toList
  | .nameTooLong => "File name too long (os error 36)".toList
  | .zeroInName => "file name contained an unexpected NUL byte".toList
  | .notText => "stream did not contain valid UTF-8".toList

structure Disk where
  root : Listing
  current : List Name
  deriving DecidableEq

namespace Disk

/-- Follow segments from an entry of a tree, where `trail` holds the names that
lead to the entry, the last one first.  The result is the trail and the entry at
the end. -/
def follow (root : Listing) (trail : List Name) (entry : Entry) :
    List Name → Except DiskError (List Name × Entry)
  | [] => .ok (trail, entry)
  | segment :: segments =>
      match entry with
      | .file _ => .error .notADirectory
      | .dir content =>
          match Path.componentOf? segment with
          | none => follow root trail entry segments
          | some .up =>
              match root.get? trail.tail.reverse with
              | none => .error .notFound
              | some entry => follow root trail.tail entry segments
          | some _ =>
              if Path.isOverlongName segment then
                .error .nameTooLong
              else
                match content.find? segment with
                | none => .error .notFound
                | some entry => follow root (segment :: trail) entry segments

/-- Where a path starts: at the root if it begins with a slash, and else in the
current directory. -/
def startOf (disk : Disk) (path : Path) : List Name :=
  if path.head? = some Path.slash then [] else disk.current

/-- The names that a path leads to from the root, and the entry there. -/
def locate (disk : Disk) (path : Path) : Except DiskError (List Name × Entry) :=
  if path.contains 0 then
    .error .zeroInName
  else if path.isEmpty then
    .error .notFound
  else if Path.isTooLong path then
    .error .nameTooLong
  else
    let start := disk.startOf path
    match disk.root.get? start with
    | none => .error .notFound
    | some entry =>
        (follow disk.root start.reverse entry (Path.segments path)).map fun (trail, entry) =>
          (trail.reverse, entry)

def entry (disk : Disk) (path : Path) : Except DiskError Entry :=
  (disk.locate path).map fun (_, entry) => entry

def pathExists (disk : Disk) (path : Path) : Bool :=
  match disk.entry path with
  | .ok _ => true
  | .error _ => false

def isFile (disk : Disk) (path : Path) : Bool :=
  match disk.entry path with
  | .ok (.file _) => true
  | _ => false

def isDir (disk : Disk) (path : Path) : Bool :=
  match disk.entry path with
  | .ok (.dir _) => true
  | _ => false

def read (disk : Disk) (path : Path) : Except DiskError ByteArray :=
  match disk.entry path with
  | .error e => .error e
  | .ok (.dir _) => .error .isADirectory
  | .ok (.file content) => .ok content

def write (disk : Disk) (path : Path) (content : ByteArray) : Disk :=
  match disk.locate path with
  | .error _ => disk
  | .ok (place, _) => { disk with root := disk.root.putFile content place }

def currentPath (disk : Disk) : Path :=
  Path.slash :: Path.joinSegments disk.current

/-- What is shown for something found under a root: the part of its path below the root
if that is a directory. -/
def displayPath (disk : Disk) (root path : Path) : Text :=
  Text.shown (if disk.isDir root then (Path.below? root path).getD path else path)

end Disk
end SourceTidy
