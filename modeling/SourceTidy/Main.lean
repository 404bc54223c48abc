import SourceTidy.CommandLine.Session

/-!
# The program

The program takes a picture of the part of the disk that its arguments name,
holds a session on the picture, and writes back the files that have changed.
-/

namespace SourceTidy
namespace Program

def absolute (place : List Name) : String :=
  String.ofList (Text.shown (Path.slash :: Path.joinSegments place))

def readFile? (place : List Name) : IO (Option ByteArray) := do
  let path := (← IO.currentDir) / absolute place
  if (← path.pathExists) && !(← path.isDir) then
    return some (← IO.FS.readBinFile path)
  else
    return none

def readNames? (place : List Name) : IO (Option (List Name)) := do
  let path := (← IO.currentDir) / absolute place
  if ← path.isDir then
    let entries ← path.readDir
    return some (entries.toList.map fun entry => Text.bytes entry.fileName.toList)
  else
    return none

partial def pictureAll (picture : Listing) (place : List Name) : IO Listing := do
  match ← readNames? place with
  | some names =>
      names.foldlM (fun picture name => pictureAll picture (place ++ [name])) (picture.putDir place)
  | none =>
      match ← readFile? place with
      | some bytes => return picture.putFile bytes place
      | none => return picture

/-- Put what a path leads through into the picture, and give the place it leads to. -/
def pictureWay (picture : Listing) (place : List Name) : List Name → IO (Listing × List Name)
  | [] => return (picture, place)
  | segment :: segments => do
      let place := match Path.componentOf? segment with
        | none => place
        | some .up => place.dropLast
        | some _ => place ++ [segment]
      match ← readFile? place with
      | some bytes => pictureWay (picture.putFile bytes place) place segments
      | none =>
          match ← readNames? place with
          | some _ => pictureWay (picture.putDir place) place segments
          | none => return (picture, place)

def origin (current : List Name) (path : Path) : List Name :=
  if path.head? = some Path.slash then [] else current

/-- Put a path into the picture, with everything below it if `whole`. -/
def picturePath (current : List Name) (whole : Bool) (picture : Listing) (path : Path) :
    IO Listing := do
  let (picture, place) ← pictureWay picture (origin current path) (Path.segments path)
  if whole then pictureAll picture place else return picture

def lookups (disk : Disk) (environment : Environment) (arguments : CommandLine.Arguments) :
    List Path :=
  let directories := environment.homeDirectory?.toList ++
    ((disk.searchStart? arguments.path).map Path.ancestors).getD []
  arguments.config.toList ++
    directories.map fun directory => Path.child directory configFileName

def takePicture (current : List Name) (environment : Environment)
    (arguments : CommandLine.Arguments) : IO Disk := do
  let picture ← picturePath current true (Listing.empty.putDir current) arguments.path
  let disk : Disk := { root := picture, current := current }
  let picture ← (lookups disk environment arguments).foldlM (picturePath current false) picture
  return { disk with root := picture }

/-- Write the files that differ between two pictures with the same files. -/
def writeBack (before after : Listing) : IO Unit := do
  for ((place, old), (_, new)) in (before.allFiles []).zip (after.allFiles []) do
    if old != new then
      IO.FS.writeBinFile (absolute place) new

def run (words : List Text) : IO UInt32 := do
  let home ← IO.getEnv "HOME"
  let userProfile ← IO.getEnv "USERPROFILE"
  let environment : Environment :=
    { home := home.map String.toList, userProfile := userProfile.map String.toList }
  let current := Path.names (Text.bytes (← IO.currentDir).toString.toList)
  let disk ← match CommandLine.parse words with
    | .ok arguments => takePicture current environment arguments
    | .error _ => pure { root := .empty, current := current }
  let ending := CommandLine.execute disk environment words
  if ending.simulating then
    IO.eprintln "Simulating: no files will be written."
  writeBack disk.root ending.disk.root
  IO.print (String.ofList ending.output)
  match ending.problem? with
  | some problem => IO.eprintln (String.ofList problem.report)
  | none =>
      if ending.exitCode = 2 then
        IO.eprintln "error: invalid arguments\n\nFor more information, try '--help'."
  return ending.exitCode.toUInt32

end Program
end SourceTidy

def main (arguments : List String) : IO UInt32 :=
  SourceTidy.Program.run (arguments.map String.toList)
