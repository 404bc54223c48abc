import SourceTidy.Config.Layer
import SourceTidy.Files.Walk
import SourceTidy.Text.Bytes

/-!
# Finding configuration files

Configuration files are looked for in the home directory and in the directories
above the place where work starts.  The nearer a file is to that place the later
it comes in the list, and later files go on top of earlier ones.
-/

namespace SourceTidy

structure Environment where
  home : Option Text
  userProfile : Option Text
  deriving DecidableEq, Repr

def Environment.homeDirectory? (environment : Environment) : Option Path :=
  (environment.home <|> environment.userProfile).map Text.bytes

namespace Disk

/-- The directory where the search starts: the one that holds a file, a directory
itself, or else the current directory. -/
def searchStart? (disk : Disk) (start : Path) : Option Path :=
  if disk.isFile start then Path.parent? start
  else if disk.isDir start then some start
  else some disk.currentPath

def configFilesIn (disk : Disk) (directories : List Path) : List Path :=
  (directories.map fun directory => Path.child directory configFileName).filter disk.isFile

/-- The configuration files for work that starts at a path, the least specific
first.  The one in the home directory is not listed again if that directory lies
above the start. -/
def configFiles (disk : Disk) (environment : Environment) (start : Path) : List Path :=
  let atHome := disk.configFilesIn environment.homeDirectory?.toList
  match disk.searchStart? start with
  | none => atHome
  | some directory =>
      let above := disk.configFilesIn (Path.ancestors directory).reverse
      atHome ++ above.filter fun path => !atHome.any (Path.same path)

inductive LayerError where
  | unreadable (error : DiskError)
  | malformed
  deriving DecidableEq, Repr

def readLayer (disk : Disk) (path : Path) : Except LayerError Layer :=
  match disk.read path with
  | .error e => .error (.unreadable e)
  | .ok bytes =>
      match Text.decode? bytes with
      | none => .error (.unreadable .notText)
      | some text =>
          match Layer.parse? text with
          | none => .error .malformed
          | some layer => .ok layer

def configFrom (disk : Disk) (path : Path) : Except LayerError Config :=
  (disk.readLayer path).map Config.standard.withLayer

/-- The layers in a list of files.  Files that cannot be used are passed over. -/
def usableLayers (disk : Disk) (paths : List Path) : List Layer :=
  paths.filterMap fun path => (disk.readLayer path).toOption

def discoveredConfig (disk : Disk) (environment : Environment) (start : Path) : Config :=
  (disk.usableLayers (disk.configFiles environment start)).foldl Config.withLayer Config.standard

end Disk
end SourceTidy
