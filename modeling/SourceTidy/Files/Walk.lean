import SourceTidy.Config.Basic
import SourceTidy.Files.Disk
import SourceTidy.Files.Glob

/-!
# Enumerating the files to work on

A walk goes through a directory in the order of names and enters each directory
at its place in that order.  Excluded directories are not entered, and excluded
files are left out.  A directory that has to be entered but whose path is too long
ends the walk.
-/

namespace SourceTidy

/-- The name of configuration files, which are never worked on themselves. -/
def configFileName : Name := Path.of "codefmt.toml"

structure Exclusions where
  dirs : List Text
  extensions : List Text
  patterns : List Glob
  deriving DecidableEq, Repr

namespace Exclusions

/-- The exclusions of a configuration.  Extensions may be written with dots in
front, and texts that are no patterns are ignored. -/
def ofConfig (config : Config) : Exclusions where
  dirs := config.excludedDirs
  extensions := config.excludedExtensions.map (Text.dropLeading '.')
  patterns := config.exclude.filterMap Glob.parse?

def matchesPattern (exclusions : Exclusions) (path : Path) : Bool :=
  exclusions.patterns.any fun glob =>
    glob.isMatch (Text.shown path) ||
      (Path.names path).any fun name => glob.isMatch (Text.shown name)

def hasExcludedExtension (exclusions : Exclusions) (path : Path) : Bool :=
  match (Path.extension? path).bind Text.ofBytes? with
  | some extension => exclusions.extensions.contains extension
  | none => false

def accepts (exclusions : Exclusions) (path : Path) : Bool :=
  Path.fileName? path != some configFileName &&
    !exclusions.hasExcludedExtension path && !exclusions.matchesPattern path

/-- Whether a directory is not entered. -/
def prunes (exclusions : Exclusions) (name : Name) (path : Path) : Bool :=
  exclusions.dirs.contains (Text.shown name) || exclusions.matchesPattern path

end Exclusions

/-- The number of levels that a walk goes down. -/
def depthLimit : Nat := 256

/-- The accepted files in a listing, where `directory` is the path of the listing
and `levels` the number of levels of directories that may be entered below it.  If
a directory cannot be entered the result is its path. -/
def Listing.accepted (exclusions : Exclusions) (levels : Nat) (directory : Path) :
    Listing → Except Path (List Path)
  | .empty => .ok []
  | .file name _ rest =>
      let path := Path.child directory name
      (rest.accepted exclusions levels directory).map fun others =>
        if exclusions.accepts path then path :: others else others
  | .dir name content rest =>
      let path := Path.child directory name
      let others := rest.accepted exclusions levels directory
      if exclusions.prunes name path || levels == 0 then
        others
      else if Path.isTooLong path then
        .error path
      else
        match content.accepted exclusions (levels - 1) path with
        | .error path => .error path
        | .ok inner => others.map fun others => inner ++ others

/-- The files to work on: a root that is a file itself, or the accepted files
below a root that is a directory.  If there is an error the path it is found at
comes with it. -/
def Disk.walk (disk : Disk) (exclusions : Exclusions) (root : Path) :
    Except (Path × DiskError) (List Path) :=
  match disk.entry root with
  | .error e => .error (root, e)
  | .ok (.file _) => .ok (if exclusions.accepts root then [root] else [])
  | .ok (.dir content) =>
      (content.accepted exclusions (depthLimit - 1) root).mapError fun path =>
        (path, .nameTooLong)

end SourceTidy
