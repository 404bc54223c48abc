import SourceTidy.Files.Path

/-!
# Directory listings

The content of a directory is a list of named files and directories in
increasing order of the names, and each of these directories has a listing in
turn.  A listing is built from its first entry and the entries after it, so that
one induction goes through the whole tree.
-/

namespace SourceTidy

inductive Listing where
  | empty
  | file (name : Name) (content : ByteArray) (rest : Listing)
  | dir (name : Name) (content : Listing) (rest : Listing)
  deriving DecidableEq, Inhabited

inductive Entry where
  | file (content : ByteArray)
  | dir (content : Listing)

namespace Listing

def cons (name : Name) : Entry → Listing → Listing
  | .file content, rest => .file name content rest
  | .dir content, rest => .dir name content rest

def find? (name : Name) : Listing → Option Entry
  | .empty => none
  | .file other content rest => if name = other then some (.file content) else rest.find? name
  | .dir other content rest => if name = other then some (.dir content) else rest.find? name

def get? (listing : Listing) : List Name → Option Entry
  | [] => some (.dir listing)
  | name :: names =>
      match listing.find? name with
      | some (.dir content) => content.get? names
      | some (.file content) => if names.isEmpty then some (.file content) else none
      | none => none

/-- Put an entry at its place among the names, instead of one with the same name. -/
def set (name : Name) (entry : Entry) : Listing → Listing
  | .empty => cons name entry .empty
  | .file other content rest =>
      if name = other then cons name entry rest
      else if name < other then cons name entry (.file other content rest)
      else .file other content (rest.set name entry)
  | .dir other content rest =>
      if name = other then cons name entry rest
      else if name < other then cons name entry (.dir other content rest)
      else .dir other content (rest.set name entry)

def subdirectory (listing : Listing) (name : Name) : Listing :=
  match listing.find? name with
  | some (.dir content) => content
  | _ => .empty

/-- Put a file at the end of a path of names, with the directories on the way. -/
def putFile (content : ByteArray) : List Name → Listing → Listing
  | [], listing => listing
  | [name], listing => listing.set name (.file content)
  | name :: names, listing =>
      listing.set name (.dir (putFile content names (listing.subdirectory name)))

def putDir : List Name → Listing → Listing
  | [], listing => listing
  | name :: names, listing =>
      listing.set name (.dir (putDir names (listing.subdirectory name)))

def allFiles (above : List Name) : Listing → List (List Name × ByteArray)
  | .empty => []
  | .file name content rest => (above ++ [name], content) :: rest.allFiles above
  | .dir name content rest => content.allFiles (above ++ [name]) ++ rest.allFiles above

end Listing
end SourceTidy
