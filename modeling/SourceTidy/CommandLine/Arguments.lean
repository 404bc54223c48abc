import SourceTidy.Files.Path
import SourceTidy.Text.Decimal

/-!
# Command line arguments

Arguments are read from left to right.  An option without an attached value waits
for the next argument, and what has been waiting is checked only when something
else turns up or the arguments end.  The first thing that is wrong, or the first
request for help or the version, decides the outcome.
-/

namespace SourceTidy
namespace CommandLine

inductive Flag where
  | noTabs
  | noIndent
  | noDocu
  | simulate
  | debug
  | silent
  deriving DecidableEq, Repr

inductive Setting where
  | indentWidth
  | exclude
  | skipExtension
  | config
  deriving DecidableEq, Repr

inductive Switch where
  | flag (flag : Flag)
  | setting (setting : Setting)
  | help
  | version
  deriving DecidableEq, Repr

structure Arguments where
  path : Path
  indentWidth : Option Nat
  noTabs : Bool
  noIndent : Bool
  noDocu : Bool
  simulate : Bool
  exclude : List Text
  skipExtensions : List Text
  config : Option Path
  debug : Bool
  silent : Bool
  deriving DecidableEq, Repr

inductive UsageError where
  | missingPath
  | unknownArgument
  | invalidValue
  | notANumber
  | repeated
  | unneededValue
  deriving DecidableEq, Repr

inductive Stop where
  | help
  | version
  | error (error : UsageError)
  deriving DecidableEq, Repr

/-!
# Names of options
-/

def longNames : List (Text × Switch) :=
  [("indent-width".toList, .setting .indentWidth),
   ("no-tabs".toList, .flag .noTabs),
   ("no-indent".toList, .flag .noIndent),
   ("no-docu".toList, .flag .noDocu),
   ("simulate".toList, .flag .simulate),
   ("exclude".toList, .setting .exclude),
   ("skip-ext".toList, .setting .skipExtension),
   ("config".toList, .setting .config),
   ("debug".toList, .flag .debug),
   ("silent".toList, .flag .silent),
   ("help".toList, .help),
   ("version".toList, .version)]

def shortNames : List (Char × Switch) :=
  [('w', .setting .indentWidth),
   ('n', .flag .simulate),
   ('e', .setting .exclude),
   ('x', .setting .skipExtension),
   ('c', .setting .config),
   ('D', .flag .debug),
   ('S', .flag .silent),
   ('h', .help),
   ('V', .version)]

/-!
# The state of the reading
-/

/-- Something that has been read but not checked. -/
inductive Pending where
  | path (text : Text)
  | setting (setting : Setting) (value? : Option Text)
  deriving DecidableEq, Repr

/-- What has been read so far. -/
structure Draft where
  path? : Option Path
  indentWidth? : Option Nat
  config? : Option Path
  exclude : List Text
  skipExtensions : List Text
  flags : List Flag
  pending? : Option Pending
  /-- Whether a double dash has been read, after which everything is a path. -/
  onlyPaths : Bool
  deriving DecidableEq, Repr

namespace Draft

def start : Draft where
  path? := none
  indentWidth? := none
  config? := none
  exclude := []
  skipExtensions := []
  flags := []
  pending? := none
  onlyPaths := false

/-- The largest number that a width may be. -/
def largestNumber : Nat := 18446744073709551615

/-- A number in decimal digits, which may have a plus sign in front. -/
def number? (text : Text) : Option Nat :=
  let digits := (Text.afterBeginning? ['+'] text).getD text
  if digits.isEmpty || !digits.all Char.isDigit then none
  else if Text.decimalValue digits ≤ largestNumber then some (Text.decimalValue digits)
  else none

def store (draft : Draft) (value : Text) : Setting → Except Stop Draft
  | .indentWidth =>
      if draft.indentWidth?.isSome then .error (.error .repeated)
      else
        match number? value with
        | some n => .ok { draft with indentWidth? := some n }
        | none => .error (.error .notANumber)
  | .config =>
      if draft.config?.isSome then .error (.error .repeated)
      else if value.isEmpty then .error (.error .invalidValue)
      else .ok { draft with config? := some (Text.bytes value) }
  | .exclude => .ok { draft with exclude := draft.exclude ++ [value] }
  | .skipExtension => .ok { draft with skipExtensions := draft.skipExtensions ++ [value] }

def settle (draft : Draft) : Except Stop Draft :=
  let settled := { draft with pending? := none }
  match draft.pending? with
  | none => .ok settled
  | some (.path text) =>
      if text.isEmpty then .error (.error .invalidValue)
      else .ok { settled with path? := some (Text.bytes text) }
  | some (.setting _ none) => .error (.error .invalidValue)
  | some (.setting setting (some value)) => settled.store value setting

def take (draft : Draft) (switch : Switch) : Except Stop Draft := do
  let draft ← draft.settle
  match switch with
  | .help => .error .help
  | .version => .error .version
  | .flag flag =>
      if draft.flags.contains flag then .error (.error .repeated)
      else .ok { draft with flags := draft.flags ++ [flag] }
  | .setting setting => .ok { draft with pending? := some (.setting setting none) }

def takeAttached (draft : Draft) (setting : Setting) (value : Text) : Except Stop Draft := do
  let draft ← draft.settle
  draft.store value setting

def takePath (draft : Draft) (text : Text) : Except Stop Draft :=
  match draft.path?, draft.pending? with
  | some _, _ => .error (.error .unknownArgument)
  | none, some (.path _) => .error (.error .unknownArgument)
  | none, _ => do
      let draft ← draft.settle
      .ok { draft with pending? := some (.path text) }

def takeLong (draft : Draft) (text : Text) : Except Stop Draft :=
  match Text.cutBefore? (· == '=') text with
  | none =>
      match longNames.lookup text with
      | none => .error (.error .unknownArgument)
      | some switch => draft.take switch
  | some (name, value) =>
      match longNames.lookup name with
      | none => .error (.error .unknownArgument)
      | some (.setting setting) => draft.takeAttached setting (value.drop 1)
      | some _ => .error (.error .unneededValue)

/-- Take options by their short names.  What follows the name of an option with a
value is that value, after an equals sign if there is one. -/
def takeShort (draft : Draft) : Text → Except Stop Draft
  | [] => .ok draft
  | c :: rest =>
      match shortNames.lookup c with
      | none => .error (.error .unknownArgument)
      | some (.setting setting) =>
          if rest.isEmpty then draft.take (.setting setting)
          else draft.takeAttached setting ((Text.afterBeginning? ['='] rest).getD rest)
      | some switch =>
          match draft.take switch with
          | .error stop => .error stop
          | .ok draft => draft.takeShort rest

def takePlain (draft : Draft) (text : Text) : Except Stop Draft :=
  match draft.pending? with
  | some (.setting setting none) =>
      .ok { draft with pending? := some (.setting setting (some text)) }
  | _ => draft.takePath text

def takeNext (draft : Draft) (text : Text) : Except Stop Draft :=
  if draft.onlyPaths then
    draft.takePath text
  else
    match text with
    | ['-', '-'] => .ok { draft with onlyPaths := true }
    | '-' :: '-' :: rest => draft.takeLong rest
    | '-' :: c :: rest => draft.takeShort (c :: rest)
    | text => draft.takePlain text

def finish (draft : Draft) : Except Stop Arguments := do
  let draft ← draft.settle
  match draft.path? with
  | none => .error (.error .missingPath)
  | some path =>
      .ok
        { path := path
          indentWidth := draft.indentWidth?
          noTabs := draft.flags.contains .noTabs
          noIndent := draft.flags.contains .noIndent
          noDocu := draft.flags.contains .noDocu
          simulate := draft.flags.contains .simulate
          exclude := draft.exclude
          skipExtensions := draft.skipExtensions
          config := draft.config?
          debug := draft.flags.contains .debug
          silent := draft.flags.contains .silent }

end Draft

def parse (arguments : List Text) : Except Stop Arguments := do
  let draft ← arguments.foldlM Draft.takeNext Draft.start
  draft.finish

end CommandLine
end SourceTidy
