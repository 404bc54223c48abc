import SourceTidy.Text.Basic

/-!
# Values of configuration files

A configuration file is a table of keys and values.  For each table it is kept in
which way it came about, because that decides whether it may be named again.
-/

namespace SourceTidy
namespace Toml

/-- How a table came about. -/
inductive TableKind where
  /-- Written between braces; nothing can be added to it. -/
  | inline
  | header
  /-- Part of the way to a table named by a header. -/
  | implied
  /-- Part of the way to a value with a dotted key. -/
  | dotted
  deriving DecidableEq, Repr

inductive Value where
  | string (text : Text)
  | integer (n : Int)
  | float
  | boolean (b : Bool)
  | dateTime (text : Text)
  | array (items : List Value)
  | table (kind : TableKind) (entries : List (Text × Value))
  | tables (items : List (List (Text × Value)))

abbrev Entries := List (Text × Value)

namespace Entries

def replace (entries : Entries) (key : Text) (value : Value) : Entries :=
  entries.map fun (k, v) => if k = key then (k, value) else (k, v)

/-- Change a table below this one, which is found by following keys.  Tables that
are not there are made on the way, and of tables with the same header the last
one is entered.  A dotted key must not enter a table that a header has named, and
nothing enters a table between braces or a value of another kind. -/
def descend (byDots : Bool) (change : TableKind → Entries → Option Entries) :
    List Text → TableKind → Entries → Option Entries
  | [], kind, entries => change kind entries
  | key :: keys, _, entries =>
      match entries.lookup key with
      | none =>
          let kind := if byDots then TableKind.dotted else .implied
          (descend byDots change keys kind []).map fun inner =>
            entries ++ [(key, .table kind inner)]
      | some (.table kind inner) =>
          if kind = .inline ∨ (byDots = true ∧ kind = .header) then
            none
          else
            (descend byDots change keys kind inner).map fun inner =>
              entries.replace key (.table kind inner)
      | some (.tables items) =>
          match items.getLast? with
          | none => none
          | some inner =>
              (descend byDots change keys .header inner).map fun inner =>
                entries.replace key (.tables (items.dropLast ++ [inner]))
      | some _ => none

/-- Add a key that is not there yet.  A table reached by dots has to be one that
dots have made. -/
def addKey (key : Text) (value : Value) (byDots : Bool) (kind : TableKind)
    (entries : Entries) : Option Entries :=
  if byDots ≠ (kind == .dotted) then none
  else if (entries.lookup key).isSome then none
  else some (entries ++ [(key, value)])

def addDotted (way : List Text) (key : Text) (value : Value) (kind : TableKind)
    (entries : Entries) : Option Entries :=
  descend true (addKey key value (!way.isEmpty)) way kind entries

def openTable (way : List Text) (key : Text) (entries : Entries) : Option Entries :=
  descend false
    (fun _ entries =>
      match entries.lookup key with
      | none => some (entries ++ [(key, .table .header [])])
      | some (.table .implied inner) => some (entries.replace key (.table .header inner))
      | some _ => none)
    way .header entries

def openNextTable (way : List Text) (key : Text) (entries : Entries) : Option Entries :=
  descend false
    (fun _ entries =>
      match entries.lookup key with
      | none => some (entries ++ [(key, .tables [[]])])
      | some (.tables items) => some (entries.replace key (.tables (items ++ [[]])))
      | some _ => none)
    way .header entries

end Entries
end Toml
end SourceTidy
