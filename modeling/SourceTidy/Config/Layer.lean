import SourceTidy.Config.Basic
import SourceTidy.Toml.Document

/-!
# Configuration layers

A configuration file is a layer: it sets some fields of the configuration and
leaves the others as the layers below have set them.  Patterns and aliases are
added to those of the layers below.
-/

namespace SourceTidy

/-- The fields that a configuration file sets. -/
structure Layer where
  indentWidth? : Option Nat
  replaceTabs? : Option Bool
  fixIndent? : Option Bool
  fixDocu? : Option Bool
  excludedDirs? : Option (List Text)
  excludedExtensions? : Option (List Text)
  canonicalKeys? : Option (List Text)
  exclude : List Text
  keyAliases : Dictionary
  deriving DecidableEq, Repr

/-!
# Putting a layer on top of a configuration
-/

/-- Add patterns that are not there yet, in order. -/
def addPatterns (patterns more : List Text) : List Text :=
  more.foldl (fun all pattern => if all.contains pattern then all else all ++ [pattern]) patterns

def Config.withLayer (config : Config) (layer : Layer) : Config where
  indentWidth := layer.indentWidth?.getD config.indentWidth
  replaceTabs := layer.replaceTabs?.getD config.replaceTabs
  fixIndent := layer.fixIndent?.getD config.fixIndent
  fixDocu := layer.fixDocu?.getD config.fixDocu
  excludedDirs := layer.excludedDirs?.getD config.excludedDirs
  excludedExtensions := layer.excludedExtensions?.getD config.excludedExtensions
  exclude := addPatterns config.exclude layer.exclude
  keyAliases := config.keyAliases.insertAll layer.keyAliases
  canonicalKeys := layer.canonicalKeys?.getD config.canonicalKeys

/-!
# Reading a layer

Keys that mean nothing are ignored, but a field with a value of the wrong kind
spoils the whole layer.
-/

namespace Toml

def Value.toCount? : Value → Option Nat
  | .integer (.ofNat n) => some n
  | _ => none

def Value.toBool? : Value → Option Bool
  | .boolean b => some b
  | _ => none

def Value.toText? : Value → Option Text
  | .string text => some text
  | _ => none

def Value.toTexts? : Value → Option (List Text)
  | .array items => items.mapM Value.toText?
  | _ => none

/-- The one key under which a date or time presents itself as a table. -/
def dateTimeKey : Text := "$__toml_private_datetime".toList

def textEntry? (entry : Text × Value) : Option (Text × Text) :=
  entry.2.toText?.map fun text => (entry.1, text)

/-- A table of strings.  A date or time counts as a table with one key. -/
def Value.toDictionary? : Value → Option Dictionary
  | .table _ entries => (entries.mapM textEntry?).map Dictionary.ofList
  | .dateTime text => some [(dateTimeKey, text)]
  | _ => none

/-- The value of a field, which may be missing but must not be of another kind. -/
def Entries.field? (entries : Entries) (name : String) (kind : Value → Option α) :
    Option (Option α) :=
  match entries.lookup name.toList with
  | none => some none
  | some value => (kind value).map some

end Toml

def Layer.ofEntries? (entries : Toml.Entries) : Option Layer := do
  let indentWidth? ← entries.field? "indent_width" Toml.Value.toCount?
  let replaceTabs? ← entries.field? "replace_tabs" Toml.Value.toBool?
  let fixIndent? ← entries.field? "fix_indent" Toml.Value.toBool?
  let fixDocu? ← entries.field? "fix_docu" Toml.Value.toBool?
  let excludedDirs? ← entries.field? "excluded_dirs" Toml.Value.toTexts?
  let excludedExtensions? ← entries.field? "excluded_extensions" Toml.Value.toTexts?
  let canonicalKeys? ← entries.field? "canonical_keys" Toml.Value.toTexts?
  let exclude ← entries.field? "exclude" Toml.Value.toTexts?
  let keyAliases ← entries.field? "key_aliases" Toml.Value.toDictionary?
  pure
    { indentWidth? := indentWidth?
      replaceTabs? := replaceTabs?
      fixIndent? := fixIndent?
      fixDocu? := fixDocu?
      excludedDirs? := excludedDirs?
      excludedExtensions? := excludedExtensions?
      canonicalKeys? := canonicalKeys?
      exclude := exclude.getD []
      keyAliases := keyAliases.getD [] }

def Layer.parse? (text : Text) : Option Layer :=
  (Toml.parse? text).bind Layer.ofEntries?

end SourceTidy
