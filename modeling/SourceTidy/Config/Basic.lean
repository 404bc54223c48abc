import SourceTidy.DocBlock.KeyTable
import SourceTidy.Text.Decimal

/-!
# Configuration

A configuration says which changes are made, with which width and which
documentation keys, and which files are left alone.
-/

namespace SourceTidy

structure Config where
  /-- The target unit of indentation, which is also the width of a tab. -/
  indentWidth : Nat
  replaceTabs : Bool
  fixIndent : Bool
  fixDocu : Bool
  /-- Names of directories that are never entered. -/
  excludedDirs : List Text
  excludedExtensions : List Text
  exclude : List Text
  /-- Older spellings of documentation keys. -/
  keyAliases : Dictionary
  canonicalKeys : List Text
  deriving DecidableEq, Repr

namespace Config

def standard : Config where
  indentWidth := 2
  replaceTabs := true
  fixIndent := true
  fixDocu := true
  excludedDirs := [".git".toList, "Workspace".toList]
  excludedExtensions := ["csproj".toList, "py".toList, "txt".toList]
  exclude := []
  keyAliases := Dictionary.ofList DocBlock.standardAliases
  canonicalKeys := DocBlock.standardKeys

def keyTable (config : Config) : DocBlock.KeyTable where
  aliases := config.keyAliases
  canonical := config.canonicalKeys

/-!
# Validation
-/

def widthLimit : Nat := 16

inductive Defect where
  | noWidth
  | wideWidth (width : Nat)
  | noKeys
  | danglingAlias (spelling target : Text)
  deriving DecidableEq, Repr

def Defect.message : Defect → Text
  | .noWidth => "indent_width must be at least 1".toList
  | .wideWidth width =>
      "indent_width ".toList ++ Text.decimal width ++ " exceeds maximum of ".toList ++
        Text.decimal widthLimit
  | .noKeys => "canonical_keys must not be empty".toList
  | .danglingAlias spelling target =>
      "key alias `".toList ++ spelling ++ "` points at `".toList ++ target ++
        "`, which is not a canonical key".toList

def defect? (config : Config) : Option Defect :=
  if config.indentWidth = 0 then
    some .noWidth
  else if widthLimit < config.indentWidth then
    some (.wideWidth config.indentWidth)
  else if config.canonicalKeys.isEmpty then
    some .noKeys
  else
    match config.keyTable.dangling with
    | [] => none
    | (spelling, target) :: _ => some (.danglingAlias spelling target)

end Config
end SourceTidy
