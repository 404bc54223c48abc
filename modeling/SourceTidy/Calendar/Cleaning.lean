import SourceTidy.Text.WordChar

/-!
# Cleaning a written date

Before a date is read its cosmetics are removed: the suffix of an ordinal day,
the dot of an abbreviated month, uneven spacing around commas, and repeated
blanks.  Letters are compared without regard to case, where the long s counts as
an s and the sign for kelvin as a k.
-/

namespace SourceTidy
namespace Calendar

def foldCase (c : Char) : Char :=
  if c = '\u017F' then 's' else if c = '\u212A' then 'k' else c.toLower

def isOrdinalSuffix (c d : Char) : Bool :=
  [('s', 't'), ('n', 'd'), ('r', 'd'), ('t', 'h')].contains (foldCase c, foldCase d)

/-- A word of one or two digits and an ordinal suffix loses the suffix. -/
def withoutSuffix : Text → Text
  | [a, c, d] =>
      if Text.isDecimalDigit a && isOrdinalSuffix c d then [a] else [a, c, d]
  | [a, b, c, d] =>
      if Text.isDecimalDigit a && Text.isDecimalDigit b && isOrdinalSuffix c d then [a, b]
      else [a, b, c, d]
  | word => word

def dropOrdinals (text : Text) : Text :=
  ((Text.runs Text.isWordChar text).map withoutSuffix).flatten

def isAbbreviation (word : Text) : Bool :=
  (word.length == 3 || word.length == 4) && word.all fun c => (foldCase c).isLower

/-- Join runs of word characters and others, leaving out a dot right after an
abbreviation. -/
def joinWithoutDots : List Text → Text
  | [] => []
  | [run] => run
  | word :: ('.' :: gap) :: rest =>
      if isAbbreviation word then
        word ++ gap ++ joinWithoutDots rest
      else
        word ++ joinWithoutDots (('.' :: gap) :: rest)
  | run :: next :: rest => run ++ joinWithoutDots (next :: rest)

def dropAbbreviationDots (text : Text) : Text :=
  joinWithoutDots (Text.runs Text.isWordChar text)

/-- One space between words, and after each comma but not before it. -/
def evenSpacing (text : Text) : Text :=
  Text.trim ([',', ' '].intercalate ((List.splitOn ',' text).map Text.singleSpaced))

def clean (text : Text) : Text :=
  evenSpacing (dropAbbreviationDots (dropOrdinals text))

end Calendar
end SourceTidy
