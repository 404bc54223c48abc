import SourceTidy.Text.Basic

/-!
# Blank characters

A blank is a character with the Unicode property White_Space.  The zero-width
space and the byte order mark do not have it.  Trimming removes blanks at the
ends of a text, and the words of a text are what stands between its blanks.
-/

namespace SourceTidy
namespace Text

def inRanges (table : List (Nat × Nat)) (n : Nat) : Bool :=
  table.any fun (low, high) => low ≤ n && n ≤ high

/-- The code points of White_Space. -/
def blankRanges : List (Nat × Nat) :=
  [(0x09, 0x0D), (0x20, 0x20), (0x85, 0x85), (0xA0, 0xA0), (0x1680, 0x1680),
   (0x2000, 0x200A), (0x2028, 0x2029), (0x202F, 0x202F), (0x205F, 0x205F),
   (0x3000, 0x3000)]

def isBlank (c : Char) : Bool :=
  inRanges blankRanges c.toNat

/-!
# Trimming
-/

def trimStart (text : Text) : Text :=
  text.dropWhile isBlank

def trimEnd (text : Text) : Text :=
  (text.reverse.dropWhile isBlank).reverse

def trim (text : Text) : Text :=
  trimEnd (trimStart text)

/-!
# Words
-/

def words (text : Text) : List Text :=
  (text.splitOnP isBlank).filter fun word => !word.isEmpty

def singleSpaced (text : Text) : Text :=
  [' '].intercalate (words text)

end Text
end SourceTidy
