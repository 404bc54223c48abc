import SourceTidy.Text.Basic

/-!
# Patterns for paths

A pattern is a text with wildcards: `?` for one character, `*` for any run of
characters, `**` for any number of whole directories, and characters in brackets
for one out of a set or one outside it.  All wildcards also stand for slashes.
-/

namespace SourceTidy
namespace Glob

inductive Choice where
  | single (c : Char)
  | range (low high : Char)
  deriving DecidableEq, Repr

def Choice.contains (c : Char) : Choice → Bool
  | .single d => c == d
  | .range low high => low.toNat ≤ c.toNat && c.toNat ≤ high.toNat

inductive Token where
  | char (c : Char)
  | anyChar
  | anyRun
  /-- Nothing, or any run of characters up to a slash. -/
  | anyDirs
  | within (set : List Choice)
  | without (set : List Choice)
  deriving DecidableEq, Repr

end Glob

abbrev Glob := List Glob.Token

namespace Glob

/-!
# Reading a pattern
-/

def choices : Text → List Choice
  | [] => []
  | low :: '-' :: high :: rest => .range low high :: choices rest
  | c :: rest => .single c :: choices rest

inductive Position where
  /-- Outside brackets.  The name of a directory may begin here if `fresh`. -/
  | outside (fresh : Bool)
  | inSet (negated : Bool) (read : Text)
  deriving DecidableEq, Repr

def setToken (negated : Bool) (read : Text) : Token :=
  if negated then .without (choices read) else .within (choices read)

/-- Read a pattern from a position on.  Two stars stand for whole directories
only, so they have to begin and to end one.  A set has at least one character,
which may be a closing bracket, and has to be closed. -/
def parseFrom? : Position → Text → Option Glob
  | .outside _, [] => some []
  | .inSet _ _, [] => none
  | .inSet negated read, c :: rest =>
      if c = ']' then
        (parseFrom? (.outside false) rest).map (setToken negated read :: ·)
      else
        parseFrom? (.inSet negated (read ++ [c])) rest
  | .outside _, '?' :: rest => (parseFrom? (.outside false) rest).map (.anyChar :: ·)
  | .outside true, ['*', '*'] => some [.anyDirs]
  | .outside true, '*' :: '*' :: '/' :: rest =>
      (parseFrom? (.outside true) rest).map (.anyDirs :: ·)
  | .outside _, '*' :: '*' :: _ => none
  | .outside _, '*' :: rest => (parseFrom? (.outside false) rest).map (.anyRun :: ·)
  | .outside _, '[' :: '!' :: c :: rest => parseFrom? (.inSet true [c]) rest
  | .outside _, ['[', '!'] => none
  | .outside _, '[' :: c :: rest => parseFrom? (.inSet false [c]) rest
  | .outside _, ['['] => none
  | .outside _, c :: rest => (parseFrom? (.outside (c == '/')) rest).map (.char c :: ·)

def parse? (text : Text) : Option Glob :=
  parseFrom? (.outside true) text

/-!
# Matching

An attempt can fail in two ways.  A mismatch leaves it open whether a wildcard
further left could take more text.  When the text is used up, taking more of it
is of no help, and the whole match fails.
-/

/-- How an attempt to match ends. -/
inductive Outcome where
  | matched
  | mismatch
  | usedUp
  deriving DecidableEq, Repr

def Token.fits (c : Char) : Token → Bool
  | .char d => c == d
  | .anyChar => true
  | .within set => set.any (·.contains c)
  | .without set => !set.any (·.contains c)
  | .anyRun => false
  | .anyDirs => false

/-- Let a wildcard take one character after the other, and try the rest of the
pattern after each of them, or only after slashes. -/
def takeMore (rest : Text → Outcome) (onlyDirs : Bool) : Text → Outcome
  | [] => rest []
  | c :: text =>
      if onlyDirs && c != '/' then
        takeMore rest onlyDirs text
      else
        match rest text with
        | .mismatch => takeMore rest onlyDirs text
        | outcome => outcome

def takeAny (rest : Text → Outcome) (onlyDirs : Bool) (text : Text) : Outcome :=
  match rest text with
  | .mismatch => takeMore rest onlyDirs text
  | outcome => outcome

def attempt : Glob → Text → Outcome
  | [], [] => .matched
  | [], _ :: _ => .mismatch
  | .anyRun :: tokens, text => takeAny (attempt tokens) false text
  | .anyDirs :: tokens, text => takeAny (attempt tokens) true text
  | _ :: _, [] => .usedUp
  | token :: tokens, c :: text => if token.fits c then attempt tokens text else .mismatch

def isMatch (glob : Glob) (text : Text) : Bool :=
  attempt glob text == .matched

end Glob
end SourceTidy
