/-!
# Text as a list of characters

Lines, keys, paths and configuration values are all lists of characters.  This
module fixes that representation and the searches that the rest of the library
needs: cutting a text at separators, finding the last occurrence of a marker,
and replacing every occurrence of one text by another.
-/

namespace SourceTidy

/-- A text is the list of its characters. -/
abbrev Text := List Char

namespace Text

/-!
# Size

Columns count characters, but limits on positions and lengths count the bytes
of the UTF-8 form.
-/

def byteLength : Text → Nat
  | [] => 0
  | c :: rest => c.utf8Size + byteLength rest

@[simp] theorem byteLength_nil : byteLength [] = 0 := rfl

@[simp] theorem byteLength_cons (c : Char) (rest : Text) :
    byteLength (c :: rest) = c.utf8Size + byteLength rest := rfl

@[simp] theorem byteLength_append (a b : Text) :
    byteLength (a ++ b) = byteLength a + byteLength b := by
  induction a with
  | nil => simp
  | cons c rest ih => simp [ih, Nat.add_assoc]

def padRight (width : Nat) (text : Text) : Text :=
  text ++ List.replicate (width - text.length) ' '

/-!
# Cutting at the first separator
-/

/-- The part of a text before the first character that satisfies `stop`, and the
part from that character on.  There is no cut if no character satisfies it. -/
def cutBefore? (stop : Char → Bool) : Text → Option (Text × Text)
  | [] => none
  | c :: rest =>
      if stop c then
        some ([], c :: rest)
      else
        (cutBefore? stop rest).map fun (before, after) => (c :: before, after)

theorem append_of_cutBefore? {stop : Char → Bool} {text before after : Text}
    (h : cutBefore? stop text = some (before, after)) : text = before ++ after := by
  induction text generalizing before with
  | nil => simp [cutBefore?] at h
  | cons c rest ih =>
      simp only [cutBefore?] at h
      split at h
      · simp only [Option.some.injEq, Prod.mk.injEq] at h
        rw [← h.1, ← h.2, List.nil_append]
      · cases hcut : cutBefore? stop rest with
        | none => simp [hcut] at h
        | some parts =>
            simp only [hcut, Option.map_some, Option.some.injEq, Prod.mk.injEq] at h
            have hrest : rest = parts.1 ++ after := ih (by rw [hcut, ← h.2])
            rw [← h.1, List.cons_append, ← hrest]

def afterBeginning? : Text → Text → Option Text
  | [], text => some text
  | _ :: _, [] => none
  | m :: marker, c :: rest => if m = c then afterBeginning? marker rest else none

theorem afterBeginning?_append (marker rest : Text) :
    afterBeginning? marker (marker ++ rest) = some rest := by
  induction marker with
  | nil => rfl
  | cons m marker ih => simp [afterBeginning?, ih]

theorem eq_append_of_afterBeginning? {marker text rest : Text}
    (h : afterBeginning? marker text = some rest) : text = marker ++ rest := by
  induction marker generalizing text with
  | nil => simpa [afterBeginning?] using h
  | cons m marker ih =>
      cases text with
      | nil => simp [afterBeginning?] at h
      | cons c text =>
          simp only [afterBeginning?] at h
          split at h
          · next hc => rw [ih h, hc, List.cons_append]
          · cases h

/-!
# Occurrences of a marker
-/

def occurs (marker : Text) : Text → Bool
  | [] => marker.isEmpty
  | c :: rest => marker.isPrefixOf (c :: rest) || occurs marker rest

/-- Position at which the last occurrence of `marker` starts. -/
def lastIndex? (marker : Text) : Text → Option Nat
  | [] => if marker.isEmpty then some 0 else none
  | c :: rest =>
      match lastIndex? marker rest with
      | some i => some (i + 1)
      | none => if marker.isPrefixOf (c :: rest) then some 0 else none

/-- Replacement of `old` by `new` from left to right, after `skip` characters
that belong to an occurrence already replaced. -/
def substituteFrom (old new : Text) : Nat → Text → Text
  | _, [] => []
  | skip + 1, _ :: rest => substituteFrom old new skip rest
  | 0, c :: rest =>
      if old.isPrefixOf (c :: rest) then
        new ++ substituteFrom old new (old.length - 1) rest
      else
        c :: substituteFrom old new 0 rest

/-- Replace every occurrence of the nonempty text `old` by `new`, from left to
right and without overlap. -/
def substitute (old new text : Text) : Text :=
  substituteFrom old new 0 text

def dropLeading (c : Char) (text : Text) : Text :=
  text.dropWhile (· == c)

end Text
end SourceTidy
