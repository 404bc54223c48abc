import SourceTidy.Text.Basic

/-!
# Dictionaries and sorted collections of text

A dictionary is a list of keys with their values in increasing order of the
keys.  Putting a key in keeps the order and replaces an earlier value.  Texts are
compared by code points, which is also the order of their UTF-8 bytes.
-/

namespace SourceTidy

/-- Keys with their values, in increasing order of the keys. -/
abbrev Dictionary := List (Text × Text)

namespace Dictionary

def insert (key value : Text) : Dictionary → Dictionary
  | [] => [(key, value)]
  | (k, v) :: rest =>
      if key = k then
        (key, value) :: rest
      else if key < k then
        (key, value) :: (k, v) :: rest
      else
        (k, v) :: insert key value rest

/-- Give every key of a list its value, the last one where a key is repeated. -/
def insertAll (dictionary : Dictionary) (entries : List (Text × Text)) : Dictionary :=
  entries.foldl (fun d (key, value) => d.insert key value) dictionary

def ofList (entries : List (Text × Text)) : Dictionary :=
  insertAll [] entries

def get? (key : Text) : Dictionary → Option Text
  | [] => none
  | (k, v) :: rest => if key = k then some v else get? key rest

theorem get?_insert (dictionary : Dictionary) (key value other : Text) :
    get? other (insert key value dictionary) =
      if other = key then some value else get? other dictionary := by
  induction dictionary with
  | nil => rfl
  | cons entry rest ih =>
      obtain ⟨k, v⟩ := entry
      simp only [insert]
      split
      · next hk =>
          subst hk
          simp only [get?]
          split <;> rfl
      · next hk =>
          split
          · rfl
          · simp only [get?, ih]
            split
            · next ho => rw [if_neg (fun h => hk (h.symm.trans ho))]
            · rfl

end Dictionary

namespace Text

def insertSorted (text : Text) : List Text → List Text
  | [] => [text]
  | other :: rest =>
      if text = other then
        other :: rest
      else if text < other then
        text :: other :: rest
      else
        other :: insertSorted text rest

end Text
end SourceTidy
