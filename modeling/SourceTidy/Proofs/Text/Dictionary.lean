import Mathlib.Data.Char
import Mathlib.Data.List.Lex
import SourceTidy.Text.Dictionary

/-!
# Dictionaries in order

Entries are put in at their place, so the keys of a dictionary increase and none of
them comes twice.  In such a dictionary looking up a key finds the only entry that
there is for it, and putting in another dictionary gives its entries precedence.
Collections of texts without values are kept in order in the same way.
-/

namespace SourceTidy
namespace Dictionary

def Ordered (dictionary : Dictionary) : Prop :=
  dictionary.Pairwise fun a b => a.1 < b.1

theorem mem_of_mem_insert {dictionary : Dictionary} {key value : Text} {entry : Text × Text}
    (h : entry ∈ dictionary.insert key value) : entry = (key, value) ∨ entry ∈ dictionary := by
  induction dictionary with
  | nil => exact Or.inl (List.mem_singleton.mp h)
  | cons first rest ih =>
      unfold insert at h
      split at h
      · rcases List.mem_cons.mp h with hnew | hrest
        · exact Or.inl hnew
        · exact Or.inr (List.mem_cons_of_mem first hrest)
      · split at h
        · exact List.mem_cons.mp h
        · rcases List.mem_cons.mp h with hfirst | hrest
          · rw [hfirst]
            exact Or.inr List.mem_cons_self
          · rcases ih hrest with hnew | hmem
            · exact Or.inl hnew
            · exact Or.inr (List.mem_cons_of_mem first hmem)

theorem Ordered.insert {dictionary : Dictionary} (h : dictionary.Ordered) (key value : Text) :
    (dictionary.insert key value).Ordered := by
  induction dictionary with
  | nil => exact List.pairwise_singleton _ _
  | cons first rest ih =>
      rcases List.pairwise_cons.mp h with ⟨hfirst, hrest⟩
      unfold Dictionary.insert
      split
      · next hkey =>
          refine List.pairwise_cons.mpr ⟨?_, hrest⟩
          intro entry hentry
          rw [hkey]
          exact hfirst entry hentry
      · next hkey =>
          split
          · next hless =>
              refine List.pairwise_cons.mpr ⟨?_, h⟩
              intro entry hentry
              rcases List.mem_cons.mp hentry with rfl | hmem
              · exact hless
              · exact List.lt_trans hless (hfirst entry hmem)
          · next hnot =>
              refine List.pairwise_cons.mpr ⟨?_, ih hrest⟩
              intro entry hentry
              rcases mem_of_mem_insert hentry with rfl | hmem
              · rcases lt_trichotomy key first.1 with hless | heq | hgreater
                · exact absurd hless hnot
                · exact absurd heq hkey
                · exact hgreater
              · exact hfirst entry hmem

theorem Ordered.insertAll {dictionary : Dictionary} (h : dictionary.Ordered)
    (entries : List (Text × Text)) : (dictionary.insertAll entries).Ordered := by
  induction entries generalizing dictionary with
  | nil => exact h
  | cons entry rest ih => exact ih (h.insert entry.1 entry.2)

theorem ordered_ofList (entries : List (Text × Text)) : (ofList entries).Ordered :=
  Ordered.insertAll List.Pairwise.nil entries

/-!
# Looking up
-/

theorem mem_of_get? {dictionary : Dictionary} {key value : Text}
    (h : dictionary.get? key = some value) : (key, value) ∈ dictionary := by
  induction dictionary with
  | nil => cases h
  | cons entry rest ih =>
      rw [get?] at h
      split at h
      · next hkey =>
          cases h
          rw [hkey]
          exact List.mem_cons_self
      · exact List.mem_cons_of_mem entry (ih h)

theorem get?_of_mem {dictionary : Dictionary} (h : dictionary.Ordered) {key value : Text}
    (hmem : (key, value) ∈ dictionary) : dictionary.get? key = some value := by
  induction dictionary with
  | nil => cases hmem
  | cons first rest ih =>
      rcases List.pairwise_cons.mp h with ⟨hfirst, hrest⟩
      unfold get?
      rcases List.mem_cons.mp hmem with rfl | hmem
      · rw [if_pos rfl]
      · rw [if_neg, ih hrest hmem]
        rintro rfl
        exact absurd (hfirst _ hmem) (List.lt_irrefl first.1)

theorem get?_eq_none_of_lt {dictionary : Dictionary} {key : Text}
    (h : ∀ entry ∈ dictionary, key < entry.1) : dictionary.get? key = none := by
  induction dictionary with
  | nil => rfl
  | cons first rest ih =>
      unfold get?
      rw [if_neg, ih fun entry hentry => h entry (List.mem_cons_of_mem first hentry)]
      intro heq
      have hless := h first List.mem_cons_self
      rw [heq] at hless
      exact List.lt_irrefl _ hless

theorem get?_insertAll (dictionary : Dictionary) {entries : Dictionary} (h : entries.Ordered)
    (key : Text) :
    (dictionary.insertAll entries).get? key = (entries.get? key).or (dictionary.get? key) := by
  induction entries generalizing dictionary with
  | nil => rfl
  | cons first rest ih =>
      rcases List.pairwise_cons.mp h with ⟨hfirst, hrest⟩
      have hstep := ih (dictionary.insert first.1 first.2) hrest
      rw [get?_insert] at hstep
      change ((dictionary.insert first.1 first.2).insertAll rest).get? key = _
      rw [hstep, get?]
      split
      · next hkey =>
          rw [hkey, get?_eq_none_of_lt hfirst]
          rfl
      · rfl

end Dictionary

namespace Text

/-!
# Sorted collections
-/

variable {text other : Text} {texts : List Text}

theorem mem_insertSorted : other ∈ insertSorted text texts ↔ other = text ∨ other ∈ texts := by
  induction texts with
  | nil => exact List.mem_cons
  | cons first rest ih =>
      unfold insertSorted
      split
      · next heq =>
          rw [heq, List.mem_cons, or_self_left]
      · split
        · exact List.mem_cons
        · rw [List.mem_cons, ih, List.mem_cons]
          exact or_left_comm

theorem pairwise_insertSorted (h : texts.Pairwise (· < ·)) (text : Text) :
    (insertSorted text texts).Pairwise (· < ·) := by
  induction texts with
  | nil => exact List.pairwise_singleton _ _
  | cons first rest ih =>
      rcases List.pairwise_cons.mp h with ⟨hfirst, hrest⟩
      unfold insertSorted
      split
      · exact h
      · next hne =>
          split
          · next hless =>
              refine List.pairwise_cons.mpr ⟨?_, h⟩
              intro other hother
              rcases List.mem_cons.mp hother with rfl | hmem
              · exact hless
              · exact List.lt_trans hless (hfirst other hmem)
          · next hnot =>
              refine List.pairwise_cons.mpr ⟨?_, ih hrest⟩
              intro other hother
              rcases mem_insertSorted.mp hother with rfl | hmem
              · exact lt_of_le_of_ne (not_lt.mp hnot) (Ne.symm hne)
              · exact hfirst other hmem

end Text
end SourceTidy
