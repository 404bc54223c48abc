import SourceTidy.DocBlock.Line
import SourceTidy.Proofs.Calendar.Canonical
import SourceTidy.Proofs.Text.Dictionary

/-!
# Canonical lines

A canonical line is its own canonical form.  Its key is read back from the column
that it was written in and stands for itself, its value comes back trimmed, and a
continuation comes back as a continuation.
-/

namespace SourceTidy
namespace DocBlock

/-!
# Keys that can be read back
-/

/-- A key that is found again after it has been written in its column. -/
def Legible (key : Text) : Prop :=
  Text.trim key = key ∧ key ≠ [] ∧ ':' ∉ key ∧
    Text.byteLength (Text.padRight keyColumn key) ≤ keyLimit ∧
    endsInScheme (Text.padRight keyColumn key) = false

instance (key : Text) : Decidable (Legible key) :=
  inferInstanceAs (Decidable (_ ∧ _))

/-- Every key that a table hands out can be read back and stands for itself. -/
def KeyTable.Settled (keys : KeyTable) : Prop :=
  ∀ key target, keys.resolve? key = some target →
    Legible target ∧ keys.resolve? target = some target

theorem KeyTable.resolve?_cases {keys : KeyTable} {key target : Text}
    (h : keys.resolve? key = some target) :
    keys.aliases.get? key = some target ∨ target = key ∧ key ∈ keys.canonical := by
  rw [KeyTable.resolve?] at h
  split at h
  · next value hvalue =>
      cases h
      exact Or.inl hvalue
  · split at h
    · next hcanonical =>
        cases h
        exact Or.inr ⟨rfl, List.contains_iff_mem.mp hcanonical⟩
    · cases h

theorem KeyTable.resolve?_of_alias {keys : KeyTable} {key target : Text}
    (h : keys.aliases.get? key = some target) : keys.resolve? key = some target := by
  rw [KeyTable.resolve?, h]

theorem KeyTable.resolve?_of_mem {keys : KeyTable} {key : Text}
    (halias : keys.aliases.get? key = none) (h : key ∈ keys.canonical) :
    keys.resolve? key = some key := by
  rw [KeyTable.resolve?, halias]
  exact if_pos (List.contains_iff_mem.mpr h)

theorem KeyTable.mem_of_resolve? {keys : KeyTable} {key target : Text}
    (h : keys.resolve? key = some target) :
    target ∈ keys.aliases.map Prod.snd ++ keys.canonical := by
  apply List.mem_append.mpr
  rcases KeyTable.resolve?_cases h with halias | ⟨rfl, hcanonical⟩
  · exact Or.inl (List.mem_map.mpr ⟨_, Dictionary.mem_of_get? halias, rfl⟩)
  · exact Or.inr hcanonical

theorem settled_standard : KeyTable.standard.Settled := by
  have htargets : ∀ target ∈ KeyTable.standard.aliases.map Prod.snd ++ KeyTable.standard.canonical,
      Legible target ∧ KeyTable.standard.resolve? target = some target := by
    decide +kernel
  intro key target h
  exact htargets target (KeyTable.mem_of_resolve? h)

/-!
# Reading a line
-/

def Interior.ofText (text : Text) : Interior :=
  if text.isEmpty then
    .empty
  else
    match Text.cutBefore? (· == ':') text with
    | some (before, after) =>
        if Text.byteLength before ≤ keyLimit && !endsInScheme before then
          .entry (Text.trim before) (Text.trim (after.drop 1))
        else
          .continuation text
    | none => .continuation text

theorem Interior.ofLine_eq (line : Text) :
    Interior.ofLine line = Interior.ofText (Text.trim (withoutAsterisk line)) :=
  rfl

theorem withoutAsterisk_cons (rest : Text) : withoutAsterisk ('*' :: rest) = rest := by
  simp [withoutAsterisk, Text.afterBeginning?]

theorem Interior.ofText_eq_continuation {text free : Text}
    (h : Interior.ofText text = .continuation free) : text = free ∧ text ≠ [] := by
  rw [Interior.ofText] at h
  split at h
  · cases h
  · next hempty =>
      have hne : text ≠ [] := by simpa using hempty
      split at h
      · split at h
        · cases h
        · cases h
          exact ⟨rfl, hne⟩
      · cases h
        exact ⟨rfl, hne⟩

theorem Interior.ofText_eq_entry {text key value : Text}
    (h : Interior.ofText text = .entry key value) :
    ∃ before after, text = before ++ ':' :: after ∧ key = Text.trim before ∧
      value = Text.trim after := by
  rw [Interior.ofText] at h
  split at h
  · cases h
  · rcases Text.cutBefore?_cases (· == ':') text with
      hnone | ⟨before, c, after, htext, hbefore, hc⟩
    · rw [Text.cutBefore?_eq_none hnone] at h
      cases h
    · have hc' : c = ':' := by simpa using hc
      subst hc'
      rw [htext, Text.cutBefore?_append hbefore rfl] at h
      simp only [List.drop_one, List.tail_cons] at h
      split at h
      · cases h
        exact ⟨before, after, htext, rfl, rfl⟩
      · cases h

theorem trimmed_of_ofLine {line key value : Text} (h : Interior.ofLine line = .entry key value) :
    Text.Trimmed value := by
  rw [Interior.ofLine_eq] at h
  rcases Interior.ofText_eq_entry h with ⟨_, after, _, _, rfl⟩
  exact Text.trimmed_trim after

theorem Interior.ofText_colon {before : Text} (hcolon : ':' ∉ before) (after : Text) :
    Interior.ofText (before ++ ':' :: after) =
      if Text.byteLength before ≤ keyLimit && !endsInScheme before then
        .entry (Text.trim before) (Text.trim after)
      else
        .continuation (before ++ ':' :: after) := by
  have hne : (before ++ ':' :: after).isEmpty = false := by simp
  rw [Interior.ofText, hne, Text.cutBefore?_append (Text.beq_eq_false_of_not_mem hcolon) rfl]
  rfl

theorem Interior.ofText_append {before : Text} (hcolon : ':' ∉ before)
    (hshort : Text.byteLength before ≤ keyLimit) (hscheme : endsInScheme before = false)
    (after : Text) :
    Interior.ofText (before ++ ':' :: after) =
      .entry (Text.trim before) (Text.trim after) := by
  rw [Interior.ofText_colon hcolon, if_pos]
  simp [hshort, hscheme]

/-!
# Writing an entry and reading it back
-/

theorem entryLine_eq (key value : Text) :
    entryLine key value =
      '*' :: ' ' :: (Text.padRight keyColumn key ++ ':' :: Text.trimEnd (' ' :: value)) := by
  have hline : "* ".toList ++ Text.padRight keyColumn key ++ ": ".toList ++ value =
      ('*' :: ' ' :: Text.padRight keyColumn key) ++ ':' :: ' ' :: value := by
    simp
  rw [entryLine, hline, Text.trimEnd_append_cons _ _ (by decide)]
  rfl

theorem trim_padRight {key : Text} (h : Text.trim key = key) (width : Nat) :
    Text.trim (Text.padRight width key) = key := by
  rw [Text.padRight, Text.trim_append_blank, h]
  intro c hc
  rw [List.eq_of_mem_replicate hc]
  decide

theorem trim_cons_space (text : Text) : Text.trim (' ' :: text) = Text.trim text :=
  Text.trim_append_of_blank Text.isBlank_space text

theorem trimmed_append_colon {before after : Text}
    (hbefore : ∀ c, before.head? = some c → Text.isBlank c = false)
    (hafter : Text.trimEnd after = after) : Text.Trimmed (before ++ ':' :: after) where
  first := by
    intro c hc
    cases hfirst : before.head? with
    | none =>
        rw [List.head?_eq_none_iff.mp hfirst] at hc
        cases hc
        decide
    | some d =>
        rw [List.head?_append, hfirst] at hc
        cases hc
        exact hbefore c hfirst
  last := by
    intro c hc
    rw [← hafter, ← Text.trimEnd_append_cons _ _ (by decide)] at hc
    exact Text.getLast?_trimEnd hc

theorem ofLine_entryLine {key value : Text} (hkey : Legible key) (hvalue : Text.Trimmed value) :
    Interior.ofLine (entryLine key value) = .entry key value := by
  rcases hkey with ⟨htrim, hne, hcolon, hshort, hscheme⟩
  have hcolon' : ':' ∉ Text.padRight keyColumn key := by
    simp [Text.padRight, hcolon]
  have hfirst : ∀ c, (Text.padRight keyColumn key).head? = some c → Text.isBlank c = false := by
    intro c hc
    cases key with
    | nil => exact absurd rfl hne
    | cons d key =>
        apply (Text.trimmed_trim (d :: key)).first c
        rw [htrim]
        exact hc
  have hentry := trimmed_append_colon hfirst (Text.trimEnd_trimEnd (' ' :: value))
  rw [Interior.ofLine_eq, entryLine_eq, withoutAsterisk_cons, trim_cons_space, hentry.trim_eq,
    Interior.ofText_append hcolon' hshort hscheme, trim_padRight htrim, Text.trim_trimEnd,
    trim_cons_space, hvalue.trim_eq]

/-!
# The canonical form
-/

/-- What a canonical line is made from. -/
theorem canonicalLine_cases {keys : KeyTable} {line out : Text}
    (h : canonicalLine keys line = .ok out) :
    Interior.ofLine line = .empty ∧ out = ['*'] ∨
      (∃ text, Interior.ofLine line = .continuation text ∧ out = continuationLead ++ text) ∨
      ∃ key value target written, Interior.ofLine line = .entry key value ∧
        keys.resolve? key = some target ∧ entryValue target value = .ok written ∧
        out = entryLine target written := by
  rw [canonicalLine] at h
  cases hline : Interior.ofLine line with
  | empty =>
      rw [hline] at h
      cases h
      exact Or.inl ⟨rfl, rfl⟩
  | continuation text =>
      rw [hline] at h
      cases h
      exact Or.inr (Or.inl ⟨text, rfl, rfl⟩)
  | entry key value =>
      rw [hline] at h
      refine Or.inr (Or.inr ?_)
      cases htarget : keys.resolve? key with
      | none => simp [htarget] at h
      | some target =>
          cases hvalue : entryValue target value with
          | error fault => simp [htarget, hvalue] at h
          | ok written =>
              simp only [htarget, hvalue] at h
              cases h
              exact ⟨key, value, target, written, rfl, htarget, hvalue, rfl⟩

theorem entryValue_cases {key value written : Text} (h : entryValue key value = .ok written) :
    written = value ∧ key ≠ dateKey ∨ key = dateKey ∧ Calendar.canonical? value = some written := by
  rw [entryValue] at h
  split at h
  · next hkey =>
      rw [dateValue] at h
      split at h
      · next canonical hcanonical =>
          cases h
          exact Or.inr ⟨hkey, hcanonical⟩
      · cases h
  · next hkey =>
      cases h
      exact Or.inl ⟨rfl, hkey⟩

theorem entryValue_entryValue {key value written : Text} (h : entryValue key value = .ok written)
    (hvalue : Text.Trimmed value) :
    Text.Trimmed written ∧ entryValue key written = .ok written := by
  rcases entryValue_cases h with ⟨rfl, _⟩ | ⟨rfl, hcanonical⟩
  · exact ⟨hvalue, h⟩
  · refine ⟨Calendar.trimmed_canonical? hcanonical, ?_⟩
    rw [entryValue, if_pos rfl, dateValue, Calendar.canonical?_canonical? hcanonical]

theorem ofLine_continuationLead {text : Text} (h : Text.Trimmed text) :
    Interior.ofLine (continuationLead ++ text) = Interior.ofText text := by
  have hlead : continuationLead ++ text = '*' :: ' ' :: ' ' :: ' ' :: text := rfl
  rw [hlead, Interior.ofLine_eq, withoutAsterisk_cons, trim_cons_space, trim_cons_space,
    trim_cons_space, h.trim_eq]

theorem ofLine_continuation {line text : Text} (h : Interior.ofLine line = .continuation text) :
    Interior.ofLine (continuationLead ++ text) = .continuation text := by
  rw [Interior.ofLine_eq] at h
  have htext := (Interior.ofText_eq_continuation h).1
  rw [htext] at h
  rw [ofLine_continuationLead (htext ▸ Text.trimmed_trim _), h]

theorem canonicalLine_continuation {keys : KeyTable} {line text : Text}
    (h : Interior.ofLine line = .continuation text) :
    canonicalLine keys (continuationLead ++ text) = .ok (continuationLead ++ text) := by
  rw [canonicalLine, ofLine_continuation h]

theorem canonicalLine_entryLine {keys : KeyTable} {key value : Text} (hkey : Legible key)
    (hself : keys.resolve? key = some key) (hvalue : Text.Trimmed value)
    (hwritten : entryValue key value = .ok value) :
    canonicalLine keys (entryLine key value) = .ok (entryLine key value) := by
  rw [canonicalLine, ofLine_entryLine hkey hvalue]
  simp only [hself, hwritten]

theorem canonicalLine_canonicalLine {keys : KeyTable} (hkeys : keys.Settled) {line out : Text}
    (h : canonicalLine keys line = .ok out) : canonicalLine keys out = .ok out := by
  rcases canonicalLine_cases h with
    ⟨_, rfl⟩ | ⟨text, hline, rfl⟩ | ⟨key, value, target, written, hline, htarget, hvalue, rfl⟩
  · rfl
  · exact canonicalLine_continuation hline
  · have hwritten := entryValue_entryValue hvalue (trimmed_of_ofLine hline)
    have hsettled := hkeys key target htarget
    exact canonicalLine_entryLine hsettled.1 hsettled.2 hwritten.1 hwritten.2

end DocBlock
end SourceTidy
