import SourceTidy.Config.Basic
import SourceTidy.Proofs.Calendar.Unread
import SourceTidy.Proofs.Config.Validation
import SourceTidy.Proofs.DocBlock.Lines

/-!
# Keys that are read back

A table of keys is stable if every canonical line is its own canonical form.  Whether
it is depends on the lines of its entries: the key is written in its column, and what
stands before the first colon of the line is then read as a key, as part of a web
address or as free text.  All of this is settled before the value comes, so that one
value shows it for all values.
-/

namespace SourceTidy

theorem Text.byteLength_pos {text : Text} (h : text ≠ []) : 0 < Text.byteLength text := by
  rcases List.exists_cons_of_ne_nil h with ⟨c, rest, rfl⟩
  rw [Text.byteLength_cons]
  exact Nat.add_pos_left c.utf8Size_pos _

namespace DocBlock

/-- Every canonical line is its own canonical form. -/
def KeyTable.Stable (keys : KeyTable) : Prop :=
  ∀ line out, canonicalLine keys line = .ok out → canonicalLine keys out = .ok out

/-!
# The keys of lines
-/

/-- A key that some line has.  A key that ends like the beginning of a web address needs
room for a blank after it. -/
def Readable (key : Text) : Prop :=
  Text.trim key = key ∧ ':' ∉ key ∧
    (Text.byteLength key < keyLimit ∨
      Text.byteLength key ≤ keyLimit ∧ endsInScheme key = false)

instance (key : Text) : Decidable (Readable key) :=
  inferInstanceAs (Decidable (_ ∧ _))

theorem readable_of_before {before : Text} (hcolon : ':' ∉ before)
    (hshort : Text.byteLength before ≤ keyLimit) (hscheme : endsInScheme before = false) :
    Readable (Text.trim before) := by
  refine ⟨(Text.trimmed_trim before).trim_eq, fun h => hcolon (Text.mem_of_mem_trim h), ?_⟩
  rcases Text.exists_blanks_around_trim before with ⟨lead, tail, _, _, hbefore⟩
  have hlength := congrArg Text.byteLength hbefore
  rw [Text.byteLength_append, Text.byteLength_append] at hlength
  by_cases hsame : Text.trim before = before
  · rw [hsame]
    exact Or.inr ⟨hshort, hscheme⟩
  · -- Some blank has been removed, which took at least one byte.
    have hblanks : 0 < Text.byteLength (lead ++ tail) := by
      apply Text.byteLength_pos
      intro hnil
      rw [List.append_eq_nil_iff] at hnil
      rw [hnil.1, hnil.2, List.nil_append, List.append_nil] at hbefore
      exact hsame hbefore.symm
    rw [Text.byteLength_append] at hblanks
    exact Or.inl (by omega)

theorem readable_of_ofLine {line key value : Text} (h : Interior.ofLine line = .entry key value) :
    Readable key := by
  rw [Interior.ofLine_eq] at h
  rcases Text.cutBefore?_cases (· == ':') (Text.trim (withoutAsterisk line)) with
    hnone | ⟨before, c, after, htext, hbefore, hc⟩
  · rcases Interior.ofText_eq_entry h with ⟨before, after, htext, _⟩
    have hcolon := hnone ':' (htext ▸ by simp)
    cases hcolon
  · have hc' : c = ':' := by simpa using hc
    have hcolon : ':' ∉ before := fun hmem => by simpa using hbefore ':' hmem
    rw [htext, hc', Interior.ofText_colon hcolon] at h
    split at h
    · next hread =>
        cases h
        simp only [Bool.and_eq_true, decide_eq_true_eq, Bool.not_eq_true'] at hread
        exact readable_of_before hcolon hread.1 hread.2
    · cases h

theorem endsInScheme_append_space (text : Text) : endsInScheme (text ++ [' ']) = false := by
  have hlast : ∀ scheme : Text, scheme.getLast? ≠ some ' ' → scheme ≠ [] →
      scheme.isSuffixOf (text ++ [' ']) = false := by
    intro scheme hscheme hne
    rw [← Bool.not_eq_true, List.isSuffixOf_iff_suffix]
    rintro ⟨front, hfront⟩
    have hends := congrArg List.getLast? hfront
    rw [List.getLast?_append_of_ne_nil front hne, List.getLast?_concat] at hends
    exact hscheme hends
  rw [endsInScheme, hlast _ (by decide) (by decide), hlast _ (by decide) (by decide)]
  rfl

theorem ofLine_of_before {before value : Text}
    (hfirst : ∀ c, before.head? = some c → Text.isBlank c = false) (hcolon : ':' ∉ before)
    (hshort : Text.byteLength before ≤ keyLimit) (hscheme : endsInScheme before = false)
    (hvalue : Text.Trimmed value) :
    Interior.ofLine ('*' :: (before ++ ':' :: value)) = .entry (Text.trim before) value := by
  have htext := trimmed_append_colon hfirst hvalue.trimEnd_eq
  rw [Interior.ofLine_eq, withoutAsterisk_cons, htext.trim_eq,
    Interior.ofText_append hcolon hshort hscheme, hvalue.trim_eq]

theorem exists_line_of_readable {key value : Text} (hkey : Readable key)
    (hvalue : Text.Trimmed value) : ∃ line, Interior.ofLine line = .entry key value := by
  rcases hkey with ⟨htrim, hcolon, hshort⟩
  have hfirst : ∀ c, key.head? = some c → Text.isBlank c = false := by
    rw [← htrim]
    exact (Text.trimmed_trim key).first
  cases hscheme : endsInScheme key with
  | false =>
      have hlength : Text.byteLength key ≤ keyLimit := by
        rcases hshort with hlt | ⟨hle, _⟩
        · exact Nat.le_of_lt hlt
        · exact hle
      refine ⟨'*' :: (key ++ ':' :: value), ?_⟩
      rw [ofLine_of_before hfirst hcolon hlength hscheme hvalue, htrim]
  | true =>
      have hlength : Text.byteLength (key ++ [' ']) ≤ keyLimit := by
        rcases hshort with hlt | ⟨_, hnot⟩
        · rw [Text.byteLength_append]
          exact hlt
        · rw [hscheme] at hnot
          cases hnot
      have hfirst' : ∀ c, (key ++ [' ']).head? = some c → Text.isBlank c = false := by
        intro c hc
        cases key with
        | nil => cases hscheme
        | cons d key => exact hfirst c hc
      have hcolon' : ':' ∉ key ++ [' '] := by
        simpa using hcolon
      refine ⟨'*' :: (key ++ [' '] ++ ':' :: value), ?_⟩
      rw [ofLine_of_before hfirst' hcolon' hlength (endsInScheme_append_space key) hvalue,
        Text.trim_append_blank key Text.isBlank_space, htrim]

/-!
# The line of an entry

What is written of a key up to the value, and how it is read.
-/

/-- How the line of an entry is read: blanks, what stands before the first colon, and
what stands between it and the value. -/
structure Cut (key lead before between : Text) : Prop where
  column : Text.padRight keyColumn key ++ [':'] = lead ++ (before ++ ':' :: between)
  blank : ∀ c ∈ lead, Text.isBlank c = true
  first : ∀ c, before.head? = some c → Text.isBlank c = false
  colon : ':' ∉ before
  between : between = [] ∨ ∃ inner, between = inner ++ [':']

theorem exists_cut (key : Text) : ∃ lead before between, Cut key lead before between := by
  rcases Text.exists_blank_append_trimStart (Text.padRight keyColumn key) with
    ⟨lead, hlead, hcolumn⟩
  rcases Text.cutBefore?_cases (· == ':') (Text.trimStart (Text.padRight keyColumn key)) with
    hnone | ⟨before, c, inner, hcut, hbefore, hc⟩
  · refine ⟨lead, Text.trimStart (Text.padRight keyColumn key), [], ?_⟩
    exact {
      column := by rw [← List.append_assoc, ← hcolumn]
      blank := hlead
      first := fun _ hc => Text.head?_trimStart hc
      colon := fun hmem => by simpa using hnone ':' hmem
      between := Or.inl rfl }
  · have hc' : c = ':' := by simpa using hc
    refine ⟨lead, before, inner ++ [':'], ?_⟩
    exact {
      column := by
        rw [hcolumn, hcut, hc']
        simp
      blank := hlead
      first := by
        intro d hd
        apply Text.head?_trimStart
        rw [hcut, List.head?_append, hd]
        rfl
      colon := fun hmem => by simpa using hbefore ':' hmem
      between := Or.inr ⟨inner, rfl⟩ }

section Cut

variable {key lead before between : Text}

theorem Cut.entryLine_eq (hcut : Cut key lead before between) (value : Text) :
    entryLine key value =
      ('*' :: ' ' :: lead ++ before ++ ':' :: between) ++ Text.trimEnd (' ' :: value) := by
  have hcolumn : Text.padRight keyColumn key ++ ':' :: Text.trimEnd (' ' :: value) =
      (Text.padRight keyColumn key ++ [':']) ++ Text.trimEnd (' ' :: value) := by
    simp
  rw [DocBlock.entryLine_eq, hcolumn, hcut.column]
  simp

theorem Cut.trimmed (hcut : Cut key lead before between) (value : Text) :
    Text.Trimmed (before ++ ':' :: (between ++ Text.trimEnd value)) := by
  apply trimmed_append_colon hcut.first
  -- Whatever the value is, it comes right after a colon.
  rcases hcut.between with rfl | ⟨inner, rfl⟩
  · exact Text.trimEnd_trimEnd value
  · rw [List.append_assoc, List.singleton_append, Text.trimEnd_append_cons _ _ (by decide),
      Text.trimEnd_trimEnd]

theorem Cut.ofLine_entryLine (hcut : Cut key lead before between) (value : Text) :
    Interior.ofLine (entryLine key value) =
      Interior.ofText (before ++ ':' :: (between ++ Text.trimEnd (' ' :: value))) := by
  have hline : entryLine key value =
      '*' :: ((' ' :: lead) ++ (before ++ ':' :: (between ++ Text.trimEnd (' ' :: value)))) := by
    rw [hcut.entryLine_eq]
    simp
  have hlead : ∀ c ∈ ' ' :: lead, Text.isBlank c = true := by
    rw [List.forall_mem_cons]
    exact ⟨by decide, hcut.blank⟩
  rw [hline, Interior.ofLine_eq, withoutAsterisk_cons, Text.trim_append_of_blank hlead,
    (hcut.trimmed _).trim_eq]

end Cut

/-!
# One value for all
-/

/-- A value that shows how entries with a key are read back. -/
def sampleValue (key : Text) : Text :=
  if key = dateKey then "2020-01-01".toList else ['x']

def Written (key value : Text) : Prop :=
  Text.Trimmed value ∧ entryValue key value = .ok value

theorem trimmed_sampleValue (key : Text) : Text.Trimmed (sampleValue key) := by
  unfold sampleValue
  constructor
  · intro c hc
    split at hc
    · cases hc
      decide
    · cases hc
      decide
  · intro c hc
    split at hc
    · cases hc
      decide
    · cases hc
      decide

theorem written_sampleValue (key : Text) : Written key (sampleValue key) := by
  refine ⟨trimmed_sampleValue key, ?_⟩
  by_cases hkey : key = dateKey
  · have hdate : entryValue dateKey "2020-01-01".toList = .ok "2020-01-01".toList := by
      decide +kernel
    rw [sampleValue, if_pos hkey, hkey, hdate]
  · rw [sampleValue, if_neg hkey, entryValue, if_neg hkey]

def KeyTable.ReadsBack (keys : KeyTable) (key : Text) : Prop :=
  canonicalLine keys (entryLine key (sampleValue key)) =
    .ok (entryLine key (sampleValue key))

instance (keys : KeyTable) (key : Text) : Decidable (keys.ReadsBack key) :=
  inferInstanceAs (Decidable (_ = _))

theorem trim_trimEnd_cons_space {value : Text} (h : Text.Trimmed value) :
    Text.trim (Text.trimEnd (' ' :: value)) = value := by
  rw [Text.trim_trimEnd, trim_cons_space, h.trim_eq]

theorem entryValue_of_readValue {key target shown : Text}
    (h : entryValue target (Text.trim (Text.trimEnd (' ' :: sampleValue key))) = .ok shown)
    {value : Text} (hvalue : Written key value) :
    entryValue target (Text.trim (Text.trimEnd (' ' :: value))) = .ok value := by
  rw [trim_trimEnd_cons_space (written_sampleValue key).1] at h
  rw [trim_trimEnd_cons_space hvalue.1]
  by_cases htarget : target = dateKey
  · by_cases hkey : key = dateKey
    · rw [htarget, ← hkey]
      exact hvalue.2
    · -- The sample is no date.
      rw [sampleValue, if_neg hkey, htarget] at h
      have hfault : entryValue dateKey ['x'] = .error (.badDate ['x']) := by decide +kernel
      rw [hfault] at h
      cases h
  · rw [entryValue, if_neg htarget]

theorem entryValue_readInner (target inner : Text) :
    (∀ value, entryValue target (Text.trim (inner ++ ':' :: Text.trimEnd (' ' :: value))) =
      .error (.badDate (Text.trimStart inner ++ ':' :: Text.trimEnd (' ' :: value)))) ∨
    ∃ kept, ∀ value,
      entryValue target (Text.trim (inner ++ ':' :: Text.trimEnd (' ' :: value))) =
        .ok (kept ++ ':' :: Text.trimEnd (' ' :: value)) := by
  have htext : ∀ value, Text.trim (inner ++ ':' :: Text.trimEnd (' ' :: value)) =
      Text.trimStart inner ++ ':' :: Text.trimEnd (' ' :: value) := by
    intro value
    rw [Text.trim_append_cons _ _ (by decide), Text.trimEnd_trimEnd]
  by_cases htarget : target = dateKey
  · rcases Calendar.canonical?_colon (Text.trimStart inner) with hnone | ⟨kept, hkept⟩
    · refine Or.inl ?_
      intro value
      rw [htarget, entryValue, if_pos rfl, dateValue, (Text.trimmed_trim _).trim_eq, htext, hnone]
    · refine Or.inr ⟨kept, ?_⟩
      intro value
      rw [htext, htarget, entryValue, if_pos rfl, dateValue, hkept _ (Text.trimEnd_trimEnd _)]
  · refine Or.inr ⟨Text.trimStart inner, ?_⟩
    intro value
    rw [htext, entryValue, if_neg htarget]

theorem Cut.exists_front {key lead before between : Text} (hcut : Cut key lead before between)
    {target shown : Text}
    (h : entryValue target (Text.trim (between ++ Text.trimEnd (' ' :: sampleValue key))) =
      .ok shown) :
    ∃ front, ∀ value, Written key value →
      ∃ read, entryValue target (Text.trim (between ++ Text.trimEnd (' ' :: value))) = .ok read ∧
        Text.trimEnd (' ' :: read) = front ++ Text.trimEnd (' ' :: value) := by
  rcases hcut.between with rfl | ⟨inner, rfl⟩
  · refine ⟨[], ?_⟩
    intro value hvalue
    exact ⟨value, entryValue_of_readValue h hvalue, rfl⟩
  · rw [List.append_assoc, List.singleton_append] at h
    rcases entryValue_readInner target inner with herror | ⟨kept, hkept⟩
    · rw [herror] at h
      cases h
    · refine ⟨' ' :: kept ++ [':'], ?_⟩
      intro value _
      refine ⟨kept ++ ':' :: Text.trimEnd (' ' :: value), ?_, ?_⟩
      · rw [List.append_assoc, List.singleton_append]
        exact hkept value
      · rw [← List.cons_append, Text.trimEnd_append_cons _ _ (by decide), Text.trimEnd_trimEnd]
        simp

/-- If the line of a key is read as an entry, the sample shows under which key it is and
that what is written of both keys is the same. -/
theorem Cut.canonicalLine_of_entry {keys : KeyTable} {key lead before between value : Text}
    (hcut : Cut key lead before between)
    (hread : (Text.byteLength before ≤ keyLimit && !endsInScheme before) = true)
    (h : keys.ReadsBack key) (hvalue : Written key value) :
    canonicalLine keys (entryLine key value) = .ok (entryLine key value) := by
  have hline : ∀ value, Interior.ofLine (entryLine key value) =
      .entry (Text.trim before) (Text.trim (between ++ Text.trimEnd (' ' :: value))) := by
    intro value
    rw [hcut.ofLine_entryLine, Interior.ofText_colon hcut.colon, if_pos hread]
  rcases canonicalLine_cases h with
    ⟨hempty, _⟩ | ⟨_, hfree, _⟩ | ⟨_, _, target, shown, hentry, htarget, hshown, hsame⟩
  · rw [hline] at hempty
    cases hempty
  · rw [hline] at hfree
    cases hfree
  · rw [hline] at hentry
    cases hentry
    rcases hcut.exists_front hshown with ⟨front, hfront⟩
    have hcolumn : '*' :: ' ' :: Text.padRight keyColumn target ++ ':' :: front =
        '*' :: ' ' :: lead ++ before ++ ':' :: between := by
      rcases hfront _ (written_sampleValue key) with ⟨read, hsample, hwritten⟩
      rw [hshown] at hsample
      cases hsample
      rw [hcut.entryLine_eq, DocBlock.entryLine_eq, hwritten] at hsame
      apply List.append_cancel_right
      rw [hsame]
      simp
    rcases hfront value hvalue with ⟨read, hentryValue, hwritten⟩
    rw [canonicalLine, hline]
    simp only [htarget, hentryValue]
    rw [hcut.entryLine_eq, DocBlock.entryLine_eq, hwritten, ← hcolumn]
    simp

/-- If the line of a key is read as free text, the sample shows that the blanks in front
of the key are those of a continuation. -/
theorem Cut.canonicalLine_of_continuation {keys : KeyTable} {key lead before between : Text}
    (hcut : Cut key lead before between)
    (hread : ¬ (Text.byteLength before ≤ keyLimit && !endsInScheme before) = true)
    (h : keys.ReadsBack key) (value : Text) :
    canonicalLine keys (entryLine key value) = .ok (entryLine key value) := by
  have hline : ∀ value, Interior.ofLine (entryLine key value) =
      .continuation (before ++ ':' :: (between ++ Text.trimEnd (' ' :: value))) := by
    intro value
    rw [hcut.ofLine_entryLine, Interior.ofText_colon hcut.colon, if_neg hread]
  have hlead : continuationLead ++ before ++ ':' :: between =
      '*' :: ' ' :: lead ++ before ++ ':' :: between := by
    rw [KeyTable.ReadsBack, canonicalLine, hline, hcut.entryLine_eq] at h
    apply List.append_cancel_right
    rw [← Except.ok.inj h]
    simp
  rw [canonicalLine, hline, hcut.entryLine_eq, ← hlead]
  simp

theorem canonicalLine_of_readsBack {keys : KeyTable} {key value : Text} (h : keys.ReadsBack key)
    (hvalue : Written key value) :
    canonicalLine keys (entryLine key value) = .ok (entryLine key value) := by
  rcases exists_cut key with ⟨lead, before, between, hcut⟩
  by_cases hread : (Text.byteLength before ≤ keyLimit && !endsInScheme before) = true
  · exact hcut.canonicalLine_of_entry hread h hvalue
  · exact hcut.canonicalLine_of_continuation hread h value

/-!
# Stable tables
-/

def KeyTable.spellings (keys : KeyTable) : List Text :=
  keys.aliases.map Prod.fst ++ keys.canonical

theorem KeyTable.mem_spellings {keys : KeyTable} {key target : Text}
    (h : keys.resolve? key = some target) : key ∈ keys.spellings := by
  apply List.mem_append.mpr
  rcases KeyTable.resolve?_cases h with halias | ⟨_, hcanonical⟩
  · exact Or.inl (List.mem_map.mpr ⟨_, Dictionary.mem_of_get? halias, rfl⟩)
  · exact Or.inr hcanonical

def KeyTable.AllReadBack (keys : KeyTable) : Prop :=
  ∀ key ∈ keys.spellings, Readable key → ∀ target ∈ keys.resolve? key, keys.ReadsBack target

instance (keys : KeyTable) : Decidable keys.AllReadBack :=
  inferInstanceAs (Decidable (∀ key ∈ keys.spellings, _))

theorem KeyTable.Stable.allReadBack {keys : KeyTable} (h : keys.Stable) : keys.AllReadBack := by
  intro key _ hkey target htarget
  have hsample := written_sampleValue target
  rcases exists_line_of_readable hkey hsample.1 with ⟨line, hline⟩
  apply h line
  rw [canonicalLine, hline]
  simp only [Option.mem_def.mp htarget, hsample.2]

theorem KeyTable.AllReadBack.stable {keys : KeyTable} (h : keys.AllReadBack) : keys.Stable := by
  intro line out hout
  rcases canonicalLine_cases hout with
    ⟨_, rfl⟩ | ⟨text, hline, rfl⟩ | ⟨key, value, target, written, hline, htarget, hvalue, rfl⟩
  · rfl
  · exact canonicalLine_continuation hline
  · have hback := h key (KeyTable.mem_spellings htarget) (readable_of_ofLine hline) target htarget
    apply canonicalLine_of_readsBack hback
    exact entryValue_entryValue hvalue (trimmed_of_ofLine hline)

theorem KeyTable.mem_canonical_of_resolve? {keys : KeyTable} (hdangling : keys.dangling = [])
    {key target : Text} (h : keys.resolve? key = some target) : target ∈ keys.canonical := by
  rcases KeyTable.resolve?_cases h with halias | ⟨rfl, hcanonical⟩
  · have hnot := List.filter_eq_nil_iff.mp hdangling _ (Dictionary.mem_of_get? halias)
    simpa [KeyTable.isCanonical] using hnot
  · exact hcanonical

theorem settled_of_legible {keys : KeyTable} (hdangling : keys.dangling = [])
    (h : ∀ key ∈ keys.canonical, Legible key ∧ ∀ target ∈ keys.aliases.get? key, target = key) :
    keys.Settled := by
  intro key target htarget
  have hcanonical := KeyTable.mem_canonical_of_resolve? hdangling htarget
  rcases h target hcanonical with ⟨hlegible, halias⟩
  refine ⟨hlegible, ?_⟩
  cases hget : keys.aliases.get? target with
  | none => exact KeyTable.resolve?_of_mem hget hcanonical
  | some other => rw [KeyTable.resolve?_of_alias hget, halias other hget]

end DocBlock

namespace Config

/-- An accepted configuration gives a stable table exactly if the sample entries of its
keys are read back.  They are if every canonical key can be found again in its column and
is no alias for another key. -/
theorem stable_iff_allReadBack {config : Config} (h : config.defect? = none) :
    (config.keyTable.Stable ↔ config.keyTable.AllReadBack) ∧
      ((∀ key ∈ config.canonicalKeys, DocBlock.Legible key ∧
          ∀ target ∈ config.keyAliases.get? key, target = key) →
        config.keyTable.Stable) := by
  constructor
  · constructor
    · intro hstable
      exact hstable.allReadBack
    · intro hback
      exact hback.stable
  · intro hkeys line out hout
    have hsettled := DocBlock.settled_of_legible (dangling_of_defect? h) hkeys
    exact DocBlock.canonicalLine_canonicalLine hsettled hout

def plainKeys : Config :=
  { standard with
    keyAliases := .ofList [("On".toList, "Date".toList), ("U".toList, "U".toList)]
    canonicalKeys := ["U".toList, "Date".toList] }

def columnKeys : Config :=
  { standard with
    keyAliases := .ofList [("Web".toList, "U     : web".toList)]
    canonicalKeys := ["U".toList, "U     : web".toList] }

theorem stable_iff_allReadBack_columnKeys :
    plainKeys.defect? = none ∧ plainKeys.keyTable.Stable ∧
      columnKeys.defect? = none ∧ ¬ DocBlock.Legible "U     : web".toList ∧
      columnKeys.keyTable.AllReadBack ∧ columnKeys.keyTable.Stable := by
  have hplain : plainKeys.defect? = none := by decide +kernel
  have hlegible : ∀ key ∈ plainKeys.canonicalKeys, DocBlock.Legible key ∧
      ∀ target ∈ plainKeys.keyAliases.get? key, target = key := by decide +kernel
  have hcolumn : columnKeys.defect? = none := by decide +kernel
  have hback : columnKeys.keyTable.AllReadBack := by decide +kernel
  exact ⟨hplain, (stable_iff_allReadBack hplain).2 hlegible, hcolumn, by decide +kernel, hback,
    (stable_iff_allReadBack hcolumn).1.mpr hback⟩

def addressKey : Config :=
  { standard with
    keyAliases := .ofList [("Web".toList, "Link over http".toList)]
    canonicalKeys := ["Link over http".toList] }

/-- An accepted configuration need not give a stable table: a line with the key is read as
free text. -/
theorem not_stable_addressKey :
    addressKey.defect? = none ∧
      DocBlock.canonicalLine addressKey.keyTable "Web: x".toList =
        .ok "* Link over http: x".toList ∧
      DocBlock.canonicalLine addressKey.keyTable "* Link over http: x".toList =
        .ok "*   Link over http: x".toList ∧
      ¬ addressKey.keyTable.Stable := by
  have hfirst : DocBlock.canonicalLine addressKey.keyTable "Web: x".toList =
      .ok "* Link over http: x".toList := by decide +kernel
  have hsecond : DocBlock.canonicalLine addressKey.keyTable "* Link over http: x".toList =
      .ok "*   Link over http: x".toList := by decide +kernel
  refine ⟨by decide +kernel, hfirst, hsecond, ?_⟩
  intro hstable
  have hsame := hstable _ _ hfirst
  rw [hsecond] at hsame
  exact absurd (Except.ok.inj hsame) (by decide)

end Config
end SourceTidy
