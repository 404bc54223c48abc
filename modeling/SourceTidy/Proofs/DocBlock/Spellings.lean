import SourceTidy.Proofs.DocBlock.ReadBack

/-!
# Spellings of one key

An alias is meant to give the same line as the key that it stands for.  Whether two
spellings do so for every value is settled by what is read before the value comes: there
are only a few things that can become of the value, and one value tells them apart.  If
both spellings are read as they are typed, it comes down to whether the key is in turn an
alias.
-/

namespace SourceTidy

theorem Text.afterBeginning?_append_other {marker : Text} {c : Char} (h : c ∉ marker)
    (text rest : Text) :
    Text.afterBeginning? marker (text ++ c :: rest) =
      (Text.afterBeginning? marker text).map (· ++ c :: rest) := by
  induction marker generalizing text with
  | nil => rfl
  | cons m marker ih =>
      rw [List.mem_cons, not_or] at h
      cases text with
      | nil =>
          rw [List.nil_append]
          exact if_neg (Ne.symm h.1)
      | cons d text =>
          rw [List.cons_append, Text.afterBeginning?, Text.afterBeginning?]
          split
          · exact ih h.2 text
          · rfl

namespace DocBlock

def typedLine (key value : Text) : Text :=
  key ++ ": ".toList ++ value

/-- Two spellings give the same line, or the same fault, with every value. -/
def KeyTable.Alike (keys : KeyTable) (a b : Text) : Prop :=
  ∀ value, canonicalLine keys (typedLine a value) = canonicalLine keys (typedLine b value)

/-!
# What becomes of the value
-/

/-- What a line comes to, as far as that is settled before the value. -/
inductive Reading where
  | kept (front : Text)
  | entry (column : Text)
  | date
  | unknownKey (key : Text)
  | lateDate (front : Text)

def Reading.result : Reading → Text → Except Fault Text
  | .kept front, value => .ok (front ++ Text.trimEnd (' ' :: value))
  | .entry column, value =>
      .ok ("* ".toList ++ column ++ ':' :: Text.trimEnd (' ' :: Text.trim value))
  | .date, value =>
      match dateValue (Text.trim value) with
      | .error fault => .error fault
      | .ok written => .ok (entryLine dateKey written)
  | .unknownKey key, _ => .error (.unknownKey key)
  | .lateDate front, value => .error (.badDate (front ++ ':' :: Text.trimEnd (' ' :: value)))

/-- A value that tells all readings apart: it begins with a blank and is no date. -/
def tellingValue : Text := [' ', 'x']

theorem Reading.result_tellingValue (reading : Reading) :
    reading.result tellingValue =
      match reading with
      | .kept front => .ok (front ++ [' ', ' ', 'x'])
      | .entry column => .ok ("* ".toList ++ column ++ [':', ' ', 'x'])
      | .date => .error (.badDate ['x'])
      | .unknownKey key => .error (.unknownKey key)
      | .lateDate front => .error (.badDate (front ++ [':', ' ', ' ', 'x'])) := by
  have hkept : Text.trimEnd (' ' :: tellingValue) = [' ', ' ', 'x'] := by decide
  have htrimmed : Text.trimEnd (' ' :: Text.trim tellingValue) = [' ', 'x'] := by decide
  cases reading with
  | kept front => rw [Reading.result, hkept]
  | entry column => rw [Reading.result, htrimmed]
  | date => decide +kernel
  | unknownKey key => rfl
  | lateDate front => rw [Reading.result, hkept]

theorem Reading.eq_of_result {a b : Reading} (h : a.result tellingValue = b.result tellingValue) :
    a = b := by
  have hkept : ∀ front column : Text,
      front ++ [' ', ' ', 'x'] ≠ "* ".toList ++ column ++ [':', ' ', 'x'] := by
    intro front column hsame
    have hplace := congrArg (fun text => text.reverse[2]?) hsame
    simp at hplace
  have hlate : ∀ front : Text, ['x'] ≠ front ++ [':', ' ', ' ', 'x'] := by
    intro front hsame
    have hlength := congrArg List.length hsame
    simp at hlength
  rw [Reading.result_tellingValue, Reading.result_tellingValue] at h
  cases a with
  | kept front =>
      cases b with
      | kept front' => rw [List.append_cancel_right (Except.ok.inj h)]
      | entry column => exact absurd (Except.ok.inj h) (hkept front column)
      | date | unknownKey _ | lateDate _ => cases h
  | entry column =>
      cases b with
      | kept front => exact absurd (Except.ok.inj h).symm (hkept front column)
      | entry column' =>
          rw [List.append_cancel_left (List.append_cancel_right (Except.ok.inj h))]
      | date | unknownKey _ | lateDate _ => cases h
  | date =>
      cases b with
      | date => rfl
      | lateDate front => exact absurd (Fault.badDate.inj (Except.error.inj h)) (hlate front)
      | kept _ | entry _ | unknownKey _ => cases h
  | unknownKey key =>
      cases b with
      | unknownKey key' => rw [Fault.unknownKey.inj (Except.error.inj h)]
      | kept _ | entry _ | date | lateDate _ => cases h
  | lateDate front =>
      cases b with
      | lateDate front' =>
          rw [List.append_cancel_right (Fault.badDate.inj (Except.error.inj h))]
      | date => exact absurd (Fault.badDate.inj (Except.error.inj h)).symm (hlate front)
      | kept _ | entry _ | unknownKey _ => cases h

/-!
# How a line is read up to the value
-/

theorem withoutAsterisk_append_colon (key rest : Text) :
    withoutAsterisk (key ++ ':' :: rest) = withoutAsterisk key ++ ':' :: rest := by
  rw [withoutAsterisk, withoutAsterisk, Text.afterBeginning?_append_other (by decide),
    Text.afterBeginning?_append_other (by decide)]
  cases Text.afterBeginning? [' ', '*'] key with
  | some text => rfl
  | none => cases Text.afterBeginning? ['*'] key <;> rfl

theorem ofLine_typedLine (key value : Text) :
    Interior.ofLine (typedLine key value) =
      Interior.ofText
        (Text.trimStart (withoutAsterisk key) ++ ':' :: Text.trimEnd (' ' :: value)) := by
  have hline : typedLine key value = key ++ ':' :: ' ' :: value := by
    simp [typedLine]
  rw [hline, Interior.ofLine_eq, withoutAsterisk_append_colon,
    Text.trim_append_cons _ _ (by decide)]

def Reading.ofTarget (target : Text) : Reading :=
  if target = dateKey then .date else .entry (Text.padRight keyColumn target)

def KeyTable.Reads (keys : KeyTable) (key : Text) (reading : Reading) : Prop :=
  ∀ value, canonicalLine keys (typedLine key value) = reading.result value

section Reads

variable {keys : KeyTable} {key : Text}

theorem reads_free {text : Text}
    (h : ∀ value, Interior.ofLine (typedLine key value) =
      .continuation (text ++ ':' :: Text.trimEnd (' ' :: value))) :
    keys.Reads key (.kept (continuationLead ++ text ++ [':'])) := by
  intro value
  rw [canonicalLine, h]
  simp [Reading.result]

theorem reads_unknownKey {read : Text} {rest : Text → Text}
    (h : ∀ value, Interior.ofLine (typedLine key value) = .entry read (rest value))
    (hunknown : keys.resolve? read = none) : keys.Reads key (.unknownKey read) := by
  intro value
  rw [canonicalLine, h]
  simp only [hunknown]
  rfl

theorem reads_ofTarget {read target : Text}
    (h : ∀ value, Interior.ofLine (typedLine key value) = .entry read (Text.trim value))
    (htarget : keys.resolve? read = some target) : keys.Reads key (.ofTarget target) := by
  intro value
  rw [canonicalLine, h]
  simp only [htarget]
  by_cases hdate : target = dateKey
  · subst hdate
    cases hvalue : dateValue (Text.trim value) with
    | error fault => simp [Reading.ofTarget, Reading.result, entryValue, hvalue]
    | ok written => simp [Reading.ofTarget, Reading.result, entryValue, hvalue]
  · rw [Reading.ofTarget, if_neg hdate, entryValue, if_neg hdate, Reading.result]
    simp [entryLine_eq]

theorem exists_reads_inner {read target inner : Text}
    (h : ∀ value, Interior.ofLine (typedLine key value) =
      .entry read (Text.trim (inner ++ ':' :: Text.trimEnd (' ' :: value))))
    (htarget : keys.resolve? read = some target) : ∃ reading, keys.Reads key reading := by
  rcases entryValue_readInner target inner with hlate | ⟨kept, hkept⟩
  · refine ⟨.lateDate (Text.trimStart inner), ?_⟩
    intro value
    rw [canonicalLine, h]
    simp only [htarget, hlate]
    rfl
  · refine ⟨.kept ('*' :: ' ' :: Text.padRight keyColumn target ++ ':' :: ' ' :: kept ++ [':']), ?_⟩
    intro value
    rw [canonicalLine, h]
    have hend : Text.trimEnd (' ' :: (kept ++ ':' :: Text.trimEnd (' ' :: value))) =
        ' ' :: kept ++ ':' :: Text.trimEnd (' ' :: value) := by
      rw [← List.cons_append, Text.trimEnd_append_cons _ _ (by decide), Text.trimEnd_trimEnd]
    simp only [htarget, hkept]
    rw [entryLine_eq, hend]
    simp [Reading.result]

theorem exists_reads (keys : KeyTable) (key : Text) : ∃ reading, keys.Reads key reading := by
  have hline := ofLine_typedLine key
  generalize Text.trimStart (withoutAsterisk key) = text at hline
  rcases Text.cutBefore?_cases (· == ':') text with hnone | ⟨before, c, inner, hcut, hbefore, hc⟩
  · have hcolon : ':' ∉ text := fun hmem => by simpa using hnone ':' hmem
    simp only [Interior.ofText_colon hcolon] at hline
    split at hline
    · simp only [Text.trim_trimEnd, trim_cons_space] at hline
      cases htarget : keys.resolve? (Text.trim text) with
      | none => exact ⟨_, reads_unknownKey hline htarget⟩
      | some target => exact ⟨_, reads_ofTarget hline htarget⟩
    · exact ⟨_, reads_free hline⟩
  · have hc' : c = ':' := by simpa using hc
    have hcolon : ':' ∉ before := fun hmem => by simpa using hbefore ':' hmem
    subst hcut hc'
    simp only [List.append_assoc, List.cons_append, Interior.ofText_colon hcolon] at hline
    split at hline
    · cases htarget : keys.resolve? (Text.trim before) with
      | none => exact ⟨_, reads_unknownKey hline htarget⟩
      | some target => exact exists_reads_inner hline htarget
    · simp only [← List.cons_append, ← List.append_assoc] at hline
      exact ⟨_, reads_free hline⟩

theorem alike_iff_tellingValue (keys : KeyTable) (a b : Text) :
    keys.Alike a b ↔
      canonicalLine keys (typedLine a tellingValue) =
        canonicalLine keys (typedLine b tellingValue) := by
  constructor
  · intro h
    exact h tellingValue
  · intro h value
    rcases exists_reads keys a with ⟨readingA, ha⟩
    rcases exists_reads keys b with ⟨readingB, hb⟩
    rw [ha, hb] at h
    rw [ha, hb, Reading.eq_of_result h]

instance (keys : KeyTable) (a b : Text) : Decidable (keys.Alike a b) :=
  decidable_of_iff _ (alike_iff_tellingValue keys a b).symm

end Reads

theorem alike_standardAliases :
    ∀ entry ∈ standardAliases, KeyTable.standard.Alike entry.1 entry.2 := by
  decide +kernel

/-!
# Spellings that are read as they are typed
-/

/-- A key that is read as it is typed at the beginning of a line. -/
def ReadAsTyped (key : Text) : Prop :=
  Text.trim key = key ∧ key.head? ≠ some '*' ∧ ':' ∉ key ∧
    Text.byteLength key ≤ keyLimit ∧ endsInScheme key = false

instance (key : Text) : Decidable (ReadAsTyped key) :=
  inferInstanceAs (Decidable (_ ∧ _))

theorem ReadAsTyped.ofLine_typedLine {key : Text} (h : ReadAsTyped key) (value : Text) :
    Interior.ofLine (typedLine key value) = .entry key (Text.trim value) := by
  rcases h with ⟨htrim, hasterisk, hcolon, hshort, hscheme⟩
  have hfirst : ∀ c, key.head? = some c → Text.isBlank c = false := by
    rw [← htrim]
    exact (Text.trimmed_trim key).first
  have hkey : withoutAsterisk key = key := by
    cases key with
    | nil => rfl
    | cons c rest =>
        have hspace : ' ' ≠ c := by
          rintro rfl
          cases hfirst ' ' rfl
        have hstar : '*' ≠ c := by
          rintro rfl
          exact hasterisk rfl
        simp [withoutAsterisk, Text.afterBeginning?, hspace, hstar]
  rw [DocBlock.ofLine_typedLine, hkey, Text.trimStart_eq_self hfirst,
    Interior.ofText_append hcolon hshort hscheme, htrim, Text.trim_trimEnd, trim_cons_space]

/-- Two keys are written in the same way: in the same column, and both or neither with a
date. -/
def WrittenAlike (a b : Text) : Prop :=
  Text.padRight keyColumn a = Text.padRight keyColumn b ∧ (a = dateKey ↔ b = dateKey)

instance (a b : Text) : Decidable (WrittenAlike a b) :=
  inferInstanceAs (Decidable (_ ∧ _))

theorem Reading.ofTarget_eq_iff (a b : Text) :
    Reading.ofTarget a = Reading.ofTarget b ↔ WrittenAlike a b := by
  unfold Reading.ofTarget WrittenAlike
  by_cases ha : a = dateKey <;> by_cases hb : b = dateKey <;> simp [ha, hb]

theorem ReadAsTyped.alike_iff {keys : KeyTable} {a b first second : Text} (ha : ReadAsTyped a)
    (hb : ReadAsTyped b) (hfirst : keys.resolve? a = some first)
    (hsecond : keys.resolve? b = some second) : keys.Alike a b ↔ WrittenAlike first second := by
  have hreadsA : keys.Reads a (.ofTarget first) := reads_ofTarget ha.ofLine_typedLine hfirst
  have hreadsB : keys.Reads b (.ofTarget second) := reads_ofTarget hb.ofLine_typedLine hsecond
  rw [alike_iff_tellingValue, hreadsA, hreadsB, ← Reading.ofTarget_eq_iff]
  constructor
  · intro h
    exact Reading.eq_of_result h
  · intro h
    rw [h]

end DocBlock

namespace Config

open DocBlock (typedLine tellingValue ReadAsTyped WrittenAlike)

/-- In an accepted configuration an alias and its target give the same result with every
value exactly if they do so with the telling one.  If both are read as they are typed, this
holds exactly if the target is no alias for a key that is written differently. -/
theorem alias_alike_iff {config : Config} (h : config.defect? = none) {spelling target : Text}
    (halias : config.keyAliases.get? spelling = some target) :
    (config.keyTable.Alike spelling target ↔
      DocBlock.canonicalLine config.keyTable (typedLine spelling tellingValue) =
        DocBlock.canonicalLine config.keyTable (typedLine target tellingValue)) ∧
    (ReadAsTyped spelling → ReadAsTyped target →
      (config.keyTable.Alike spelling target ↔
        ∀ other ∈ config.keyAliases.get? target, WrittenAlike target other)) := by
  refine ⟨DocBlock.alike_iff_tellingValue _ _ _, ?_⟩
  intro hspelling htarget
  have hresolve : config.keyTable.resolve? spelling = some target :=
    DocBlock.KeyTable.resolve?_of_alias halias
  cases hother : config.keyAliases.get? target with
  | none =>
      have hcanonical : target ∈ config.canonicalKeys :=
        DocBlock.KeyTable.mem_canonical_of_resolve? (dangling_of_defect? h) hresolve
      have hself : config.keyTable.resolve? target = some target :=
        DocBlock.KeyTable.resolve?_of_mem hother hcanonical
      rw [hspelling.alike_iff htarget hresolve hself]
      exact iff_of_true ⟨rfl, Iff.rfl⟩ (by simp)
  | some other =>
      have hnext : config.keyTable.resolve? target = some other :=
        DocBlock.KeyTable.resolve?_of_alias hother
      rw [hspelling.alike_iff htarget hresolve hnext]
      simp

def filledKeys : Config :=
  { standard with
    keyAliases := .ofList [("Was".toList, "Is".toList), ("Is".toList, "Is   ".toList)]
    canonicalKeys := ["Is".toList, "Is   ".toList] }

theorem alias_alike_iff_filledKeys :
    filledKeys.defect? = none ∧
      filledKeys.keyAliases.get? "Was".toList = some "Is".toList ∧
      filledKeys.keyAliases.get? "Is".toList = some "Is   ".toList ∧
      filledKeys.keyTable.Alike "Was".toList "Is".toList := by
  have h : filledKeys.defect? = none := by decide +kernel
  have halias : filledKeys.keyAliases.get? "Was".toList = some "Is".toList := by decide +kernel
  have hother : ∀ other ∈ filledKeys.keyAliases.get? "Is".toList,
      WrittenAlike "Is".toList other := by decide +kernel
  exact ⟨h, halias, by decide +kernel,
    ((alias_alike_iff h halias).2 (by decide +kernel) (by decide +kernel)).mpr hother⟩

def longAlias : Config :=
  { standard with
    keyAliases := .ofList [("Original Problem Link".toList, "URL".toList)]
    canonicalKeys := ["URL".toList] }

def chainedKeys : Config :=
  { standard with
    keyAliases := .ofList [("Was".toList, "Is".toList), ("Is".toList, "Now".toList)]
    canonicalKeys := ["Is".toList, "Now".toList] }

/-- In an accepted configuration an alias need not give the same line as its target: it may
be read as free text, or the target may stand for another key. -/
theorem not_alike_longAlias :
    (longAlias.defect? = none ∧
      longAlias.keyAliases.get? "Original Problem Link".toList = some "URL".toList ∧
      DocBlock.canonicalLine longAlias.keyTable
        (typedLine "Original Problem Link".toList ['x']) =
          .ok "*   Original Problem Link: x".toList ∧
      DocBlock.canonicalLine longAlias.keyTable (typedLine "URL".toList ['x']) =
        .ok "* URL   : x".toList ∧
      ¬ longAlias.keyTable.Alike "Original Problem Link".toList "URL".toList) ∧
    (chainedKeys.defect? = none ∧
      chainedKeys.keyAliases.get? "Was".toList = some "Is".toList ∧
      DocBlock.canonicalLine chainedKeys.keyTable (typedLine "Was".toList ['x']) =
        .ok "* Is    : x".toList ∧
      DocBlock.canonicalLine chainedKeys.keyTable (typedLine "Is".toList ['x']) =
        .ok "* Now   : x".toList ∧
      ¬ chainedKeys.keyTable.Alike "Was".toList "Is".toList) := by
  decide +kernel

end Config
end SourceTidy
