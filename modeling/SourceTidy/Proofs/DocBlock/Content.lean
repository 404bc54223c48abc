import SourceTidy.Proofs.DocBlock.Lines

/-!
# What a canonical line holds

A line is written anew from what was read in it, and reading it again gives the same:
free text stays free text, a key has become the canonical key that it stands for, and a
value has stayed as it was, unless it is a date.
-/

namespace SourceTidy
namespace DocBlock

/-- What a line holds, and what its canonical form holds. -/
inductive Carried (keys : KeyTable) : Interior → Interior → Prop where
  | empty : Carried keys .empty .empty
  | continuation (text : Text) : Carried keys (.continuation text) (.continuation text)
  | entry {key target : Text} (value : Text) (resolved : keys.resolve? key = some target)
      (plain : target ≠ dateKey) : Carried keys (.entry key value) (.entry target value)
  | date {key value written : Text} (resolved : keys.resolve? key = some dateKey)
      (canonical : Calendar.canonical? value = some written) :
      Carried keys (.entry key value) (.entry dateKey written)

theorem ofLine_entryLine_of_entry {keys : KeyTable} (hkeys : keys.Settled)
    {line key value target written : Text} (hline : Interior.ofLine line = .entry key value)
    (htarget : keys.resolve? key = some target) (hvalue : entryValue target value = .ok written) :
    Interior.ofLine (entryLine target written) = .entry target written := by
  have hwritten := entryValue_entryValue hvalue (trimmed_of_ofLine hline)
  exact ofLine_entryLine (hkeys key target htarget).1 hwritten.1

theorem carried_of_canonicalLine {keys : KeyTable} (hkeys : keys.Settled) {line out : Text}
    (h : canonicalLine keys line = .ok out) :
    Carried keys (Interior.ofLine line) (Interior.ofLine out) := by
  rcases canonicalLine_cases h with
    ⟨hline, rfl⟩ | ⟨text, hline, rfl⟩ | ⟨key, value, target, written, hline, htarget, hvalue, rfl⟩
  · rw [hline]
    exact Carried.empty
  · rw [ofLine_continuation hline, hline]
    exact Carried.continuation text
  · rw [ofLine_entryLine_of_entry hkeys hline htarget hvalue, hline]
    rcases entryValue_cases hvalue with ⟨rfl, hplain⟩ | ⟨rfl, hcanonical⟩
    · exact Carried.entry written htarget hplain
    · exact Carried.date htarget hcanonical

theorem exists_canonicalLine_of_entry {keys : KeyTable} (hkeys : keys.Settled)
    {line key value target written : Text} (hline : Interior.ofLine line = .entry key value)
    (htarget : keys.resolve? key = some target)
    (hvalue : entryValue target value = .ok written) :
    ∃ out, canonicalLine keys line = .ok out ∧ Interior.ofLine out = .entry target written := by
  refine ⟨entryLine target written, ?_, ofLine_entryLine_of_entry hkeys hline htarget hvalue⟩
  rw [canonicalLine, hline]
  simp only [htarget, hvalue]

theorem exists_canonicalLine_of_carried {keys : KeyTable} (hkeys : keys.Settled) {line : Text}
    {held : Interior} (h : Carried keys (Interior.ofLine line) held) :
    ∃ out, canonicalLine keys line = .ok out ∧ Interior.ofLine out = held := by
  generalize hline : Interior.ofLine line = read at h
  cases h with
  | empty => exact ⟨['*'], by rw [canonicalLine, hline], rfl⟩
  | continuation text =>
      exact ⟨continuationLead ++ text, by rw [canonicalLine, hline], ofLine_continuation hline⟩
  | entry value resolved plain =>
      exact exists_canonicalLine_of_entry hkeys hline resolved (if_neg plain)
  | date resolved canonical =>
      apply exists_canonicalLine_of_entry hkeys hline resolved
      rw [entryValue, if_pos rfl, dateValue, canonical]

/-- With the standard keys, a line has a canonical form from which something is read
exactly if that is carried over from what is read in the line. -/
theorem canonicalLine_carries (line : Text) (held : Interior) :
    (∃ out, canonicalLine KeyTable.standard line = .ok out ∧ Interior.ofLine out = held) ↔
      Carried KeyTable.standard (Interior.ofLine line) held := by
  constructor
  · rintro ⟨out, hout, rfl⟩
    exact carried_of_canonicalLine settled_standard hout
  · intro hcarried
    exact exists_canonicalLine_of_carried settled_standard hcarried

end DocBlock
end SourceTidy
