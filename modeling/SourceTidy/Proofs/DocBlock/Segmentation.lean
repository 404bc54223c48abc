import SourceTidy.Proofs.DocBlock.InPlace
import SourceTidy.Proofs.DocBlock.Scan

/-!
# The block as the first segment that is long enough

The search reads the lines once and keeps at most one opening line in mind.  What it finds
can be told without the pass.  A file is cut into segments, each from the first line that
opens a block up to the first line from there on that closes one, and the documentation
block is the first segment with a line between its edges.
-/

namespace SourceTidy
namespace DocBlock

/-!
# Segments
-/

def firstFrom? (test : Text → Bool) (lines : List Text) (start : Nat) : Option Nat :=
  ((lines.drop start).findIdx? test).map (start + ·)

theorem forall_of_firstFrom?_eq_none {test : Text → Bool} {lines : List Text} {start : Nat}
    (h : firstFrom? test lines start = none) : ∀ line ∈ lines.drop start, test line = false :=
  List.findIdx?_eq_none_iff.mp (Option.map_eq_none_iff.mp h)

theorem exists_of_firstFrom? {test : Text → Bool} {lines : List Text} {start index : Nat}
    (h : firstFrom? test lines start = some index) :
    ∃ before line after, index = start + before.length ∧
      lines.drop start = before ++ line :: after ∧
      (∀ other ∈ before, test other = false) ∧ test line = true := by
  rcases Option.map_eq_some_iff.mp h with ⟨place, hplace, rfl⟩
  rcases List.findIdx?_eq_some_iff_getElem.mp hplace with ⟨hlength, hline, hbefore⟩
  refine ⟨(lines.drop start).take place, (lines.drop start)[place],
    (lines.drop start).drop (place + 1), ?_, ?_, ?_, hline⟩
  · rw [List.length_take, Nat.min_eq_left (Nat.le_of_lt hlength)]
  · rw [← List.drop_eq_getElem_cons hlength, List.take_append_drop]
  · intro other hother
    rcases List.mem_take_iff_getElem.mp hother with ⟨j, hj, rfl⟩
    simpa using hbefore j (by omega)

theorem firstFrom?_bounds {test : Text → Bool} {lines : List Text} {start index : Nat}
    (h : firstFrom? test lines start = some index) : start ≤ index ∧ index < lines.length := by
  rcases exists_of_firstFrom? h with ⟨before, line, after, rfl, hlines, _⟩
  have hlength := congrArg List.length hlines
  simp only [List.length_drop, List.length_append, List.length_cons] at hlength
  omega

/-- The first line from `start` on that opens a block, and the first line from there on that
closes one. -/
def edgesFrom? (lines : List Text) (start : Nat) : Option Span :=
  (firstFrom? isBlockStart lines start).bind fun first =>
    (firstFrom? isBlockEnd lines first).map fun last => { first := first, last := last }

theorem firstFrom?_of_edgesFrom? {lines : List Text} {start : Nat} {span : Span}
    (h : edgesFrom? lines start = some span) :
    firstFrom? isBlockStart lines start = some span.first ∧
      firstFrom? isBlockEnd lines span.first = some span.last := by
  rcases Option.bind_eq_some_iff.mp h with ⟨first, hfirst, hmap⟩
  rcases Option.map_eq_some_iff.mp hmap with ⟨last, hlast, rfl⟩
  exact ⟨hfirst, hlast⟩

theorem edgesFrom?_bounds {lines : List Text} {start : Nat} {span : Span}
    (h : edgesFrom? lines start = some span) :
    start ≤ span.first ∧ span.first ≤ span.last ∧ span.last < lines.length := by
  rcases firstFrom?_of_edgesFrom? h with ⟨hfirst, hlast⟩
  exact ⟨(firstFrom?_bounds hfirst).1, firstFrom?_bounds hlast⟩

/-- The first pair of edges, taken one after the other from `start` on, with a line between
them. -/
def segmentFrom? (lines : List Text) (start : Nat) : Option Span :=
  match hedges : edgesFrom? lines start with
  | none => none
  | some span =>
      if 2 ≤ span.last - span.first then some span else segmentFrom? lines (span.last + 1)
termination_by lines.length - start
decreasing_by
  have hbounds := edgesFrom?_bounds hedges
  omega

/-!
# The search, segment by segment
-/

theorem passedOver_of_no_start {lines : List Text}
    (h : ∀ line ∈ lines, isBlockStart line = false) : PassedOver lines := by
  induction lines with
  | nil => exact passedOver_nil
  | cons line rest ih =>
      have hline : PassedOver [line] := passedOver_singleton (Or.inl (h line List.mem_cons_self))
      exact hline.append (ih fun other hother => h other (List.mem_cons_of_mem line hother))

theorem locateFrom_none_eq_some {line : Text} (h : isBlockStart line = true) (index : Nat)
    (rest : List Text) :
    locateFrom index none (line :: rest) = locateFrom index (some index) (line :: rest) := by
  rw [locateFrom, locateFrom]
  simp only [h, if_true]

theorem locateFrom_no_start {lines : List Text} (h : ∀ line ∈ lines, isBlockStart line = false)
    (index : Nat) : locateFrom index none lines = none := by
  have hpassed := passedOver_of_no_start h index []
  rw [List.append_nil] at hpassed
  exact hpassed

theorem locateFrom_first {lines : List Text} {start first : Nat}
    (h : firstFrom? isBlockStart lines start = some first) :
    locateFrom start none (lines.drop start) = locateFrom first (some first) (lines.drop first) := by
  rcases exists_of_firstFrom? h with ⟨before, line, after, rfl, hlines, hbefore, hline⟩
  have hrest : lines.drop (start + before.length) = line :: after := by
    rw [← List.drop_drop, hlines, List.drop_left]
  rw [hlines, hrest, passedOver_of_no_start hbefore, locateFrom_none_eq_some hline]

theorem locateFrom_last {lines : List Text} {first last : Nat}
    (h : firstFrom? isBlockEnd lines first = some last) :
    locateFrom first (some first) (lines.drop first) =
      if 2 ≤ last - first then some { first := first, last := last }
      else locateFrom (last + 1) none (lines.drop (last + 1)) := by
  rcases exists_of_firstFrom? h with ⟨before, line, after, rfl, hlines, hbefore, hline⟩
  have hrest : lines.drop (first + before.length + 1) = after := by
    rw [Nat.add_assoc, ← List.drop_drop, hlines, ← List.drop_drop, List.drop_left]
    rfl
  rw [hlines, locateFrom_open first first hbefore hline, hrest, Nat.add_sub_cancel_left]
  simp only [Nat.add_le_add_iff_left]

theorem locateFrom_edges {lines : List Text} {start : Nat} {span : Span}
    (h : edgesFrom? lines start = some span) :
    locateFrom start none (lines.drop start) =
      if 2 ≤ span.last - span.first then some span
      else locateFrom (span.last + 1) none (lines.drop (span.last + 1)) := by
  rcases firstFrom?_of_edgesFrom? h with ⟨hfirst, hlast⟩
  rw [locateFrom_first hfirst, locateFrom_last hlast]

theorem locateFrom_no_edges {lines : List Text} {start : Nat}
    (h : edgesFrom? lines start = none) : locateFrom start none (lines.drop start) = none := by
  cases hfirst : firstFrom? isBlockStart lines start with
  | none => exact locateFrom_no_start (forall_of_firstFrom?_eq_none hfirst) start
  | some first =>
      rw [edgesFrom?, hfirst] at h
      have hlast := Option.map_eq_none_iff.mp h
      rw [locateFrom_first hfirst]
      exact locateFrom_never_closed first first (forall_of_firstFrom?_eq_none hlast)

theorem locateFrom_eq_segmentFrom? (lines : List Text) (start : Nat) :
    locateFrom start none (lines.drop start) = segmentFrom? lines start := by
  fun_induction segmentFrom? lines start with
  | case1 start hedges => exact locateFrom_no_edges hedges
  | case2 start span hedges hlong => rw [locateFrom_edges hedges, if_pos hlong]
  | case3 start span hedges hshort ih => rw [locateFrom_edges hedges, if_neg hshort, ih]

/-!
# Files without a block
-/

theorem entryValue_ne_missingBlock (key value : Text) :
    entryValue key value ≠ .error .missingBlock := by
  intro h
  rw [entryValue] at h
  split at h
  · rw [dateValue] at h
    split at h
    · cases h
    · cases h
  · cases h

theorem canonicalLine_ne_missingBlock (keys : KeyTable) (line : Text) :
    canonicalLine keys line ≠ .error .missingBlock := by
  intro h
  rw [canonicalLine] at h
  split at h
  · cases h
  · cases h
  · split at h
    · cases h
    · split at h
      · next hvalue =>
          cases h
          exact entryValue_ne_missingBlock _ _ hvalue
      · cases h

theorem normalizeInterior_ne_missingBlock (keys : KeyTable) (changed : Bool) (left : Nat)
    (lines : List Text) :
    (normalizeInterior keys changed left lines).result ≠ .error .missingBlock := by
  fun_induction normalizeInterior keys changed left lines with
  | case1 | case4 =>
      intro h
      cases h
  | case2 _ _ line _ fault hfault =>
      intro h
      cases h
      exact canonicalLine_ne_missingBlock keys line hfault
  | case3 _ _ _ _ _ ih | case5 _ _ _ _ _ _ _ _ ih | case6 _ _ _ _ _ _ _ _ ih => exact ih

theorem normalize_missingBlock_iff (keys : KeyTable) (lines : List Text) :
    (normalize keys lines).result = .error .missingBlock ↔ locate? lines = none := by
  cases hspan : locate? lines with
  | none =>
      rw [normalize, hspan]
      exact iff_of_true rfl rfl
  | some span =>
      rcases exists_block_of_locateFrom hspan with ⟨block, rfl⟩
      rw [normalize_lines]
      refine iff_of_false ?_ (Option.some_ne_none span)
      exact normalizeInterior_ne_missingBlock keys block.edgesChanged probeLength block.interior

/-!
# The outcome of the search
-/

/-- The search finds the first segment that has a line between its edges.  Such a segment
lies in the file and is not closed before its end, so normalizing it in place always finds a
line where it looks for one.  A block is reported as missing exactly if there is no such
segment. -/
theorem locate?_eq_segment (lines : List Text) :
    locate? lines = segmentFrom? lines 0 ∧
      (∀ span, locate? lines = some span →
        span.first + 2 ≤ span.last ∧ span.last < lines.length ∧
          ∀ index line, span.first ≤ index → index < span.last → lines[index]? = some line →
            isBlockEnd line = false) ∧
      ∀ keys, normalizeInPlace? keys lines = some (normalize keys lines) ∧
        ((normalize keys lines).result = .error .missingBlock ↔ segmentFrom? lines 0 = none) := by
  have hsegment : locate? lines = segmentFrom? lines 0 := locateFrom_eq_segmentFrom? lines 0
  refine ⟨hsegment, ?_, ?_⟩
  · intro span hspan
    have hlocated := located_of_locate? hspan
    rcases hlocated.closing with ⟨closing, hclosing, _⟩
    exact ⟨hlocated.interior, (List.getElem?_eq_some_iff.mp hclosing).1, hlocated.staysOpen⟩
  · intro keys
    rw [← hsegment]
    exact ⟨normalizeInPlace?_eq keys lines, normalize_missingBlock_iff keys lines⟩

def emptyPairs : List Text :=
  ["/* one line */".toList, "/*".toList, "*/".toList, "int x;".toList, "  /**".toList,
   "/* Title: x".toList, "   */".toList]

theorem locate?_eq_segment_emptyPairs :
    locate? emptyPairs = some { first := 4, last := 6 } ∧
      segmentFrom? emptyPairs 0 = some { first := 4, last := 6 } ∧ 6 < emptyPairs.length ∧
      (normalize KeyTable.standard emptyPairs).result ≠ .error .missingBlock := by
  have hlocate : locate? emptyPairs = some { first := 4, last := 6 } := by decide +kernel
  rcases locate?_eq_segment emptyPairs with ⟨hsegment, hspan, hnormalize⟩
  rw [hlocate] at hsegment
  refine ⟨hlocate, hsegment.symm, (hspan _ hlocate).2.1, ?_⟩
  rw [Ne, (hnormalize KeyTable.standard).2, ← hsegment]
  exact Option.some_ne_none _

end DocBlock
end SourceTidy
