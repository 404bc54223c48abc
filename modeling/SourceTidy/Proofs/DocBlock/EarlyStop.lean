import SourceTidy.Proofs.DocBlock.Blocks
import SourceTidy.Proofs.DocBlock.Lines

/-!
# Stopping early

Normalizing leaves the rest of a block unread once its edges and its first lines
have turned out canonical.  Beside it stands the scan that reads every line.  The
two agree on all blocks but those that pass the probe, and these are left alone.
-/

namespace SourceTidy
namespace DocBlock

/-!
# The scan without a probe
-/

/-- Bring all lines between the edges into canonical form, up to the first that has
none.  The result says whether anything in the block has changed, as `changed` says
of what was done so far. -/
def scanInterior (keys : KeyTable) (changed : Bool) : List Text → Edited Bool
  | [] => { lines := [], result := .ok changed }
  | line :: rest =>
      match canonicalLine keys line with
      | .error fault => { lines := line :: rest, result := .error fault }
      | .ok canonical =>
          let edited := scanInterior keys (changed || canonical ≠ line) rest
          { edited with lines := canonical :: edited.lines }

def scan (keys : KeyTable) (lines : List Text) : Edited Bool :=
  passWith (scanInterior keys) lines

section Interior

variable {keys : KeyTable} {line : Text} {rest : List Text}

theorem scanInterior_cons_of_error {fault : Fault} (changed : Bool)
    (h : canonicalLine keys line = .error fault) :
    scanInterior keys changed (line :: rest) =
      { lines := line :: rest, result := .error fault } := by
  rw [scanInterior, h]

theorem scanInterior_cons_of_ok {canonical : Text} (changed : Bool)
    (h : canonicalLine keys line = .ok canonical) :
    scanInterior keys changed (line :: rest) =
      { lines := canonical ::
          (scanInterior keys (changed || canonical ≠ line) rest).lines
        result := (scanInterior keys (changed || canonical ≠ line) rest).result } := by
  rw [scanInterior, h]

theorem normalizeInterior_cons_of_error {fault : Fault} (changed : Bool) (left : Nat)
    (h : canonicalLine keys line = .error fault) :
    normalizeInterior keys changed left (line :: rest) =
      { lines := line :: rest, result := .error fault } := by
  rw [normalizeInterior, h]

theorem normalizeInterior_cons_of_ne {canonical : Text} (changed : Bool) (left : Nat)
    (h : canonicalLine keys line = .ok canonical) (hne : canonical ≠ line) :
    normalizeInterior keys changed left (line :: rest) =
      { lines := canonical :: (normalizeInterior keys true left rest).lines
        result := (normalizeInterior keys true left rest).result } := by
  rw [normalizeInterior, h]
  exact if_neg hne

theorem normalizeInterior_cons_of_changed (left : Nat) (h : canonicalLine keys line = .ok line) :
    normalizeInterior keys true left (line :: rest) =
      { lines := line :: (normalizeInterior keys true left rest).lines
        result := (normalizeInterior keys true left rest).result } := by
  rw [normalizeInterior, h]
  exact if_pos rfl

theorem normalizeInterior_cons_last (h : canonicalLine keys line = .ok line) :
    normalizeInterior keys false 1 (line :: rest) =
      { lines := line :: rest, result := .ok false } := by
  rw [normalizeInterior, h]
  exact if_pos rfl

theorem normalizeInterior_cons_next (left : Nat) (h : canonicalLine keys line = .ok line) :
    normalizeInterior keys false (left + 2) (line :: rest) =
      { lines := line :: (normalizeInterior keys false (left + 1) rest).lines
        result := (normalizeInterior keys false (left + 1) rest).result } := by
  rw [normalizeInterior, h]
  exact if_pos rfl

/-!
# After a change

There is nothing left to probe.
-/

theorem normalizeInterior_eq_scanInterior (keys : KeyTable) (left : Nat) (lines : List Text) :
    normalizeInterior keys true left lines = scanInterior keys true lines := by
  induction lines with
  | nil => rfl
  | cons line rest ih =>
      cases hline : canonicalLine keys line with
      | error fault =>
          rw [normalizeInterior_cons_of_error true left hline,
            scanInterior_cons_of_error true hline]
      | ok canonical =>
          rw [scanInterior_cons_of_ok true hline, Bool.true_or, ← ih]
          by_cases heq : canonical = line
          · subst heq
            exact normalizeInterior_cons_of_changed left hline
          · exact normalizeInterior_cons_of_ne true left hline heq

/-!
# Before a change

The probe is passed by lines that are at least as many as are left to be probed and
of which so many are canonical.
-/

/-- The first `left` lines are there and canonical. -/
def PassesProbe (keys : KeyTable) (left : Nat) (lines : List Text) : Prop :=
  left ≤ lines.length ∧ ∀ line ∈ lines.take left, canonicalLine keys line = .ok line

theorem passesProbe_zero (keys : KeyTable) (lines : List Text) : PassesProbe keys 0 lines := by
  constructor
  · exact Nat.zero_le _
  · intro line hline
    cases hline

theorem passesProbe_cons_iff {left : Nat} :
    PassesProbe keys (left + 1) (line :: rest) ↔
      canonicalLine keys line = .ok line ∧ PassesProbe keys left rest := by
  unfold PassesProbe
  rw [List.length_cons, Nat.succ_le_succ_iff, List.take_succ_cons, List.forall_mem_cons]
  exact and_left_comm

theorem normalizeInterior_of_passesProbe {left : Nat} {lines : List Text}
    (h : PassesProbe keys (left + 1) lines) :
    normalizeInterior keys false (left + 1) lines = { lines := lines, result := .ok false } := by
  induction lines generalizing left with
  | nil => cases h.1
  | cons line rest ih =>
      rcases passesProbe_cons_iff.mp h with ⟨hline, hrest⟩
      cases left with
      | zero => exact normalizeInterior_cons_last hline
      | succ left => rw [normalizeInterior_cons_next left hline, ih hrest]

theorem normalizeInterior_of_not_passesProbe {left : Nat} {lines : List Text}
    (h : ¬ PassesProbe keys (left + 1) lines) :
    normalizeInterior keys false (left + 1) lines = scanInterior keys false lines := by
  induction lines generalizing left with
  | nil => rfl
  | cons line rest ih =>
      cases hline : canonicalLine keys line with
      | error fault =>
          rw [normalizeInterior_cons_of_error false _ hline,
            scanInterior_cons_of_error false hline]
      | ok canonical =>
          rw [scanInterior_cons_of_ok false hline, Bool.false_or]
          by_cases heq : canonical = line
          · subst heq
            have hrest : ¬ PassesProbe keys left rest := by
              intro hpasses
              exact h (passesProbe_cons_iff.mpr ⟨hline, hpasses⟩)
            cases left with
            | zero => exact absurd (passesProbe_zero keys rest) hrest
            | succ left =>
                rw [normalizeInterior_cons_next left hline, ih hrest, decide_eq_false (by simp)]
          · -- The first change: from here on both read everything.
            rw [normalizeInterior_cons_of_ne false _ hline heq,
              normalizeInterior_eq_scanInterior, decide_eq_true heq]

end Interior

/-!
# The whole file
-/

def Span.interior (span : Span) (lines : List Text) : List Text :=
  (lines.drop (span.first + 1)).take (span.last - (span.first + 1))

/-- The edges of a block are banners, and the lines between them pass the probe. -/
structure TakenAsCanonical (keys : KeyTable) (lines : List Text) (span : Span) : Prop where
  opening : lines[span.first]? = some openingBanner
  closing : lines[span.last]? = some closingBanner
  probe : PassesProbe keys probeLength (span.interior lines)

theorem Block.interior_lines (block : Block) :
    Span.interior
        { first := block.before.length
          last := block.before.length + 1 + block.interior.length } block.lines =
      block.interior := by
  unfold Span.interior
  rw [block.drop_opening, Nat.add_sub_cancel_left, List.take_left]

theorem Block.takenAsCanonical_iff (keys : KeyTable) (block : Block) :
    TakenAsCanonical keys block.lines
        { first := block.before.length
          last := block.before.length + 1 + block.interior.length } ↔
      block.edgesChanged = false ∧ PassesProbe keys probeLength block.interior := by
  rw [← block.getElem?_edges_iff]
  constructor
  · rintro ⟨hopening, hclosing, hprobe⟩
    rw [block.interior_lines] at hprobe
    exact ⟨⟨hopening, hclosing⟩, hprobe⟩
  · rintro ⟨⟨hopening, hclosing⟩, hprobe⟩
    rw [← block.interior_lines] at hprobe
    exact ⟨hopening, hclosing, hprobe⟩

theorem Block.normalize_takenAsCanonical {keys : KeyTable} {block : Block}
    (hedges : block.edgesChanged = false) (hprobe : PassesProbe keys probeLength block.interior) :
    normalize keys block.lines = { lines := block.lines, result := .ok false } := by
  have hpass : normalizeInterior keys false probeLength block.interior =
      { lines := block.interior, result := .ok false } :=
    normalizeInterior_of_passesProbe hprobe
  rcases block.edgesChanged_eq_false_iff.mp hedges with ⟨hopening, hclosing⟩
  rw [normalize_lines, hedges, hpass, Block.lines, hopening, hclosing]

theorem Block.normalize_eq_scan {keys : KeyTable} {block : Block}
    (h : ¬ (block.edgesChanged = false ∧ PassesProbe keys probeLength block.interior)) :
    normalize keys block.lines = scan keys block.lines := by
  have hpass : normalizeInterior keys block.edgesChanged probeLength block.interior =
      scanInterior keys block.edgesChanged block.interior := by
    cases hedges : block.edgesChanged with
    | true => exact normalizeInterior_eq_scanInterior keys probeLength block.interior
    | false =>
        apply normalizeInterior_of_not_passesProbe
        intro hprobe
        exact h ⟨hedges, hprobe⟩
  rw [normalize_lines, scan, passWith_lines, hpass]

/-- A located block that passes the probe is left as it is and reported unchanged.
On every other one normalizing gives the lines and the result of the full scan, also
where that ends at a fault. -/
theorem normalize_agrees_with_scan (keys : KeyTable) {lines : List Text} {span : Span}
    (h : locate? lines = some span) :
    (TakenAsCanonical keys lines span →
      normalize keys lines = { lines := lines, result := .ok false }) ∧
    (¬ TakenAsCanonical keys lines span → normalize keys lines = scan keys lines) := by
  rcases exists_block_of_locateFrom h with ⟨block, rfl⟩
  have hspan := block.locateFrom_lines 0
  rw [Nat.zero_add] at hspan
  rw [locate?, hspan] at h
  cases h
  rw [block.takenAsCanonical_iff]
  constructor
  · intro htaken
    exact Block.normalize_takenAsCanonical htaken.1 htaken.2
  · intro htaken
    exact Block.normalize_eq_scan htaken

def titles : KeyTable where
  aliases := [(['N', 'a', 'm', 'e'], ['T', 'i', 't', 'l', 'e'])]
  canonical := [['T', 'i', 't', 'l', 'e']]

def lateFault : List Text :=
  openingBanner :: (["* Title : x".toList, "*".toList, "*   free text".toList,
    "* Title :".toList, "*".toList, "*".toList, "*".toList, "* URL: z".toList] ++
    [closingBanner, "class A".toList])

def earlyFault : List Text :=
  ["/*".toList, " * Name: x".toList, "* URL: z".toList, " * Name: y".toList, "*/".toList]

theorem normalize_agrees_with_scan_faults :
    (normalize titles lateFault = { lines := lateFault, result := .ok false } ∧
      (scan titles lateFault).result = .error (.unknownKey "URL".toList)) ∧
    (normalize titles earlyFault = scan titles earlyFault ∧
      (scan titles earlyFault).result = .error (.unknownKey "URL".toList) ∧
      (scan titles earlyFault).lines =
        [openingBanner, "* Title : x".toList, "* URL: z".toList, " * Name: y".toList,
          closingBanner]) := by
  constructor
  · have hlocate : locate? lateFault = some { first := 0, last := 9 } := by decide +kernel
    have htaken : TakenAsCanonical titles lateFault { first := 0, last := 9 } :=
      { opening := rfl
        closing := rfl
        probe := ⟨by decide, by decide +kernel⟩ }
    exact ⟨(normalize_agrees_with_scan titles hlocate).1 htaken, by decide +kernel⟩
  · have hlocate : locate? earlyFault = some { first := 0, last := 4 } := by decide +kernel
    have hnot : ¬ TakenAsCanonical titles earlyFault { first := 0, last := 4 } := by
      intro htaken
      exact absurd htaken.opening (by decide +kernel)
    exact ⟨(normalize_agrees_with_scan titles hlocate).2 hnot, by decide +kernel,
      by decide +kernel⟩

end DocBlock
end SourceTidy
