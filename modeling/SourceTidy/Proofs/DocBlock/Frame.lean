import SourceTidy.Proofs.Config.Validation
import SourceTidy.Proofs.DocBlock.EarlyStop
import SourceTidy.Proofs.DocBlock.ReadBack
import SourceTidy.Proofs.DocBlock.Scan

/-!
# What normalizing touches

Normalizing writes to the lines of the block only.  If it goes through, the edges are banners
and every line between them has one of three shapes, an entry with a key of the configuration
among them.  If it ends at a fault, the lines above the failing one are done and the others
are as they were.
-/

namespace SourceTidy
namespace DocBlock

/-!
# The shape of a line
-/

/-- The shapes that a line between the edges is brought into. -/
inductive ShapedLine (canonical : List Text) : Text → Prop where
  | empty : ShapedLine canonical ['*']
  | free {text : Text} (nonempty : text ≠ []) (trimmed : Text.Trimmed text) :
      ShapedLine canonical ("*   ".toList ++ text)
  | entry {key : Text} (known : key ∈ canonical) (value : Text) :
      ShapedLine canonical
        (Text.trimEnd ("* ".toList ++ Text.padRight 6 key ++ ": ".toList ++ value))

theorem shapedLine_of_canonicalLine {keys : KeyTable} (hkeys : keys.dangling = [])
    {line out : Text} (h : canonicalLine keys line = .ok out) : ShapedLine keys.canonical out := by
  rcases canonicalLine_cases h with
    ⟨_, rfl⟩ | ⟨text, hread, rfl⟩ | ⟨key, value, target, written, _, htarget, _, rfl⟩
  · exact ShapedLine.empty
  · rw [Interior.ofLine_eq] at hread
    rcases Interior.ofText_eq_continuation hread with ⟨rfl, hnonempty⟩
    exact ShapedLine.free hnonempty (Text.trimmed_trim _)
  · exact ShapedLine.entry (KeyTable.mem_canonical_of_resolve? hkeys htarget) written

/-!
# Passes that end at a fault
-/

/-- A pass over some lines came to the one at `place` and found the fault there.  The lines in
front of it hold their canonical form, and from there on nothing has been done. -/
structure StopsAt (keys : KeyTable) (fault : Fault) (lines out : List Text) (place : Nat) :
    Prop where
  failing : ∃ line, lines[place]? = some line ∧ canonicalLine keys line = .error fault
  before : ∀ index < place, ∃ line canonical, lines[index]? = some line ∧
    canonicalLine keys line = .ok canonical ∧ out[index]? = some canonical
  rest : ∀ index, place ≤ index → out[index]? = lines[index]?

section Interior

variable {keys : KeyTable} {fault : Fault} {line : Text}

theorem stopsAt_zero (h : canonicalLine keys line = .error fault) (rest : List Text) :
    StopsAt keys fault (line :: rest) (line :: rest) 0 where
  failing := ⟨line, rfl, h⟩
  before := by
    intro index hindex
    cases hindex
  rest := by
    intro index _
    rfl

theorem StopsAt.cons {rest out : List Text} {place : Nat} (h : StopsAt keys fault rest out place)
    {canonical : Text} (hline : canonicalLine keys line = .ok canonical) :
    StopsAt keys fault (line :: rest) (canonical :: out) (place + 1) where
  failing := h.failing
  before := by
    intro index hindex
    cases index with
    | zero => exact ⟨line, canonical, rfl, hline, rfl⟩
    | succ index => exact h.before index (Nat.lt_of_succ_lt_succ hindex)
  rest := by
    intro index hindex
    cases index with
    | zero => cases hindex
    | succ index => exact h.rest index (Nat.le_of_succ_le_succ hindex)

theorem exists_stopsAt {changed : Bool} {left : Nat} {lines : List Text}
    (h : (normalizeInterior keys changed left lines).result = .error fault) :
    ∃ place,
      StopsAt keys fault lines (normalizeInterior keys changed left lines).lines place := by
  fun_induction normalizeInterior keys changed left lines with
  | case1 | case4 => cases h
  | case2 _ _ line rest _ hfault =>
      cases h
      exact ⟨0, stopsAt_zero hfault rest⟩
  | case3 _ _ _ _ hcanonical ih =>
      rcases ih h with ⟨place, hstops⟩
      exact ⟨place + 1, hstops.cons hcanonical⟩
  | case5 _ _ _ _ _ _ _ hcanonical ih =>
      rcases ih h with ⟨place, hstops⟩
      exact ⟨place + 1, hstops.cons hcanonical⟩
  | case6 _ _ _ _ _ hcanonical _ _ ih =>
      rcases ih h with ⟨place, hstops⟩
      exact ⟨place + 1, hstops.cons hcanonical⟩

theorem exists_canonicalLine_of_changed {changed : Bool} {left : Nat} {lines : List Text}
    (h : (normalizeInterior keys changed left lines).result = .ok true) :
    ∀ out ∈ (normalizeInterior keys changed left lines).lines,
      ∃ line, canonicalLine keys line = .ok out := by
  fun_induction normalizeInterior keys changed left lines with
  | case1 => simp
  | case2 | case4 => cases h
  | case3 _ _ line _ hcanonical ih =>
      exact List.forall_mem_cons.mpr ⟨⟨line, hcanonical⟩, ih h⟩
  | case5 _ _ _ line _ _ _ hcanonical ih =>
      exact List.forall_mem_cons.mpr ⟨⟨line, hcanonical⟩, ih h⟩
  | case6 _ _ line _ _ hcanonical _ _ ih =>
      exact List.forall_mem_cons.mpr ⟨⟨line, hcanonical⟩, ih h⟩

end Interior

/-!
# The whole file
-/

theorem Block.length_interior_normalized (keys : KeyTable) (block : Block) :
    (block.normalized keys).interior.length = block.interior.length :=
  length_normalizeInterior keys block.edgesChanged probeLength block.interior

theorem Block.length_lines_normalized (keys : KeyTable) (block : Block) :
    (block.normalized keys).lines.length = block.lines.length := by
  have hinterior := block.length_interior_normalized keys
  simp only [Block.lines, List.length_append, List.length_cons, hinterior]
  rfl

theorem Block.interior_normalized (keys : KeyTable) (block : Block) :
    Span.interior
        { first := block.before.length
          last := block.before.length + 1 + block.interior.length } (block.normalized keys).lines =
      (block.normalized keys).interior := by
  rw [← block.length_interior_normalized keys]
  exact (block.normalized keys).interior_lines

theorem Block.getElem?_closing_normalized (keys : KeyTable) (block : Block) :
    (block.normalized keys).lines[block.before.length + 1 + block.interior.length]? =
      some closingBanner := by
  rw [← block.length_interior_normalized keys]
  exact (block.normalized keys).getElem?_closing

/-- The banners stand at the edges of a block, and the lines between them are in shape. -/
structure ShapedBlock (canonical lines : List Text) (span : Span) : Prop where
  opening : lines[span.first]? = some openingBanner
  closing : lines[span.last]? = some closingBanner
  interior : ∀ line ∈ span.interior lines, ShapedLine canonical line

/-- Under an accepted configuration, normalizing keeps the number of lines and all lines around
the block, whatever comes of it.  A block that was changed is in shape, with the keys of the
configuration.  After a fault the lines of the block are done up to the first one that has no
canonical form, which is where the fault comes from, and not touched from there on. -/
theorem normalize_frame {config : Config} (hconfig : config.defect? = none) {lines : List Text}
    {span : Span} (hspan : locate? lines = some span) :
    (normalize config.keyTable lines).lines.length = lines.length ∧
      (∀ index, index < span.first ∨ span.last < index →
        (normalize config.keyTable lines).lines[index]? = lines[index]?) ∧
      ((normalize config.keyTable lines).result = .ok true →
        ShapedBlock config.canonicalKeys (normalize config.keyTable lines).lines span) ∧
      ∀ fault, (normalize config.keyTable lines).result = .error fault →
        ∃ place, StopsAt config.keyTable fault (span.interior lines)
          (span.interior (normalize config.keyTable lines).lines) place := by
  have hframe : ∀ index, index < span.first ∨ span.last < index →
      (normalize config.keyTable lines).lines[index]? = lines[index]? :=
    fun _ hindex => getElem?_normalize hspan config.keyTable hindex
  rcases exists_block_of_locateFrom hspan with ⟨block, rfl⟩
  rw [Block.span_eq hspan] at hframe ⊢
  rw [normalize_eq] at hframe ⊢
  refine ⟨block.length_lines_normalized config.keyTable, hframe, ?_, ?_⟩
  · intro hchanged
    refine ⟨(block.normalized config.keyTable).getElem?_opening,
      block.getElem?_closing_normalized config.keyTable, ?_⟩
    rw [block.interior_normalized]
    intro out hout
    rcases exists_canonicalLine_of_changed hchanged out hout with ⟨line, hline⟩
    exact shapedLine_of_canonicalLine (Config.dangling_of_defect? hconfig) hline
  · intro fault hfault
    rw [block.interior_lines, block.interior_normalized]
    exact exists_stopsAt hfault

def unknownEntry : List Text :=
  ["class A".toList, "/*".toList, " * Name: x".toList, " *".toList, "* Owner: y".toList,
   " * Name: z".toList, " */".toList, "class B".toList]

theorem normalize_frame_unknownEntry :
    Config.standard.defect? = none ∧ locate? unknownEntry = some ⟨1, 6⟩ ∧
      (normalize Config.standard.keyTable unknownEntry).result =
        .error (.unknownKey "Owner".toList) ∧
      (normalize Config.standard.keyTable unknownEntry).lines[7]? = some "class B".toList ∧
      ∃ place, StopsAt Config.standard.keyTable (.unknownKey "Owner".toList)
        (Span.interior ⟨1, 6⟩ unknownEntry)
        (Span.interior ⟨1, 6⟩ (normalize Config.standard.keyTable unknownEntry).lines) place := by
  have hconfig : Config.standard.defect? = none := by decide +kernel
  have hspan : locate? unknownEntry = some ⟨1, 6⟩ := by decide +kernel
  have hfault : (normalize Config.standard.keyTable unknownEntry).result =
      .error (.unknownKey "Owner".toList) := by decide +kernel
  rcases normalize_frame hconfig hspan with ⟨_, hframe, _, hstops⟩
  exact ⟨hconfig, hspan, hfault, hframe 7 (Or.inr (by decide)), hstops _ hfault⟩

end DocBlock
end SourceTidy
