import SourceTidy.Proofs.DocBlock.Convergence
import SourceTidy.Proofs.DocBlock.EarlyStop
import SourceTidy.Proofs.DocBlock.ReadBack

/-!
# Clean blocks

A block that normalizing reports as unchanged can be told without normalizing it.  Its
edges are banners, and its first lines belong to a small grammar: an asterisk alone, free
text after its lead, and entries in their column.
-/

namespace SourceTidy
namespace DocBlock

/-!
# The grammar of clean lines
-/

/-- No key is read in a text: it has no colon, or its first colon comes too late or belongs
to a web address. -/
def Keyless (text : Text) : Prop :=
  ∀ before after, text = before ++ ':' :: after → ':' ∉ before →
    16 < Text.byteLength before ∨ "http".toList <:+ before ∨ "https".toList <:+ before

/-- The clean lines of a block with the given canonical keys. -/
inductive CleanLine (canonical : List Text) : Text → Prop where
  | empty : CleanLine canonical ['*']
  | free {text : Text} (nonempty : text ≠ []) (trimmed : Text.Trimmed text)
      (keyless : Keyless text) : CleanLine canonical ("*   ".toList ++ text)
  | bare {key : Text} (known : key ∈ canonical) (plain : key ≠ dateKey) :
      CleanLine canonical ("* ".toList ++ Text.padRight 6 key ++ ":".toList)
  | entry {key value : Text} (known : key ∈ canonical) (nonempty : value ≠ [])
      (trimmed : Text.Trimmed value)
      (date : key = dateKey → Calendar.canonical? value = some value) :
      CleanLine canonical ("* ".toList ++ Text.padRight 6 key ++ ": ".toList ++ value)

/-!
# Free text
-/

theorem endsInScheme_eq_true_iff (text : Text) :
    endsInScheme text = true ↔ "http".toList <:+ text ∨ "https".toList <:+ text := by
  rw [endsInScheme, Bool.or_eq_true, List.isSuffixOf_iff_suffix, List.isSuffixOf_iff_suffix]

theorem keyless_colon_iff {before : Text} (hcolon : ':' ∉ before) (after : Text) :
    Keyless (before ++ ':' :: after) ↔
      ¬ (Text.byteLength before ≤ keyLimit && !endsInScheme before) = true := by
  have hcut : Keyless (before ++ ':' :: after) ↔
      (16 < Text.byteLength before ∨ "http".toList <:+ before ∨ "https".toList <:+ before) := by
    constructor
    · intro h
      exact h before after rfl hcolon
    · -- The first colon of a text can be found in one way only.
      intro h other rest hsame hother
      have hfirst := congrArg (Text.cutBefore? (· == ':')) hsame
      rw [Text.cutBefore?_append (Text.beq_eq_false_of_not_mem hcolon) rfl,
        Text.cutBefore?_append (Text.beq_eq_false_of_not_mem hother) rfl] at hfirst
      cases hfirst
      exact h
  rw [hcut, ← endsInScheme_eq_true_iff, Bool.and_eq_true, decide_eq_true_eq, Bool.not_eq_true',
    not_and_or, Bool.not_eq_false, Nat.not_le]
  rfl

theorem ofText_eq_continuation_iff (text : Text) :
    Interior.ofText text = .continuation text ↔ text ≠ [] ∧ Keyless text := by
  rcases Text.cutBefore?_cases (· == ':') text with
    hnone | ⟨before, c, after, htext, hbefore, hc⟩
  · have hkeyless : Keyless text := by
      intro before after hcut _
      have hcolon := hnone ':' (hcut ▸ by simp)
      cases hcolon
    rw [and_iff_left hkeyless, Interior.ofText, Text.cutBefore?_eq_none hnone]
    cases text <;> simp
  · have hc' : c = ':' := by simpa using hc
    have hcolon : ':' ∉ before := fun hmem => by simpa using hbefore ':' hmem
    rw [htext, hc', Interior.ofText_colon hcolon, keyless_colon_iff hcolon]
    split
    · next hread => exact iff_of_false (by simp) fun h => h.2 hread
    · next hfree => exact iff_of_true rfl ⟨by simp, hfree⟩

/-!
# Clean lines are the canonical ones

The keys of the table have to be found again in their column and stand for themselves.
-/

/-- Every key of a table is found again in its column and stands for itself. -/
structure KeyTable.Upright (keys : KeyTable) : Prop where
  legible : ∀ key ∈ keys.canonical, Legible key
  own : ∀ key ∈ keys.canonical, keys.resolve? key = some key
  known : ∀ key target, keys.resolve? key = some target → target ∈ keys.canonical

theorem KeyTable.Upright.canonicalLine_entryLine {keys : KeyTable} (hkeys : keys.Upright)
    {key value : Text} (hkey : key ∈ keys.canonical) (hvalue : Text.Trimmed value)
    (hwritten : entryValue key value = .ok value) :
    canonicalLine keys (entryLine key value) = .ok (entryLine key value) :=
  DocBlock.canonicalLine_entryLine (hkeys.legible key hkey) (hkeys.own key hkey) hvalue hwritten

theorem entryLine_nil (key : Text) :
    entryLine key [] = "* ".toList ++ Text.padRight 6 key ++ ":".toList := by
  have hend : Text.trimEnd [' '] = [] := by decide
  rw [entryLine_eq, hend]
  rfl

theorem entryLine_of_ne_nil (key : Text) {value : Text} (hvalue : Text.Trimmed value)
    (hne : value ≠ []) :
    entryLine key value = "* ".toList ++ Text.padRight 6 key ++ ": ".toList ++ value :=
  Text.trimEnd_append _ hvalue hne

theorem cleanLine_entryLine {canonical : List Text} {key value : Text} (hkey : key ∈ canonical)
    (hvalue : Text.Trimmed value) (hwritten : entryValue key value = .ok value) :
    CleanLine canonical (entryLine key value) := by
  have hdate : key = dateKey → Calendar.canonical? value = some value := by
    intro hkey
    rcases entryValue_cases hwritten with ⟨_, hplain⟩ | ⟨_, hcanonical⟩
    · exact absurd hkey hplain
    · exact hcanonical
  by_cases hempty : value = []
  · subst hempty
    rw [entryLine_nil]
    apply CleanLine.bare hkey
    intro hkey
    exact absurd (hdate hkey) (by decide +kernel)
  · rw [entryLine_of_ne_nil key hvalue hempty]
    exact CleanLine.entry hkey hempty hvalue hdate

theorem canonicalLine_eq_self_iff {keys : KeyTable} (hkeys : keys.Upright) (line : Text) :
    canonicalLine keys line = .ok line ↔ CleanLine keys.canonical line := by
  constructor
  · intro h
    rcases canonicalLine_cases h with
      ⟨_, hout⟩ | ⟨text, hread, hout⟩ | ⟨key, value, target, written, hread, htarget, hvalue, hout⟩
    · rw [hout]
      exact CleanLine.empty
    · rw [Interior.ofLine_eq] at hread
      have htext := (Interior.ofText_eq_continuation hread).1
      have htrimmed : Text.Trimmed text := htext ▸ Text.trimmed_trim _
      rw [htext] at hread
      have hfree := (ofText_eq_continuation_iff text).mp hread
      rw [hout]
      exact CleanLine.free hfree.1 htrimmed hfree.2
    · have hwritten := entryValue_entryValue hvalue (trimmed_of_ofLine hread)
      rw [hout]
      exact cleanLine_entryLine (hkeys.known key target htarget) hwritten.1 hwritten.2
  · intro h
    cases h with
    | empty => rfl
    | free nonempty trimmed keyless =>
        have hread := (ofText_eq_continuation_iff _).mpr ⟨nonempty, keyless⟩
        rw [← ofLine_continuationLead trimmed] at hread
        exact canonicalLine_continuation hread
    | bare known plain =>
        have hempty : Text.Trimmed [] := Text.trimmed_trim []
        rw [← entryLine_nil]
        exact hkeys.canonicalLine_entryLine known hempty (if_neg plain)
    | @entry key value known nonempty trimmed date =>
        rw [← entryLine_of_ne_nil key trimmed nonempty]
        apply hkeys.canonicalLine_entryLine known trimmed
        rw [entryValue]
        split
        · next hdate => rw [dateValue, date hdate]
        · rfl

/-!
# Unchanged blocks
-/

section Unchanged

variable {keys : KeyTable}

theorem normalizeInterior_unchanged_iff (left : Nat) (lines : List Text) :
    (normalizeInterior keys false (left + 1) lines).result = .ok false ↔
      ∀ line ∈ lines.take (left + 1), canonicalLine keys line = .ok line := by
  induction lines generalizing left with
  | nil => exact iff_of_true rfl (by simp)
  | cons line rest ih =>
      rw [List.take_succ_cons, List.forall_mem_cons]
      by_cases hline : canonicalLine keys line = .ok line
      · rw [and_iff_right hline]
        cases left with
        | zero =>
            rw [normalizeInterior_cons_last hline]
            exact iff_of_true rfl (by simp)
        | succ left =>
            rw [normalizeInterior_cons_next left hline]
            exact ih left
      · apply iff_of_false
        · -- A fault ends the pass, and a change is not forgotten.
          intro hresult
          cases hcanonical : canonicalLine keys line with
          | error fault =>
              rw [normalizeInterior_cons_of_error false _ hcanonical] at hresult
              cases hresult
          | ok canonical =>
              have hne : canonical ≠ line := fun hsame => hline (hsame ▸ hcanonical)
              rw [normalizeInterior_cons_of_ne false _ hcanonical hne] at hresult
              cases (normalizeInterior_unchanged hresult).1
        · intro h
          exact hline h.1

theorem Block.normalize_unchanged_iff (block : Block) :
    (normalize keys block.lines).result = .ok false ↔
      block.edgesChanged = false ∧
        ∀ line ∈ block.interior.take probeLength, canonicalLine keys line = .ok line := by
  rw [normalize_lines]
  cases hedges : block.edgesChanged with
  | false =>
      rw [and_iff_right rfl]
      exact normalizeInterior_unchanged_iff 6 block.interior
  | true =>
      refine iff_of_false ?_ (by simp)
      intro hresult
      cases (normalizeInterior_unchanged hresult).1

/-- The edges of a block are banners, and its first seven lines, or as many as there are,
are clean. -/
structure CleanBlock (canonical : List Text) (lines : List Text) (span : Span) : Prop where
  opening : lines[span.first]? = some openingBanner
  closing : lines[span.last]? = some closingBanner
  interior : ∀ line ∈ (span.interior lines).take 7, CleanLine canonical line

theorem Block.cleanBlock_iff (canonical : List Text) (block : Block) :
    CleanBlock canonical block.lines
        { first := block.before.length
          last := block.before.length + 1 + block.interior.length } ↔
      block.edgesChanged = false ∧ ∀ line ∈ block.interior.take 7, CleanLine canonical line := by
  rw [← block.getElem?_edges_iff]
  constructor
  · rintro ⟨hopening, hclosing, hinterior⟩
    rw [block.interior_lines] at hinterior
    exact ⟨⟨hopening, hclosing⟩, hinterior⟩
  · rintro ⟨⟨hopening, hclosing⟩, hinterior⟩
    rw [← block.interior_lines] at hinterior
    exact ⟨hopening, hclosing, hinterior⟩

end Unchanged

theorem normalize_unchanged_iff {keys : KeyTable} (hkeys : keys.Upright) (lines : List Text) :
    (normalize keys lines).result = .ok false ↔
      ∃ span, locate? lines = some span ∧ CleanBlock keys.canonical lines span := by
  cases hspan : locate? lines with
  | none =>
      rw [normalize, hspan]
      refine iff_of_false (by simp) ?_
      rintro ⟨_, hsome, _⟩
      cases hsome
  | some span =>
      rcases exists_block_of_locateFrom hspan with ⟨block, rfl⟩
      rw [block.locate?_lines] at hspan
      cases hspan
      rw [block.normalize_unchanged_iff]
      simp only [canonicalLine_eq_self_iff hkeys]
      constructor
      · intro h
        exact ⟨_, rfl, (block.cleanBlock_iff _).mpr h⟩
      · rintro ⟨_, hsame, hclean⟩
        cases hsame
        exact (block.cleanBlock_iff _).mp hclean

theorem upright_standard : KeyTable.standard.Upright where
  legible := by decide +kernel
  own := by decide +kernel
  known := fun _ _ h => KeyTable.mem_canonical_of_resolve? (by decide +kernel) h

/-- With the standard keys normalizing reports no change exactly if a block is located and
is clean. -/
theorem normalize_unchanged_iff_clean (lines : List Text) :
    (normalize KeyTable.standard lines).result = .ok false ↔
      ∃ span, locate? lines = some span ∧ CleanBlock standardKeys lines span :=
  normalize_unchanged_iff upright_standard lines

end DocBlock
end SourceTidy
