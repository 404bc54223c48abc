import SourceTidy.Proofs.Document.RoundTrip
import SourceTidy.Proofs.Run.Refinement
import SourceTidy.Proofs.Tidy.Records
import SourceTidy.Proofs.Tidy.Tokens

/-!
# Files as the next run finds them

A run writes a file with the lines that tidying has left.  No stage makes a line worse
to read back: none puts a line feed into a line, a carriage return at its end, or a byte
order mark at its beginning.  So the next run loads what the run before has left, if
only what the file held at first could be read back.
-/

namespace SourceTidy
namespace Document

/-!
# Lines that are no worse to read back
-/

/-- Whatever might be mistaken in the new line once it is written is in the old line too. -/
structure Milder (old new : Text) : Prop where
  feed : '\n' ∈ new → '\n' ∈ old
  last : new.getLast? = some '\r' → old.getLast? = some '\r'
  first : new.head? = some byteOrderMark → old.head? = some byteOrderMark

theorem milder_of_respaced {old new : Text} (h : Text.Respaced old new) : Milder old new where
  feed := by
    intro hmem
    rcases List.append_of_mem hmem with ⟨front, rest, rfl⟩
    rcases h.symm.cut rfl (by decide) with ⟨front', rest', rfl, _, _⟩
    exact List.mem_append_right front' List.mem_cons_self
  last := by
    intro hlast
    by_contra hne
    exact h.getLast?_ne (by decide) hne hlast
  first := by
    intro hfirst
    rcases List.head?_eq_some_iff.mp hfirst with ⟨rest, rfl⟩
    rcases h.symm.cut (List.nil_append _).symm (by decide) with ⟨front, rest', rfl, hfront, _⟩
    rw [hfront.eq_nil rfl]
    rfl

theorem getLast?_canonicalLine {keys : DocBlock.KeyTable} {line out : Text} {c : Char}
    (h : DocBlock.canonicalLine keys line = .ok out) (hc : out.getLast? = some c) :
    Text.isBlank c = false := by
  rcases DocBlock.canonicalLine_cases h with
    ⟨_, rfl⟩ | ⟨text, htext, rfl⟩ | ⟨key, value, target, written, _, _, _, rfl⟩
  · cases hc
    decide
  · rw [DocBlock.Interior.ofLine_eq] at htext
    rcases DocBlock.Interior.ofText_eq_continuation htext with ⟨rfl, hne⟩
    rw [List.getLast?_append, List.getLast?_eq_some_getLast hne, Option.some_or] at hc
    apply (Text.trimmed_trim _).last
    rw [List.getLast?_eq_some_getLast hne, hc]
  · exact Text.getLast?_trimEnd hc

theorem milder_of_plain {new : Text}
    (h : '\n' ∉ new ∧ new.getLast? ≠ some '\r' ∧ new.head? ≠ some byteOrderMark) (old : Text) :
    Milder old new := by
  rcases h with ⟨hfeed, hlast, hfirst⟩
  exact ⟨fun h => absurd h hfeed, fun h => absurd h hlast, fun h => absurd h hfirst⟩

theorem milder_of_replaced {keys : DocBlock.KeyTable} (hkeys : keys.FeedFree) {old new : Text}
    (h : DocBlock.Replaced keys old new) : Milder old new := by
  rcases h with rfl | rfl | rfl | hcanonical
  · exact ⟨id, id, id⟩
  · exact milder_of_plain (by decide) old
  · exact milder_of_plain (by decide) old
  · refine ⟨?_, ?_, ?_⟩
    · intro hmem
      by_contra hold
      exact DocBlock.passesOn_no_feed.canonicalLine hkeys hcanonical hold hmem
    · intro hlast
      exact absurd (getLast?_canonicalLine hcanonical hlast) (by decide)
    · intro hfirst
      rcases DocBlock.exists_star_of_canonicalLine hcanonical with ⟨rest, rfl⟩
      rw [List.head?_cons] at hfirst
      exact absurd hfirst (by decide)

/-!
# Tidied documents
-/

theorem exists_milder_of_mem {olds news : List Text} (h : List.Forall₂ Milder olds news)
    {new : Text} (hnew : new ∈ news) : ∃ old ∈ olds, Milder old new := by
  induction h with
  | nil => cases hnew
  | cons hfirst _ ih =>
      rcases List.mem_cons.mp hnew with rfl | hrest
      · exact ⟨_, List.mem_cons_self, hfirst⟩
      · rcases ih hrest with ⟨old, hold, hmilder⟩
        exact ⟨old, List.mem_cons_of_mem _ hold, hmilder⟩

theorem Faithful.of_milder {document : Document} (h : document.Faithful) {lines : List Text}
    (hlines : List.Forall₂ Milder document.lines lines) :
    ({ document with lines := lines } : Document).Faithful where
  noFeed := by
    intro new hnew hfeed
    rcases exists_milder_of_mem hlines hnew with ⟨old, hold, hmilder⟩
    exact h.noFeed old hold (hmilder.feed hfeed)
  noReturn := by
    intro hcrlf new hnew hlast
    rcases exists_milder_of_mem hlines hnew with ⟨old, hold, hmilder⟩
    exact h.noReturn hcrlf old hold (hmilder.last hlast)
  hasLine := by
    intro hcrlf hnil
    apply h.hasLine hcrlf
    rw [← List.length_eq_zero_iff, hlines.length_eq]
    exact List.length_eq_zero_iff.mpr hnil
  noMark := by
    intro hbom new hnew hfirst
    have hhead := h.noMark hbom
    generalize document.lines = olds at hlines hhead
    cases hlines with
    | nil => cases hnew
    | cons hmilder _ =>
        cases hnew
        exact hhead _ rfl (hmilder.first hfirst)

theorem length_tidy (config : Config) (lines : List Text) :
    (config.tidy lines).lines.length = lines.length := by
  have htabs : (config.tidyTabs lines).1.length = lines.length := by
    rw [Config.tidyTabs]
    split
    · exact List.length_map _
    · rfl
  have hindent : (config.indented lines).length = (config.tidyTabs lines).1.length := by
    rw [Config.indented, Config.tidyIndent, Indent.changeUnit]
    split
    · split
      · exact List.length_map _
      · rfl
    · rfl
  rw [Config.lines_tidy, ← htabs, ← hindent, Config.tidyDocu]
  split
  · exact (DocBlock.forall₂_normalize config.keyTable _).length_eq.symm
  · rfl

/-- An accepted configuration whose keys have no line feed keeps a document faithful. -/
theorem Faithful.tidied {document : Document} (h : document.Faithful) {config : Config}
    (haccepted : config.defect? = none) (hkeys : config.keyTable.FeedFree) :
    (document.tidied config).Faithful := by
  have hpos := Config.pos_of_defect? haccepted
  have htabs := (Config.forall₂_respaced_tidyTabs hpos document.lines).imp
    fun _ _ hline => milder_of_respaced hline
  have hindent := (Config.forall₂_respaced_tidyIndent hpos (config.tidyTabs document.lines).1).imp
    fun _ _ hline => milder_of_respaced hline
  have hdocu : List.Forall₂ Milder (config.indented document.lines)
      (config.tidyDocu (config.indented document.lines)).lines := by
    rw [Config.tidyDocu]
    split
    · apply (DocBlock.forall₂_normalize config.keyTable _).imp
      intro old new hreplaced
      exact milder_of_replaced hkeys hreplaced
    · exact List.forall₂_same.mpr fun _ _ => ⟨id, id, id⟩
  exact ((h.of_milder htabs).of_milder hindent).of_milder hdocu

theorem tidied_ne_parse_nil {content : Text} (h : content ≠ []) (config : Config) :
    (parse content).tidied config ≠ parse [] := by
  intro heq
  have hlines : (config.tidy (parse content).lines).lines = [] := congrArg Document.lines heq
  have hbom : (parse content).bom = false := congrArg Document.bom heq
  rw [← List.length_eq_zero_iff, length_tidy, List.length_eq_zero_iff, lines_parse] at hlines
  have hcontent := mark_append_textOf content
  rw [hbom, eq_nil_of_linesOf hlines] at hcontent
  exact h hcontent.symm

end Document

namespace Disk

/-!
# Loading what was written
-/

theorem eq_tidied_of_loadTidied {disk : Disk} {config : Config} {path : Path} {content : Text}
    {document : Document} {record : Record} (hread : disk.read path = .ok (Text.encode content))
    (h : disk.loadTidied config path = .ok (document, record)) :
    content ≠ [] ∧ document = (Document.parse content).tidied config := by
  rcases disk.tidies_or_fails config path with ⟨text, record', htidies⟩ | ⟨cause, hfails⟩
  · have hcontent : content = text := by
      have heq := hread.symm.trans htidies.read
      injection heq with heq
      exact Text.encode_injective heq
    rw [loadTidied_of_tidies htidies] at h
    cases h
    rw [hcontent]
    exact ⟨htidies.nonempty, rfl⟩
  · rw [loadTidied_of_fails hfails] at h
    cases h

theorem read_write {disk : Disk} (hdisk : disk.WellFormed) {path : Path} {old : ByteArray}
    (h : disk.read path = .ok old) (new : ByteArray) :
    (disk.write path new).read path = .ok new := by
  rcases locate_of_read h with ⟨place, hplace⟩
  rw [write_eq_overwrite hdisk hplace, read_overwrite_of_locate _ hplace]
  simp

theorem load_write_of_faithful {disk : Disk} (hdisk : disk.WellFormed) {path : Path}
    {old : ByteArray} (hread : disk.read path = .ok old) {document : Document}
    (h : document.Faithful) (hne : document ≠ Document.parse []) :
    (disk.write path (Text.encode document.render)).load path = .ok document := by
  have hnonempty : document.render ≠ [] := by
    intro hnil
    apply hne
    rw [← hnil, h.parse_render]
  rw [load_of_read hnonempty (read_write hdisk hread _), h.parse_render]

/-- Reading, writing and reading again gives the same document exactly if the file does
not end with a carriage return, or has a line that ends with a carriage return and a
line feed.  In this case a file that is written after it was tidied is also loaded
again as it was left. -/
theorem written_reads_back (content : Text) :
    (Document.parse (Document.parse content).render = Document.parse content ↔
      ((Document.textOf content).getLast? = some '\r' →
        Document.returnAndFeed <:+: Document.textOf content)) ∧
    (((Document.textOf content).getLast? = some '\r' →
        Document.returnAndFeed <:+: Document.textOf content) →
      ∀ (config : Config), config.defect? = none → config.keyTable.FeedFree →
      ∀ (disk : Disk) (path : Path) (document : Document) (record : Record), disk.WellFormed →
        disk.read path = .ok (Text.encode content) →
        disk.loadTidied config path = .ok (document, record) →
        (disk.write path (Text.encode document.render)).load path = .ok document) := by
  rw [← Document.faithful_parse_iff]
  constructor
  · exact Document.parse_render_iff (Document.parse content)
  · intro hfaithful config haccepted hkeys disk path document record hdisk hread hload
    rcases eq_tidied_of_loadTidied hread hload with ⟨hne, rfl⟩
    exact load_write_of_faithful hdisk hread (hfaithful.tidied haccepted hkeys)
      (Document.tidied_ne_parse_nil hne config)

def mixedEndings : Text := '\uFEFF' :: "\ta\n\tb\r\nc\r".toList

def oneFile : Disk where
  root := Listing.empty.putFile (Text.encode mixedEndings) [Path.of "m"]
  current := []

theorem written_reads_back_mixedEndings :
    Document.parse (Document.parse mixedEndings).render = Document.parse mixedEndings ∧
      ∃ document record,
        oneFile.loadTidied Config.whitespaceOnly (Path.of "/m") = .ok (document, record) ∧
        document.lines = ["  a".toList, "  b".toList, "c\r".toList] ∧
        (oneFile.write (Path.of "/m") (Text.encode document.render)).load (Path.of "/m") =
          .ok document := by
  have hending : (Document.textOf mixedEndings).getLast? = some '\r' →
      Document.returnAndFeed <:+: Document.textOf mixedEndings := by
    intro _
    exact ⟨"\ta\n\tb".toList, "c\r".toList, by decide⟩
  have hkeys : Config.whitespaceOnly.keyTable.FeedFree := DocBlock.feedFree_standard
  have hload : oneFile.loadTidied Config.whitespaceOnly (Path.of "/m") =
      .ok ((Document.parse mixedEndings).tidied Config.whitespaceOnly,
        Record.ofStages true false false) := by
    rfl
  rcases written_reads_back mixedEndings with ⟨hread, hwritten⟩
  refine ⟨hread.mpr hending, _, _, hload, by decide +kernel, ?_⟩
  exact hwritten hending Config.whitespaceOnly (by decide +kernel) hkeys oneFile _ _ _
    (by decide) rfl hload

/-- The carriage return at the end of an unfinished line is taken for a part of the ending
once the line is finished. -/
theorem not_reads_back_unfinishedReturn :
    Document.parse (Document.parse ['a', '\r']).render ≠ Document.parse ['a', '\r'] := by
  decide

end Disk
end SourceTidy
