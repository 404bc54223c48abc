import SourceTidy.Run.Batch

/-!
# What becomes of a file

A file can be tidied if it holds text and tidying the lines of this text finds no fault.
It then gets the lines that tidying leaves.  There are four ways for a file to fail.
Both are told by what the file holds, how a document is read from text and written, and
what tidying makes of lines; `loadTidied_of_tidies` and `loadTidied_of_fails` say that
tidying a file on a disk does the same.
-/

namespace SourceTidy

/-- The document with the lines that tidying leaves, whether or not it finds a fault. -/
def Document.tidied (document : Document) (config : Config) : Document :=
  { document with lines := (config.tidy document.lines).lines }

def Config.rewritten (config : Config) (text : Text) : ByteArray :=
  Text.encode ((Document.parse text).tidied config).render

/-- A file with the text that it holds and the record of the changes to it. -/
structure TidiedFile where
  path : Path
  text : Text
  record : Record

namespace Disk

structure Tidies (disk : Disk) (config : Config) (file : TidiedFile) : Prop where
  read : disk.read file.path = .ok (Text.encode file.text)
  nonempty : file.text ≠ []
  result : (config.tidy (Document.parse file.text).lines).result = .ok file.record

inductive Fails (disk : Disk) (config : Config) (path : Path) : Cause → Prop where
  | unreadable {e : DiskError} :
      disk.read path = .error e → Fails disk config path (.unreadable e)
  | notText {bytes : ByteArray} :
      disk.read path = .ok bytes →
      (∀ text, Text.encode text ≠ bytes) →
      Fails disk config path (.unreadable .notText)
  | noContent :
      disk.read path = .ok (Text.encode []) → Fails disk config path .noContent
  | docBlock {text : Text} {fault : DocBlock.Fault} :
      disk.read path = .ok (Text.encode text) →
      text ≠ [] →
      (config.tidy (Document.parse text).lines).result = .error fault →
      Fails disk config path (.docBlock fault)

section

variable {disk : Disk} {config : Config} {path : Path} {text : Text}

theorem load_of_read (hne : text ≠ []) (h : disk.read path = .ok (Text.encode text)) :
    disk.load path = .ok (Document.parse text) := by
  rw [load, h]
  simp only [Text.decode?_encode]
  cases text with
  | nil => exact absurd rfl hne
  | cons c rest => rfl

theorem loadTidied_of_tidies {file : TidiedFile} (h : disk.Tidies config file) :
    disk.loadTidied config file.path =
      .ok ((Document.parse file.text).tidied config, file.record) := by
  rw [loadTidied, load_of_read h.nonempty h.read]
  simp only [h.result, Document.tidied]

theorem loadTidied_of_fails {cause : Cause} (h : disk.Fails config path cause) :
    disk.loadTidied config path = .error cause := by
  cases h with
  | unreadable hread => rw [loadTidied, load, hread]
  | notText hread htext =>
      rename_i bytes
      have hdecode : Text.decode? bytes = none := by
        cases hsome : Text.decode? bytes with
        | none => rfl
        | some text => exact absurd (Text.encode_of_decode? hsome) (htext text)
      rw [loadTidied, load, hread]
      simp only [hdecode]
  | noContent hread =>
      rw [loadTidied, load, hread]
      simp only [Text.decode?_encode]
  | docBlock hread hne hresult =>
      rw [loadTidied, load_of_read hne hread]
      simp only [hresult]

theorem tidies_or_fails (disk : Disk) (config : Config) (path : Path) :
    (∃ text record, disk.Tidies config { path := path, text := text, record := record }) ∨
      ∃ cause, disk.Fails config path cause := by
  cases hread : disk.read path with
  | error e => exact .inr ⟨_, .unreadable hread⟩
  | ok bytes =>
      by_cases htext : ∃ text, Text.encode text = bytes
      · rcases htext with ⟨text, rfl⟩
        by_cases hne : text = []
        · subst hne
          exact .inr ⟨_, .noContent hread⟩
        · cases hresult : (config.tidy (Document.parse text).lines).result with
          | error fault => exact .inr ⟨_, .docBlock hread hne hresult⟩
          | ok record => exact .inl ⟨text, record, hread, hne, hresult⟩
      · exact .inr ⟨_, .notText hread (not_exists.mp htext)⟩

theorem Fails.unique {cause other : Cause} (h : disk.Fails config path cause)
    (hother : disk.Fails config path other) : cause = other := by
  have heq := (loadTidied_of_fails h).symm.trans (loadTidied_of_fails hother)
  injection heq

end

end Disk
end SourceTidy
