import Mathlib.Data.List.Nodup
import SourceTidy.Proofs.Files.Ancestors
import SourceTidy.Proofs.Files.Enumeration
import SourceTidy.Proofs.Text.Stretches

/-!
# Displayed paths

A walk makes the path of a file by putting names behind the root, one after the other.
The path that is shown is found the other way round: the root is taken off, component by
component, however it is spelled.  What is left are the names on the way with slashes
between them, and putting it behind the root gives the path again if the names are texts.
Names that are not are shown with replacement characters, and two of them may look alike.
-/

namespace SourceTidy
namespace Path

/-!
# Putting names behind a directory
-/

theorem child_append (directory : Path) (name rest : Name) :
    child directory (name ++ rest) = child directory name ++ rest := by
  unfold child
  split <;> simp

theorem child_child {directory : Path} {name : Name} (hname : IsEntryName name) (rest : Name) :
    child (child directory name) rest = child directory (name ++ Path.slash :: rest) := by
  have hend : ∃ front, child directory name = front ++ name := by
    unfold child
    split
    · exact ⟨directory, rfl⟩
    · exact ⟨directory ++ [Path.slash], by simp⟩
  rcases hend with ⟨front, hfront⟩
  rw [child_append, hfront, Disk.child_of_no_slash _ (getLast?_append_name hname front)]
  simp [hname.ne_nil]

theorem joinSegments_cons_cons (name next : Name) (names : List Name) :
    joinSegments (name :: next :: names) = name ++ Path.slash :: joinSegments (next :: names) := by
  rw [joinSegments, List.intercalate_cons_cons, List.append_assoc]
  rfl

theorem child_joinSegments {directory : Path} {names : List Name} (hne : names ≠ [])
    (hnames : ∀ name ∈ names, IsEntryName name) :
    child directory (joinSegments names) = below directory names := by
  induction names generalizing directory with
  | nil => exact absurd rfl hne
  | cons name names ih =>
      rw [List.forall_mem_cons] at hnames
      rcases hnames with ⟨hname, hnames⟩
      cases names with
      | nil =>
          rw [joinSegments, List.intercalate_singleton]
          rfl
      | cons next names =>
          rw [below_cons, ← ih (by simp) hnames, child_child hname, joinSegments_cons_cons]

/-- A path that starts from a directory, unless it starts from the root. -/
def join (directory path : Path) : Path :=
  if path.head? = some Path.slash then path else child directory path

theorem join_joinSegments {directory : Path} {names : List Name} (hne : names ≠ [])
    (hnames : ∀ name ∈ names, IsEntryName name) :
    join directory (joinSegments names) = below directory names := by
  have hrelative : (joinSegments names).head? ≠ some Path.slash := by
    rcases List.exists_cons_of_ne_nil hne with ⟨name, rest, rfl⟩
    have hname := hnames name List.mem_cons_self
    rcases List.exists_cons_of_ne_nil hname.ne_nil with ⟨c, name, rfl⟩
    intro hhead
    have hslash : c = Path.slash := by
      cases rest with
      | nil => simpa [joinSegments] using hhead
      | cons next rest => simpa [joinSegments_cons_cons] using hhead
    exact hname.2.1 (hslash ▸ List.mem_cons_self)
  rw [join, if_neg hrelative, child_joinSegments hne hnames]

theorem joinSegments_bytes (texts : List Text) :
    joinSegments (texts.map Text.bytes) = Text.bytes (['/'].intercalate texts) := by
  induction texts with
  | nil => rfl
  | cons text texts ih =>
      cases texts with
      | nil => simp [joinSegments]
      | cons next texts =>
          rw [List.map_cons, List.map_cons, joinSegments_cons_cons, ← List.map_cons, ih,
            List.intercalate_cons_cons, Text.bytes_append, Text.bytes_append, List.append_assoc]
          rfl

/-!
# Taking the directory off
-/

theorem Parts.exists_ofSegments_append (first : Name) (rest : List Name) :
    ∃ lead body, ∀ more, Parts.ofSegments first (rest ++ more) =
      { lead := lead, body := body ++ more } := by
  unfold Parts.ofSegments
  split
  · exact ⟨_, rest, fun _ => rfl⟩
  · split
    · exact ⟨_, rest, fun _ => rfl⟩
    · exact ⟨_, first :: rest, fun _ => rfl⟩

/-- Only idle segments are left between the components that are taken off and what
follows. -/
theorem segmentsAfter?_append (body names : List Name) :
    ∃ idle, (∀ segment ∈ idle, isIdle segment = true) ∧
      segmentsAfter? (body.filterMap componentOf?) (body ++ names) = some (idle ++ names) := by
  induction body with
  | nil => exact ⟨[], by simp, by simp [segmentsAfter?]⟩
  | cons segment body ih =>
      cases hcomponent : componentOf? segment with
      | some component =>
          rw [List.filterMap_cons_some hcomponent, List.cons_append, segmentsAfter?, hcomponent]
          simpa using ih
      | none =>
          rw [List.filterMap_cons_none hcomponent]
          cases hrest : body.filterMap componentOf? with
          | nil =>
              refine ⟨segment :: body, ?_, rfl⟩
              intro other hother
              rw [← componentOf?_eq_none_iff]
              rcases List.mem_cons.mp hother with rfl | hmem
              · exact hcomponent
              · exact List.filterMap_eq_nil_iff.mp hrest other hmem
          | cons component components =>
              rw [List.cons_append, segmentsAfter?, hcomponent, ← hrest]
              exact ih

theorem dropWhile_isIdle_eq_self {names : List Name}
    (h : ∀ name ∈ names, IsEntryName name) : names.dropWhile isIdle = names := by
  cases names with
  | nil => rfl
  | cons name names =>
      have hbusy := isIdle_of_componentOf? (h name List.mem_cons_self).1
      rw [List.dropWhile_cons_of_neg (Bool.eq_false_iff.mp hbusy)]

theorem withoutIdleEnd_dropWhile {idle names : List Name}
    (hidle : ∀ segment ∈ idle, isIdle segment = true)
    (hnames : ∀ name ∈ names, IsEntryName name) :
    withoutIdleEnd ((idle ++ names).dropWhile isIdle) = names := by
  have hreverse : ∀ name ∈ names.reverse, IsEntryName name := by
    intro name hname
    exact hnames name (List.mem_reverse.mp hname)
  rw [List.dropWhile_append_of_pos hidle, dropWhile_isIdle_eq_self hnames, withoutIdleEnd,
    dropWhile_isIdle_eq_self hreverse, List.reverse_reverse]

/-- The names on the way are left of a path below a directory. -/
theorem below?_below {directory : Path} {names : List Name} (hdirectory : directory ≠ [])
    (hne : names ≠ []) (hnames : ∀ name ∈ names, IsEntryName name) :
    below? directory (below directory names) = some (joinSegments names) := by
  rcases exists_segments_below hdirectory with ⟨above, idle, hsegments, hnonempty, hidle, hbelow⟩
  rcases List.exists_cons_of_ne_nil hnonempty with ⟨first, rest, rfl⟩
  have hpathSegments := hbelow names hne hnames
  have hpath : below directory names ≠ [] := by
    intro hnil
    rw [hnil, List.cons_append] at hpathSegments
    have hempty : rest ++ names = [] := (List.cons.inj hpathSegments).2.symm
    exact hne (List.append_eq_nil_iff.mp hempty).2
  rcases Parts.exists_ofSegments_append first rest with ⟨lead, body, hparts⟩
  have hdirectoryParts : parts directory = { lead := lead, body := body ++ idle } :=
    (parts_of_segments hdirectory hsegments).trans (hparts idle)
  have hpathParts : parts (below directory names) = { lead := lead, body := body ++ names } :=
    (parts_of_segments hpath hpathSegments).trans (hparts names)
  rcases segmentsAfter?_append body names with ⟨between, hbetween, hafter⟩
  rw [below?, hdirectoryParts, hpathParts]
  simp only [if_true, List.filterMap_append, filterMap_componentOf?_idle hidle, List.append_nil,
    hafter, Option.map_some, withoutIdleEnd_dropWhile hbetween hnames]

end Path

namespace Disk

/-!
# What is shown
-/

theorem ne_nil_of_entry {disk : Disk} {path : Path} {entry : Entry}
    (h : disk.entry path = .ok entry) : path ≠ [] := by
  rcases locate_of_entry h with ⟨place, hlocate⟩
  exact (usable_of_locate hlocate).2.1

theorem wellFormed_of_entry {disk : Disk} (hdisk : disk.WellFormed) {path : Path}
    {content : Listing} (h : disk.entry path = .ok (.dir content)) : content.WellFormed := by
  rcases locate_of_entry h with ⟨place, hlocate⟩
  exact Listing.wellFormed_of_get? hdisk (get?_of_locate hlocate)

theorem displayPath_of_dir {disk : Disk} {root : Path} {content : Listing}
    (hroot : disk.entry root = .ok (.dir content)) {names : List Name} (hne : names ≠ [])
    (hnames : ∀ name ∈ names, Path.IsEntryName name) :
    disk.displayPath root (Path.below root names) = Text.shown (Path.joinSegments names) := by
  have hdir : disk.isDir root = true := by
    rw [isDir, hroot]
  rw [displayPath, if_pos hdir, Path.below?_below (ne_nil_of_entry hroot) hne hnames,
    Option.getD_some]

theorem displayPath_of_file {disk : Disk} {root : Path} {content : ByteArray}
    (hroot : disk.entry root = .ok (.file content)) (path : Path) :
    disk.displayPath root path = Text.shown path := by
  have hdir : ¬ disk.isDir root = true := by
    rw [isDir, hroot]
    exact Bool.false_ne_true
  rw [displayPath, if_neg hdir]

/-- The names lead from a directory to a file, and the path of the file is shown by them.
If they are texts they are shown as they are, and joined to the path of the directory they
give that of the file again. -/
structure ShownBy (disk : Disk) (root : Path) (content : Listing) (path : Path)
    (names : List Name) : Prop where
  nonempty : names ≠ []
  file : ∃ bytes, content.get? names = some (.file bytes)
  walked : Path.below root names = path
  shown : disk.displayPath root path = Text.shown (Path.joinSegments names)
  joined : ∀ texts : List Text, names = texts.map Text.bytes →
    disk.displayPath root path = ['/'].intercalate texts ∧
      Path.join root (Text.bytes (disk.displayPath root path)) = path

theorem shownBy_of_selected {disk : Disk} (hdisk : disk.WellFormed) {exclusions : Exclusions}
    {root path : Path} {content : Listing} {levels : Nat} {names : List Name}
    (hroot : disk.entry root = .ok (.dir content)) (hpath : Path.below root names = path)
    (h : names ∈ content.selected exclusions levels root) :
    disk.ShownBy root content path names := by
  rw [← hpath]
  rcases Listing.names_of_mem_selected (wellFormed_of_entry hdisk hroot) h with
    ⟨hne, hnames, hfile⟩
  have hshown := displayPath_of_dir hroot hne hnames
  refine ⟨hne, hfile, rfl, hshown, ?_⟩
  intro texts htexts
  have hbytes : Path.joinSegments names = Text.bytes (['/'].intercalate texts) := by
    rw [htexts, Path.joinSegments_bytes]
  rw [hshown, hbytes, Text.shown_bytes, ← hbytes]
  exact ⟨rfl, Path.join_joinSegments hne hnames⟩

/-- A file below a directory is shown by the names that lead to it, and no two files whose
names are texts are shown in the same way.  A root that is a file is shown itself. -/
theorem displayPath_identifies {disk : Disk} (hdisk : disk.WellFormed) {exclusions : Exclusions}
    {root : Path} {paths : List Path} (h : disk.walk exclusions root = .ok paths) :
    (∀ content, disk.entry root = .ok (.dir content) →
      (∀ path ∈ paths, ∃ names, disk.ShownBy root content path names) ∧
        ∀ kept : List Path, kept.Sublist paths →
          (∀ path ∈ kept, ∃ texts : List Text,
            disk.ShownBy root content path (texts.map Text.bytes)) →
          (kept.map (disk.displayPath root)).Nodup) ∧
      (∀ content, disk.entry root = .ok (.file content) →
        disk.displayPath root root = Text.shown root ∧
          (∀ text, root = Text.bytes text → disk.displayPath root root = text) ∧
          ∀ path ∈ paths, path = root) := by
  constructor
  · intro content hroot
    have hpaths := Listing.eq_map_selected_of_accepted (accepted_of_walk hroot h)
    have hnodup : paths.Nodup := by
      rw [hpaths]
      exact Listing.nodup_map_below_selected (wellFormed_of_entry hdisk hroot)
        (ne_nil_of_entry hroot) exclusions _
    constructor
    · intro path hpath
      rw [hpaths] at hpath
      rcases List.mem_map.mp hpath with ⟨names, hnames, hbelow⟩
      exact ⟨names, shownBy_of_selected hdisk hroot hbelow hnames⟩
    · intro kept hkept htexts
      -- joining gives the paths again, and they are all different
      have hjoined : (kept.map (disk.displayPath root)).map
          (fun text => Path.join root (Text.bytes text)) = kept := by
        rw [List.map_map, List.map_congr_left, List.map_id]
        intro path hpath
        rcases htexts path hpath with ⟨texts, hshown⟩
        exact (hshown.joined texts rfl).2
      apply List.Nodup.of_map (fun text => Path.join root (Text.bytes text))
      rw [hjoined]
      exact hnodup.sublist hkept
  · intro content hroot
    have hshown := displayPath_of_file hroot root
    refine ⟨hshown, ?_, ?_⟩
    · rintro text rfl
      rw [hshown, Text.shown_bytes]
    · rw [walk, hroot] at h
      cases h
      intro path hpath
      split at hpath
      · exact List.mem_singleton.mp hpath
      · cases hpath

def spelledRoot : Path := Path.of ".//./"

theorem displayPath_identifies_project :
    project.WellFormed ∧ project.entry spelledRoot = .ok (.dir project.root) ∧
      project.walk projectExclusions spelledRoot =
        .ok [Path.of ".//./a/z.cs", Path.of ".//./a.cs"] ∧
      (∃ names, project.ShownBy spelledRoot project.root (Path.of ".//./a/z.cs") names) ∧
      [Path.of ".//./a/z.cs", Path.of ".//./a.cs"].map
        (project.displayPath spelledRoot) = ["a/z.cs".toList, "a.cs".toList] ∧
      ([Path.of ".//./a/z.cs", Path.of ".//./a.cs"].map
        (project.displayPath spelledRoot)).Nodup := by
  have hdisk : project.WellFormed := by decide
  have hroot : project.entry spelledRoot = .ok (.dir project.root) := rfl
  have haccepted : project.root.accepted projectExclusions (depthLimit - 1) spelledRoot =
      .ok [Path.of ".//./a/z.cs", Path.of ".//./a.cs"] := rfl
  have hwalk : project.walk projectExclusions spelledRoot =
      .ok [Path.of ".//./a/z.cs", Path.of ".//./a.cs"] := by
    rw [walk_dir hroot, haccepted]
    rfl
  have hselected : project.root.selected projectExclusions (depthLimit - 1) spelledRoot =
      [["a".toList, "z.cs".toList].map Text.bytes, ["a.cs".toList].map Text.bytes] := rfl
  have hmem : ∀ names ∈ [["a".toList, "z.cs".toList].map Text.bytes,
      ["a.cs".toList].map Text.bytes],
      names ∈ project.root.selected projectExclusions (depthLimit - 1) spelledRoot := by
    rw [hselected]
    exact fun _ hnames => hnames
  have hinner : project.ShownBy spelledRoot project.root (Path.of ".//./a/z.cs")
      (["a".toList, "z.cs".toList].map Text.bytes) := by
    refine shownBy_of_selected hdisk hroot ?_ (hmem _ ?_)
    · rfl
    · exact List.mem_cons_self
  have houter : project.ShownBy spelledRoot project.root (Path.of ".//./a.cs")
      (["a.cs".toList].map Text.bytes) := by
    refine shownBy_of_selected hdisk hroot ?_ (hmem _ ?_)
    · rfl
    · exact List.mem_cons_of_mem _ List.mem_cons_self
  rcases (displayPath_identifies hdisk hwalk).1 project.root hroot with ⟨hshown, hdistinct⟩
  refine ⟨hdisk, hroot, hwalk, hshown _ List.mem_cons_self, by decide, hdistinct _ ?_ ?_⟩
  · exact List.Sublist.refl _
  · intro path hpath
    rcases List.mem_pair.mp hpath with rfl | rfl
    · exact ⟨_, hinner⟩
    · exact ⟨_, houter⟩

def nameFE : Name := 0xFE :: Path.of ".cs"

def nameFF : Name := 0xFF :: Path.of ".cs"

def brokenNames : Disk where
  root := (Listing.empty.putFile ByteArray.empty [nameFF]).putFile ByteArray.empty [nameFE]
  current := []

/-- Names that are not text are shown alike, and what is shown does not lead to the file. -/
theorem displayPath_brokenNames :
    brokenNames.WellFormed ∧ brokenNames.entry [Path.slash] = .ok (.dir brokenNames.root) ∧
      brokenNames.walk (.ofConfig .standard) [Path.slash] =
        .ok [Path.slash :: nameFE, Path.slash :: nameFF] ∧
      ¬ ([Path.slash :: nameFE, Path.slash :: nameFF].map
        (brokenNames.displayPath [Path.slash])).Nodup ∧
      Path.components (Path.join [Path.slash] (Text.bytes
        (brokenNames.displayPath [Path.slash] (Path.slash :: nameFE)))) ≠
          Path.components (Path.slash :: nameFE) := by
  have hroot : brokenNames.entry [Path.slash] = .ok (.dir brokenNames.root) := rfl
  have haccepted :
      brokenNames.root.accepted (.ofConfig .standard) (depthLimit - 1) [Path.slash] =
        .ok [Path.slash :: nameFE, Path.slash :: nameFF] := rfl
  refine ⟨by decide, hroot, ?_, by decide, by decide⟩
  rw [walk_dir hroot, haccepted]
  rfl

end Disk
end SourceTidy
