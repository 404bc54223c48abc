import SourceTidy.Proofs.Files.Location
import SourceTidy.Proofs.Files.Selection

/-!
# Enumerated files

A walk through a directory gives the paths of the selected files below it, each once.
The names that lead from the directory to these files increase along the enumeration,
so no two of the paths lead to the same place, and each path leads to its file unless
it is too long to be followed.
-/

namespace SourceTidy

/-!
# Where the names lead

A path below a directory is at least as long as that of the directory, so if it can
be followed the paths on the way can be as well.
-/

theorem Path.length_le_child (directory : Path) (name : Name) :
    directory.length ≤ (Path.child directory name).length := by
  unfold Path.child
  split
  · rw [List.length_append]
    exact Nat.le_add_right _ _
  · rw [List.length_append]
    exact Nat.le_add_right _ _

theorem Path.length_le_below (directory : Path) (names : List Name) :
    directory.length ≤ (Path.below directory names).length := by
  induction names generalizing directory with
  | nil => exact Nat.le_refl _
  | cons name names ih => exact Nat.le_trans (length_le_child directory name) (ih _)

theorem Path.isTooLong_of_below {directory : Path} {names : List Name}
    (h : Path.isTooLong (Path.below directory names) = false) :
    Path.isTooLong directory = false := by
  unfold Path.isTooLong at h ⊢
  rw [decide_eq_false_iff_not, Nat.not_le] at h ⊢
  exact Nat.lt_of_le_of_lt (Path.length_le_below directory names) h

theorem Disk.locate_below {disk : Disk} {directory : Path} {place names : List Name}
    {content : Listing} {entry : Entry}
    (hdirectory : disk.locate directory = .ok (place, .dir content))
    (hcontent : content.WellFormed) (hget : content.get? names = some entry)
    (hshort : Path.isTooLong (Path.below directory names) = false) :
    disk.locate (Path.below directory names) = .ok (place ++ names, entry) := by
  induction names generalizing directory place content with
  | nil =>
      cases hget
      rw [List.append_nil]
      exact hdirectory
  | cons name names ih =>
      rw [Path.below_cons] at hshort ⊢
      rw [Listing.get?] at hget
      cases hfind : content.find? name with
      | none =>
          rw [hfind] at hget
          cases hget
      | some found =>
          rw [hfind] at hget
          rcases Listing.wellFormed_of_find? hcontent hfind with ⟨hname, hfound⟩
          have hchild := locate_child hdirectory hname hfind (Path.isTooLong_of_below hshort)
          cases found with
          | file bytes =>
              cases names with
              | nil =>
                  cases hget
                  exact hchild
              | cons _ _ => cases hget
          | dir inner =>
              rw [ih hchild hfound hget hshort, List.append_assoc, List.singleton_append]

/-- An enumeration of files below a directory at a place, by the names that lead to
them. -/
structure Disk.Enumeration (disk : Disk) (directory : Path) (place : List Name)
    (files : List (List Name)) : Prop where
  increasing : files.Pairwise (· < ·)
  located : ∀ names ∈ files, Path.isTooLong (Path.below directory names) = false →
    ∃ content, disk.locate (Path.below directory names) = .ok (place ++ names, .file content)

theorem Listing.enumeration_selected {disk : Disk} {directory : Path} {place : List Name}
    {listing : Listing} (hdirectory : disk.locate directory = .ok (place, .dir listing))
    (hlisting : listing.WellFormed) (exclusions : Exclusions) (levels : Nat) :
    disk.Enumeration directory place (listing.selected exclusions levels directory) where
  increasing := pairwise_selected hlisting
  located := by
    intro names hnames hshort
    rcases ((mem_selected_iff hlisting).mp hnames).file with ⟨content, hfile⟩
    exact ⟨content, Disk.locate_below hdirectory hlisting hfile hshort⟩

/-!
# The walk from a root
-/

namespace Disk

/-- Two paths do not lead to the same place. -/
def Apart (disk : Disk) (path other : Path) : Prop :=
  ∀ place entry entry', disk.locate path = .ok (place, entry) →
    disk.locate other ≠ .ok (place, entry')

theorem walk_cases {disk : Disk} {exclusions : Exclusions} {root : Path} {paths : List Path}
    (h : disk.walk exclusions root = .ok paths) :
    (∃ place content, disk.locate root = .ok (place, .file content) ∧
        paths = if exclusions.accepts root then [root] else []) ∨
      ∃ place content, disk.locate root = .ok (place, .dir content) ∧
        content.accepted exclusions (depthLimit - 1) root = .ok paths := by
  rw [walk, entry] at h
  cases hroot : disk.locate root with
  | error e =>
      rw [hroot] at h
      cases h
  | ok found =>
      rcases found with ⟨place, found⟩
      rw [hroot] at h
      cases found with
      | file content =>
          cases h
          exact Or.inl ⟨place, content, rfl, rfl⟩
      | dir content =>
          refine Or.inr ⟨place, content, rfl, ?_⟩
          simp only [Except.map] at h
          cases haccepted : content.accepted exclusions (depthLimit - 1) root with
          | error path =>
              rw [haccepted] at h
              cases h
          | ok found =>
              rw [haccepted] at h
              cases h
              rfl

theorem walk_enumeration {disk : Disk} (hdisk : disk.WellFormed) {exclusions : Exclusions}
    {root : Path} {levels : Nat} {place : List Name} {content : Listing} {paths : List Path}
    (hroot : disk.locate root = .ok (place, .dir content))
    (h : content.accepted exclusions levels root = .ok paths) :
    ∃ files, paths = files.map (Path.below root) ∧
      disk.Enumeration root place files := by
  have hcontent : content.WellFormed :=
    Listing.wellFormed_of_get? hdisk (get?_of_locate hroot)
  exact ⟨content.selected exclusions levels root, Listing.eq_map_selected_of_accepted h,
    Listing.enumeration_selected hroot hcontent exclusions levels⟩

theorem walk_apart {disk : Disk} (hdisk : disk.WellFormed) {exclusions : Exclusions}
    {root : Path} {paths : List Path} (h : disk.walk exclusions root = .ok paths) :
    paths.Pairwise disk.Apart := by
  rcases walk_cases h with ⟨_, _, _, hpaths⟩ | ⟨place, content, hroot, haccepted⟩
  · rw [hpaths]
    split
    · exact List.pairwise_singleton _ _
    · exact List.Pairwise.nil
  · rcases walk_enumeration hdisk hroot haccepted with ⟨files, hfiles, henumeration⟩
    rw [hfiles, List.pairwise_map]
    apply henumeration.increasing.imp_of_mem
    intro a b ha hb hlt common first second hfirst hsecond
    rcases henumeration.located a ha (usable_of_locate hfirst).2.2 with ⟨_, hplaceA⟩
    rcases henumeration.located b hb (usable_of_locate hsecond).2.2 with ⟨_, hplaceB⟩
    rw [hplaceA] at hfirst
    rw [hplaceB] at hsecond
    cases hfirst
    injection hsecond with hsecond
    injection hsecond with hplaces _
    rw [List.append_cancel_left hplaces] at hlt
    exact List.lt_irrefl a hlt

theorem walk_readable {disk : Disk} (hdisk : disk.WellFormed) {exclusions : Exclusions}
    {root path : Path} {paths : List Path} (h : disk.walk exclusions root = .ok paths)
    (hpath : path ∈ paths) (hshort : Path.isTooLong path = false) :
    ∃ content, disk.read path = .ok content := by
  rcases walk_cases h with ⟨_, content, hroot, hpaths⟩ | ⟨place, content, hroot, haccepted⟩
  · rw [hpaths] at hpath
    split at hpath
    · cases List.mem_singleton.mp hpath
      exact ⟨content, read_of_locate hroot⟩
    · cases hpath
  · rcases walk_enumeration hdisk hroot haccepted with ⟨files, hfiles, henumeration⟩
    rw [hfiles] at hpath
    rcases List.mem_map.mp hpath with ⟨names, hnames, rfl⟩
    rcases henumeration.located names hnames hshort with ⟨bytes, hbytes⟩
    exact ⟨bytes, read_of_locate hbytes⟩

end Disk

/-!
# Exactness

The path below a directory has the names on the way as its last segments, so files
that different names lead to have different paths.
-/

theorem Path.IsEntryName.ne_nil {name : Name} (h : Path.IsEntryName name) : name ≠ [] := by
  intro hnil
  rw [hnil] at h
  cases h.1

theorem Path.getLast?_append_name {name : Name} (hname : Path.IsEntryName name) (front : Path) :
    (front ++ name).getLast? ≠ some Path.slash := by
  have hne := hname.ne_nil
  intro hlast
  rw [List.getLast?_append, List.getLast?_eq_some_getLast hne, Option.some_or] at hlast
  exact hname.2.1 (Option.some.inj hlast ▸ List.getLast_mem hne)

theorem Path.segments_below {directory : Path} {names : List Name} (hne : directory ≠ [])
    (hlast : directory.getLast? ≠ some Path.slash)
    (hnames : ∀ name ∈ names, Path.IsEntryName name) :
    Path.segments (Path.below directory names) = Path.segments directory ++ names := by
  induction names generalizing directory with
  | nil => exact (List.append_nil _).symm
  | cons name names ih =>
      rw [List.forall_mem_cons] at hnames
      rcases hnames with ⟨hname, hnames⟩
      have hchild : Path.child directory name = directory ++ Path.slash :: name :=
        Disk.child_of_no_slash hne hlast name
      have hchildLast : (directory ++ Path.slash :: name).getLast? ≠ some Path.slash := by
        rw [List.append_cons]
        exact Path.getLast?_append_name hname (directory ++ [Path.slash])
      rw [Path.below_cons, hchild, ih (by simp) hchildLast hnames, Disk.segments_append_slash,
        Disk.segments_of_no_slash hname.2.1, List.append_assoc, List.singleton_append]

/-- The names on the way are the last segments of a path below a directory.  In front of
them stand those of the directory, less an empty one at the end. -/
theorem Path.exists_segments_below {directory : Path} (hne : directory ≠ []) :
    ∃ above idle, Path.segments directory = above ++ idle ∧ above ≠ [] ∧
      (∀ segment ∈ idle, Path.isIdle segment = true) ∧
      ∀ names, names ≠ [] → (∀ name ∈ names, Path.IsEntryName name) →
        Path.segments (Path.below directory names) = above ++ names := by
  by_cases hlast : directory.getLast? = some Path.slash
  · rcases List.getLast?_eq_some_iff.mp hlast with ⟨front, rfl⟩
    refine ⟨Path.segments front, [[]], Disk.segments_append_slash front [],
      List.splitOn_ne_nil _ front, by decide, ?_⟩
    intro names hnonempty hnames
    rcases List.exists_cons_of_ne_nil hnonempty with ⟨name, rest, rfl⟩
    rw [List.forall_mem_cons] at hnames
    rcases hnames with ⟨hname, hrest⟩
    rw [Path.below_cons, Disk.child_of_slash hlast,
      Path.segments_below (by simp) (Path.getLast?_append_name hname _) hrest,
      List.append_assoc, List.singleton_append, Disk.segments_append_slash,
      Disk.segments_of_no_slash hname.2.1, List.append_assoc, List.singleton_append]
  · refine ⟨Path.segments directory, [], (List.append_nil _).symm,
      List.splitOn_ne_nil _ directory, by decide, ?_⟩
    intro names _ hnames
    exact Path.segments_below hne hlast hnames

theorem Listing.names_of_mem_selected {listing : Listing} (hlisting : listing.WellFormed)
    {directory : Path} {exclusions : Exclusions} {levels : Nat} {names : List Name}
    (h : names ∈ listing.selected exclusions levels directory) :
    names ≠ [] ∧ (∀ name ∈ names, Path.IsEntryName name) ∧
      ∃ bytes, listing.get? names = some (.file bytes) := by
  have hselects := (mem_selected_iff hlisting).mp h
  rcases hselects.file with ⟨bytes, hfile⟩
  refine ⟨?_, (wellFormed_along_get? hlisting hfile).1, bytes, hfile⟩
  intro hnil
  exact Exclusions.not_selects_nil _ (hnil ▸ hselects)

theorem Listing.nodup_map_below_selected {listing : Listing} (hlisting : listing.WellFormed)
    {directory : Path} (hne : directory ≠ []) (exclusions : Exclusions) (levels : Nat) :
    ((listing.selected exclusions levels directory).map (Path.below directory)).Nodup := by
  rcases Path.exists_segments_below hne with ⟨above, _, _, _, _, habove⟩
  have hsegments : ∀ names ∈ listing.selected exclusions levels directory,
      Path.segments (Path.below directory names) = above ++ names := by
    intro names hnames
    rcases names_of_mem_selected hlisting hnames with ⟨hnonempty, hentry, _⟩
    exact habove names hnonempty hentry
  rw [List.Nodup, List.pairwise_map]
  apply (pairwise_selected hlisting).imp_of_mem
  intro a b ha hb hlt heq
  have hsame : above ++ a = above ++ b := by
    rw [← hsegments a ha, ← hsegments b hb, heq]
  rw [List.append_cancel_left hsame] at hlt
  exact List.lt_irrefl b hlt

namespace Disk

/-- The entries of every directory that has to be entered are at hand, as they are unless
its path is too long. -/
def CanEnter (exclusions : Exclusions) (root : Path) (content : Listing) : Prop :=
  ∀ names, exclusions.Enters depthLimit root content names →
    Path.isTooLong (Path.below root names) = false

theorem locate_of_entry {disk : Disk} {path : Path} {entry : Entry}
    (h : disk.entry path = .ok entry) : ∃ place, disk.locate path = .ok (place, entry) := by
  rw [Disk.entry] at h
  cases hlocate : disk.locate path with
  | error e =>
      rw [hlocate] at h
      cases h
  | ok found =>
      rw [hlocate] at h
      cases h
      exact ⟨found.1, rfl⟩

theorem walk_dir {disk : Disk} {root : Path} {content : Listing}
    (hroot : disk.entry root = .ok (.dir content)) (exclusions : Exclusions) :
    disk.walk exclusions root =
      (content.accepted exclusions (depthLimit - 1) root).mapError fun path =>
        (path, .nameTooLong) := by
  rw [walk, hroot]

theorem accepted_of_walk {disk : Disk} {exclusions : Exclusions} {root : Path}
    {content : Listing} {paths : List Path} (hroot : disk.entry root = .ok (.dir content))
    (h : disk.walk exclusions root = .ok paths) :
    content.accepted exclusions (depthLimit - 1) root = .ok paths := by
  rw [walk_dir hroot] at h
  cases haccepted : content.accepted exclusions (depthLimit - 1) root with
  | error path =>
      rw [haccepted] at h
      cases h
  | ok found =>
      rw [haccepted] at h
      cases h
      rfl

/-- A walk from a directory gives each selected file once, in the order of the bytes of
the names on the way.  It ends early only if a directory that it has to enter cannot
be entered. -/
theorem walk_exact {disk : Disk} (hdisk : disk.WellFormed) (exclusions : Exclusions)
    {root : Path} {content : Listing} (hroot : disk.entry root = .ok (.dir content)) :
    (CanEnter exclusions root content →
      ∃ files : List (List Name), disk.walk exclusions root = .ok (files.map (Path.below root)) ∧
        (files.map (Path.below root)).Nodup ∧
        (∀ names, names ∈ files ↔ exclusions.Selects depthLimit root content names) ∧
        files.Pairwise (· < ·)) ∧
      (¬ CanEnter exclusions root content →
        ∃ names, exclusions.Enters depthLimit root content names ∧
          Path.isTooLong (Path.below root names) = true ∧
          disk.walk exclusions root = .error (Path.below root names, .nameTooLong)) := by
  rcases locate_of_entry hroot with ⟨place, hlocate⟩
  have hcontent : content.WellFormed := Listing.wellFormed_of_get? hdisk (get?_of_locate hlocate)
  rcases usable_of_locate hlocate with ⟨_, hne, hshort⟩
  rw [walk_dir hroot]
  cases haccepted : content.accepted exclusions (depthLimit - 1) root with
  | ok paths =>
      constructor
      · intro _
        refine ⟨content.selected exclusions (depthLimit - 1) root, ?_, ?_, ?_, ?_⟩
        · rw [← Listing.eq_map_selected_of_accepted haccepted]
          rfl
        · exact Listing.nodup_map_below_selected hcontent hne exclusions _
        · intro names
          exact Listing.mem_selected_iff hcontent
        · exact Listing.pairwise_selected hcontent
      · intro hnot
        refine absurd ?_ hnot
        intro names henters
        exact Listing.isTooLong_of_enters haccepted hshort henters
  | error path =>
      rcases Listing.exists_enters_of_accepted hcontent haccepted with
        ⟨names, henters, rfl, hlong⟩
      constructor
      · intro hcan
        rw [hcan names henters] at hlong
        cases hlong
      · intro _
        exact ⟨names, henters, hlong, rfl⟩

def project : Disk where
  root :=
    (((((Listing.empty.putFile ByteArray.empty [Path.of "notes.txt"]).putFile ByteArray.empty
      [configFileName]).putFile ByteArray.empty [Path.of "build", Path.of "o.cs"]).putFile
      ByteArray.empty [Path.of ".git", Path.of "config"]).putFile ByteArray.empty
      [Path.of "a.cs"]).putFile ByteArray.empty [Path.of "a", Path.of "z.cs"]
  current := []

def projectExclusions : Exclusions :=
  .ofConfig { Config.standard with exclude := ["build".toList] }

/-- The file in the directory `a` goes before the file `a.cs`. -/
theorem walk_exact_project :
    project.WellFormed ∧ project.entry [Path.slash] = .ok (.dir project.root) ∧
      CanEnter projectExclusions [Path.slash] project.root ∧
      project.walk projectExclusions [Path.slash] = .ok [Path.of "/a/z.cs", Path.of "/a.cs"] ∧
      ∃ files : List (List Name),
        files.map (Path.below [Path.slash]) = [Path.of "/a/z.cs", Path.of "/a.cs"] ∧
        (∀ names, names ∈ files ↔
          projectExclusions.Selects depthLimit [Path.slash] project.root names) ∧
        files.Pairwise (· < ·) := by
  have hdisk : project.WellFormed := by decide
  have hroot : project.entry [Path.slash] = .ok (.dir project.root) := rfl
  have haccepted : project.root.accepted projectExclusions (depthLimit - 1) [Path.slash] =
      .ok [Path.of "/a/z.cs", Path.of "/a.cs"] := rfl
  have hcan : CanEnter projectExclusions [Path.slash] project.root := by
    intro names henters
    exact Listing.isTooLong_of_enters haccepted (by decide) henters
  have hwalk : project.walk projectExclusions [Path.slash] =
      .ok [Path.of "/a/z.cs", Path.of "/a.cs"] := by
    rw [walk_dir hroot, haccepted]
    rfl
  rcases (walk_exact hdisk projectExclusions hroot).1 hcan with
    ⟨files, hfiles, _, hselects, hincreasing⟩
  rw [hwalk] at hfiles
  exact ⟨hdisk, hroot, hcan, hwalk, files, (Except.ok.inj hfiles).symm, hselects, hincreasing⟩

end Disk
end SourceTidy
