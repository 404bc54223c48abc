import SourceTidy.Proofs.Files.Enumeration

/-!
# Excluding more

Exclusions are asked about single names and paths, at a directory that may be entered and
at a file that may be given.  If the answers of one configuration leave out whatever
those of another one do, its walk meets fewer directories and gives fewer files, in the
same order.  Only what a list of exclusions holds counts, not its order or repetitions,
and neither do dots in front of extensions or texts that are no patterns.
-/

namespace SourceTidy

namespace Exclusions

/-!
# Wider exclusions
-/

/-- All that the second exclusions list is listed by the first. -/
structure Covers (more less : Exclusions) : Prop where
  dirs : less.dirs ⊆ more.dirs
  extensions : less.extensions ⊆ more.extensions
  patterns : less.patterns ⊆ more.patterns

section Covers

variable {more less : Exclusions} {name : Name} {path : Path}

theorem Covers.matchesPattern (h : more.Covers less) (hless : less.matchesPattern path = true) :
    more.matchesPattern path = true := by
  rw [Exclusions.matchesPattern, List.any_eq_true] at hless ⊢
  rcases hless with ⟨glob, hglob, hmatch⟩
  exact ⟨glob, h.patterns hglob, hmatch⟩

theorem Covers.hasExcludedExtension (h : more.Covers less)
    (hless : less.hasExcludedExtension path = true) : more.hasExcludedExtension path = true := by
  rw [Exclusions.hasExcludedExtension] at hless ⊢
  cases hextension : (Path.extension? path).bind Text.ofBytes? with
  | none =>
      rw [hextension] at hless
      cases hless
  | some extension =>
      simp only [hextension, List.contains_iff_mem] at hless ⊢
      exact h.extensions hless

theorem Covers.accepts (h : more.Covers less) (hmore : more.accepts path = true) :
    less.accepts path = true := by
  simp only [Exclusions.accepts, Bool.and_eq_true, Bool.not_eq_true', ← Bool.not_eq_true]
    at hmore ⊢
  rcases hmore with ⟨⟨hconfig, hextension⟩, hpattern⟩
  refine ⟨⟨hconfig, ?_⟩, ?_⟩
  · intro hless
    exact hextension (h.hasExcludedExtension hless)
  · intro hless
    exact hpattern (h.matchesPattern hless)

theorem Covers.prunes (h : more.Covers less) (hless : less.prunes name path = true) :
    more.prunes name path = true := by
  rw [Exclusions.prunes, Bool.or_eq_true, List.contains_iff_mem] at hless ⊢
  rcases hless with hdir | hpattern
  · exact Or.inl (h.dirs hdir)
  · exact Or.inr (h.matchesPattern hpattern)

theorem Covers.accepts_eq (h : more.Covers less) (hback : less.Covers more) (path : Path) :
    more.accepts path = less.accepts path :=
  Bool.eq_iff_iff.mpr ⟨h.accepts, hback.accepts⟩

theorem Covers.prunes_eq (h : more.Covers less) (hback : less.Covers more) (name : Name)
    (path : Path) : more.prunes name path = less.prunes name path :=
  Bool.eq_iff_iff.mpr ⟨hback.prunes, h.prunes⟩

end Covers

end Exclusions

namespace Listing

/-!
# Two walks through one listing
-/

variable {more less : Exclusions}

/-- A walk that goes to its end does so with more exclusions as well, and gives some of
the same files. -/
theorem accepted_of_covers (h : more.Covers less) {listing : Listing} {levels : Nat}
    {directory : Path} {files : List Path}
    (hfiles : listing.accepted less levels directory = .ok files) :
    ∃ kept, listing.accepted more levels directory = .ok kept ∧ kept.Sublist files := by
  induction listing generalizing levels directory files with
  | empty =>
      cases hfiles
      exact ⟨[], rfl, List.Sublist.refl []⟩
  | file name bytes rest ih =>
      rw [accepted_file] at hfiles
      cases hrest : rest.accepted less levels directory with
      | error path =>
          rw [hrest] at hfiles
          cases hfiles
      | ok others =>
          rw [hrest] at hfiles
          cases hfiles
          rcases ih hrest with ⟨kept, hkept, hsublist⟩
          rw [accepted_file, hkept]
          refine ⟨_, rfl, ?_⟩
          dsimp only
          by_cases hmore : more.accepts (Path.child directory name) = true
          · rw [if_pos hmore, if_pos (h.accepts hmore)]
            exact hsublist.cons_cons _
          · rw [if_neg hmore]
            split
            · exact hsublist.cons _
            · exact hsublist
  | dir name content rest ihContent ih =>
      rcases accepted_dir_eq_ok hfiles with ⟨inner, others, hrest, rfl, hinner⟩
      rcases ih hrest with ⟨kept, hkept, hsublist⟩
      by_cases hskip : (more.prunes name (Path.child directory name) || levels == 0) = true
      · rw [accepted_dir_of_skip hskip]
        exact ⟨kept, hkept, hsublist.trans (List.sublist_append_right inner others)⟩
      · rcases hinner with ⟨hless, _⟩ | ⟨_, hlong, hinner⟩
        · -- what is pruned by fewer exclusions is pruned by more
          refine absurd ?_ hskip
          rw [Bool.or_eq_true] at hless ⊢
          exact hless.imp_left h.prunes
        · rcases ihContent hinner with ⟨keptInner, hkeptInner, hsublistInner⟩
          rw [accepted_dir_of_enter hskip hlong, hkeptInner, hkept]
          exact ⟨keptInner ++ kept, rfl, hsublistInner.append hsublist⟩

theorem accepted_congr (haccepts : ∀ path, more.accepts path = less.accepts path)
    (hprunes : ∀ name path, more.prunes name path = less.prunes name path) (listing : Listing)
    (levels : Nat) (directory : Path) :
    listing.accepted more levels directory = listing.accepted less levels directory := by
  induction listing generalizing levels directory with
  | empty => rfl
  | file name bytes rest ih => rw [accepted_file, accepted_file, ih, haccepts]
  | dir name content rest ihContent ih =>
      rw [accepted, accepted, ih, ihContent, hprunes]

end Listing

/-!
# The exclusions of a configuration
-/

def SameExtension (extension other : Text) : Prop :=
  ∃ bare dots dots', extension = List.replicate dots '.' ++ bare ∧
    other = List.replicate dots' '.' ++ bare

/-- All that the second configuration excludes is excluded by the first.  The order and
repetitions of exclusions do not count, nor do dots in front of an extension and texts
that are no patterns. -/
structure Config.ExcludesAtLeast (more less : Config) : Prop where
  dirs : less.excludedDirs ⊆ more.excludedDirs
  extensions : ∀ extension ∈ less.excludedExtensions,
    ∃ other ∈ more.excludedExtensions, SameExtension extension other
  patterns : ∀ pattern ∈ less.exclude, pattern ∈ more.exclude ∨ Glob.parse? pattern = none

theorem dropLeading_replicate_append (c : Char) (count : Nat) (rest : Text) :
    Text.dropLeading c (List.replicate count c ++ rest) = Text.dropLeading c rest := by
  apply List.dropWhile_append_of_pos
  intro d hd
  rw [List.eq_of_mem_replicate hd]
  exact beq_self_eq_true c

theorem SameExtension.dropLeading_eq {extension other : Text} (h : SameExtension extension other) :
    Text.dropLeading '.' extension = Text.dropLeading '.' other := by
  rcases h with ⟨bare, dots, dots', rfl, rfl⟩
  rw [dropLeading_replicate_append, dropLeading_replicate_append]

theorem Config.ExcludesAtLeast.covers {more less : Config} (h : more.ExcludesAtLeast less) :
    (Exclusions.ofConfig more).Covers (Exclusions.ofConfig less) where
  dirs := h.dirs
  extensions := by
    intro bare hbare
    rcases List.mem_map.mp hbare with ⟨extension, hextension, rfl⟩
    rcases h.extensions extension hextension with ⟨other, hother, hsame⟩
    exact List.mem_map.mpr ⟨other, hother, hsame.dropLeading_eq.symm⟩
  patterns := by
    intro glob hglob
    rcases List.mem_filterMap.mp hglob with ⟨pattern, hpattern, hparse⟩
    refine List.mem_filterMap.mpr ⟨pattern, ?_, hparse⟩
    rcases h.patterns pattern hpattern with hmem | hnone
    · exact hmem
    · rw [hnone] at hparse
      cases hparse

namespace Disk

theorem walk_of_covers {more less : Exclusions} (h : more.Covers less) {disk : Disk}
    {root : Path} {files : List Path} (hfiles : disk.walk less root = .ok files) :
    ∃ kept, disk.walk more root = .ok kept ∧ kept.Sublist files := by
  cases hroot : disk.entry root with
  | error e =>
      rw [walk, hroot] at hfiles
      cases hfiles
  | ok entry =>
      cases entry with
      | file content =>
          rw [walk, hroot] at hfiles ⊢
          cases hfiles
          refine ⟨_, rfl, ?_⟩
          by_cases hmore : more.accepts root = true
          · have hless := h.accepts hmore
            simp [hmore, hless]
          · simp [hmore]
      | dir content =>
          rcases Listing.accepted_of_covers h (accepted_of_walk hroot hfiles) with
            ⟨kept, hkept, hsublist⟩
          rw [walk_dir hroot, hkept]
          exact ⟨kept, rfl, hsublist⟩

theorem walk_congr {more less : Exclusions}
    (haccepts : ∀ path, more.accepts path = less.accepts path)
    (hprunes : ∀ name path, more.prunes name path = less.prunes name path) (disk : Disk)
    (root : Path) : disk.walk more root = disk.walk less root := by
  rw [walk, walk]
  cases disk.entry root with
  | error e => rfl
  | ok entry =>
      cases entry with
      | file content => simp only [haccepts]
      | dir content => simp only [Listing.accepted_congr haccepts hprunes]

/-- With more exclusions a walk gives some of the same files in the same order.  With
exclusions that differ in their spelling only it gives the same result. -/
theorem walk_excluding_more {more less : Config} (h : more.ExcludesAtLeast less) (disk : Disk)
    (root : Path) :
    (∀ files, disk.walk (.ofConfig less) root = .ok files →
      ∃ kept, disk.walk (.ofConfig more) root = .ok kept ∧ kept.Sublist files) ∧
      (less.ExcludesAtLeast more →
        disk.walk (.ofConfig more) root = disk.walk (.ofConfig less) root) := by
  constructor
  · intro files hfiles
    exact walk_of_covers h.covers hfiles
  · intro hback
    exact walk_congr (h.covers.accepts_eq hback.covers) (h.covers.prunes_eq hback.covers) disk root

def fewExclusions : Config :=
  { Config.standard with exclude := ["[".toList] }

def respelledExclusions : Config :=
  { Config.standard with
    excludedDirs := ["Workspace".toList, ".git".toList, "Workspace".toList]
    excludedExtensions := [".txt".toList, "py".toList, "..csproj".toList] }

def moreExclusions : Config :=
  { respelledExclusions with exclude := ["bu?ld".toList] }

theorem walk_excluding_more_project :
    moreExclusions.ExcludesAtLeast fewExclusions ∧
      project.walk (.ofConfig fewExclusions) [Path.slash] =
        .ok [Path.of "/a/z.cs", Path.of "/a.cs", Path.of "/build/o.cs"] ∧
      project.walk (.ofConfig moreExclusions) [Path.slash] =
        .ok [Path.of "/a/z.cs", Path.of "/a.cs"] ∧
      [Path.of "/a/z.cs", Path.of "/a.cs"].Sublist
        [Path.of "/a/z.cs", Path.of "/a.cs", Path.of "/build/o.cs"] ∧
      project.walk (.ofConfig respelledExclusions) [Path.slash] =
        project.walk (.ofConfig fewExclusions) [Path.slash] := by
  have hrespelled : respelledExclusions.ExcludesAtLeast fewExclusions := by
    refine ⟨by decide, ?_, by decide⟩
    intro extension hextension
    simp only [fewExclusions, Config.standard, List.mem_cons, List.not_mem_nil, or_false]
      at hextension
    rcases hextension with rfl | rfl | rfl
    · exact ⟨"..csproj".toList, by decide, "csproj".toList, 0, 2, rfl, rfl⟩
    · exact ⟨"py".toList, by decide, "py".toList, 0, 0, rfl, rfl⟩
    · exact ⟨".txt".toList, by decide, "txt".toList, 0, 1, rfl, rfl⟩
  have hback : fewExclusions.ExcludesAtLeast respelledExclusions := by
    refine ⟨by decide, ?_, by decide⟩
    intro extension hextension
    simp only [respelledExclusions, List.mem_cons, List.not_mem_nil, or_false] at hextension
    rcases hextension with rfl | rfl | rfl
    · exact ⟨"txt".toList, by decide, "txt".toList, 1, 0, rfl, rfl⟩
    · exact ⟨"py".toList, by decide, "py".toList, 0, 0, rfl, rfl⟩
    · exact ⟨"csproj".toList, by decide, "csproj".toList, 2, 0, rfl, rfl⟩
  have hmore : moreExclusions.ExcludesAtLeast fewExclusions :=
    ⟨hrespelled.dirs, hrespelled.extensions, by decide⟩
  have hroot : project.entry [Path.slash] = .ok (.dir project.root) := rfl
  have hwalk : project.walk (.ofConfig fewExclusions) [Path.slash] =
      .ok [Path.of "/a/z.cs", Path.of "/a.cs", Path.of "/build/o.cs"] := by
    have haccepted : project.root.accepted (.ofConfig fewExclusions) (depthLimit - 1) [Path.slash] =
        .ok [Path.of "/a/z.cs", Path.of "/a.cs", Path.of "/build/o.cs"] := rfl
    rw [walk_dir hroot, haccepted]
    rfl
  have hwalkMore : project.walk (.ofConfig moreExclusions) [Path.slash] =
      .ok [Path.of "/a/z.cs", Path.of "/a.cs"] := by
    have haccepted :
        project.root.accepted (.ofConfig moreExclusions) (depthLimit - 1) [Path.slash] =
          .ok [Path.of "/a/z.cs", Path.of "/a.cs"] := rfl
    rw [walk_dir hroot, haccepted]
    rfl
  rcases (walk_excluding_more hmore project [Path.slash]).1 _ hwalk with ⟨kept, hkept, hsublist⟩
  rw [hwalkMore] at hkept
  injection hkept with hkept
  rw [← hkept] at hsublist
  exact ⟨hmore, hwalk, hwalkMore, hsublist,
    (walk_excluding_more hrespelled project [Path.slash]).2 hback⟩

end Disk
end SourceTidy
