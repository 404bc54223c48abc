import SourceTidy.Config.Discovery
import SourceTidy.Proofs.Files.Ancestors

/-!
# The order of configuration files

The configuration files in the directories above the start are listed from the top
down, so the file of the lower one of two directories comes later and goes on top of
the other one.  The file in the home directory comes first of all, and it is not listed
again: if the home directory is the lower one of the two, then the order is reversed.
-/

namespace SourceTidy

def Path.configFile (directory : Path) : Path :=
  Path.child directory configFileName

theorem Path.components_configFile (directory : Path) :
    Path.components directory.configFile =
      Path.components directory ++ [.name configFileName] :=
  Path.components_child (by decide) (by decide) directory

theorem Path.StrictlyBelow.configFile_ne {lower upper : Path} (h : Path.StrictlyBelow lower upper) :
    Path.components upper.configFile ≠ Path.components lower.configFile := by
  rw [Path.components_configFile, Path.components_configFile]
  intro heq
  exact h.2 (List.append_cancel_right heq)

namespace Disk

/-- One path stands before another one in a list, where paths with the same components
count as the same. -/
def ListedBefore (paths : List Path) (first second : Path) : Prop :=
  [Path.components first, Path.components second].Sublist (paths.map Path.components)

instance (paths : List Path) (first second : Path) : Decidable (ListedBefore paths first second) :=
  inferInstanceAs (Decidable (List.Sublist _ _))

theorem ListedBefore.asymm {paths : List Path} {first second : Path}
    (hnodup : (paths.map Path.components).Nodup) (h : ListedBefore paths first second) :
    ¬ ListedBefore paths second first := by
  unfold ListedBefore at h ⊢
  generalize paths.map Path.components = listed at hnodup h
  generalize Path.components first = a at h
  generalize Path.components second = b at h
  intro hback
  induction listed with
  | nil => cases h
  | cons place listed ih =>
      rw [List.nodup_cons] at hnodup
      cases h with
      | cons _ h =>
          cases hback with
          | cons _ hback => exact ih hnodup.2 h hback
          | cons_cons _ hback => exact hnodup.1 (h.subset (by simp))
      | cons_cons _ h =>
          cases hback with
          | cons _ hback => exact hnodup.1 (hback.subset (by simp))
          | cons_cons _ hback => exact hnodup.1 (h.subset (by simp))

def homeFiles (disk : Disk) (environment : Environment) : List Path :=
  disk.configFilesIn environment.homeDirectory?.toList

/-- A path to the configuration file in the home directory, in any spelling. -/
def IsHomeFile (disk : Disk) (environment : Environment) (path : Path) : Prop :=
  ∃ home ∈ disk.homeFiles environment, Path.components home = Path.components path

instance (disk : Disk) (environment : Environment) (path : Path) :
    Decidable (disk.IsHomeFile environment path) :=
  inferInstanceAs (Decidable (∃ home ∈ disk.homeFiles environment, _))

section Listing

variable {disk : Disk} {environment : Environment} {start directory : Path}

theorem configFiles_of_start (h : disk.searchStart? start = some directory) :
    disk.configFiles environment start =
      disk.homeFiles environment ++
        (disk.configFilesIn (Path.ancestors directory).reverse).filter fun path =>
          !(disk.homeFiles environment).any (Path.same path) := by
  rw [configFiles, h]
  rfl

theorem isFile_of_mem_configFilesIn {directories : List Path} {path : Path}
    (h : path ∈ disk.configFilesIn directories) : disk.isFile path = true :=
  (List.mem_filter.mp h).2

theorem not_any_same {path : Path} (h : ¬ disk.IsHomeFile environment path) :
    (!(disk.homeFiles environment).any (Path.same path)) = true := by
  rw [Bool.not_eq_true', List.any_eq_false]
  intro home hhome hsame
  exact h ⟨home, hhome, (eq_of_beq hsame).symm⟩

theorem IsHomeFile.unique {path other : Path} (h : disk.IsHomeFile environment path)
    (hother : disk.IsHomeFile environment other) :
    Path.components path = Path.components other := by
  rcases h with ⟨home, hhome, hpath⟩
  rcases hother with ⟨home', hhome', hother⟩
  have hfile := (List.mem_filter.mp hhome).1
  have hfile' := (List.mem_filter.mp hhome').1
  cases hdirectory : environment.homeDirectory? with
  | none =>
      rw [hdirectory] at hfile
      cases hfile
  | some directory =>
      rw [hdirectory, Option.toList_some, List.map_cons, List.map_nil, List.mem_singleton]
        at hfile hfile'
      rw [← hpath, ← hother, hfile, hfile']

/-!
# No file twice
-/

theorem nodup_homeFiles : ((disk.homeFiles environment).map Path.components).Nodup := by
  rw [homeFiles, configFilesIn]
  cases environment.homeDirectory? with
  | none => exact List.nodup_nil
  | some home =>
      apply List.Nodup.sublist (List.filter_sublist.map Path.components)
      simp

theorem nodup_configFilesIn_ancestors :
    ((disk.configFilesIn (Path.ancestors directory).reverse).map Path.components).Nodup := by
  apply List.Nodup.sublist (List.filter_sublist.map Path.components)
  rw [List.map_map, List.Nodup, List.pairwise_map, List.pairwise_reverse]
  apply (Path.pairwise_ancestors directory).imp
  intro lower upper hbelow
  exact hbelow.configFile_ne

theorem nodup_configFiles : ((disk.configFiles environment start).map Path.components).Nodup := by
  cases hstart : disk.searchStart? start with
  | none =>
      rw [configFiles, hstart]
      exact nodup_homeFiles
  | some directory =>
      rw [configFiles_of_start hstart, List.map_append, List.nodup_append]
      refine ⟨nodup_homeFiles, ?_, ?_⟩
      · exact nodup_configFilesIn_ancestors.sublist (List.filter_sublist.map Path.components)
      · intro first hfirst second hsecond heq
        rcases List.mem_map.mp hfirst with ⟨home, hhome, rfl⟩
        rcases List.mem_map.mp hsecond with ⟨path, hpath, rfl⟩
        have hother := (List.mem_filter.mp hpath).2
        rw [Bool.not_eq_true', List.any_eq_false] at hother
        exact hother home hhome (beq_iff_eq.mpr heq.symm)

/-!
# Two directories above the start
-/

variable {upper lower : Path}

/-- Two directories above a place, one below the other one, both with a configuration
file. -/
structure TwoFiles (disk : Disk) (directory upper lower : Path) : Prop where
  upperAbove : upper ∈ Path.ancestors directory
  lowerAbove : lower ∈ Path.ancestors directory
  below : Path.StrictlyBelow lower upper
  upperFile : disk.isFile upper.configFile = true
  lowerFile : disk.isFile lower.configFile = true

theorem TwoFiles.sublist_configFilesIn (h : disk.TwoFiles directory upper lower) :
    [upper.configFile, lower.configFile].Sublist
      (disk.configFilesIn (Path.ancestors directory).reverse) := by
  have hsublist : [upper, lower].Sublist (Path.ancestors directory).reverse :=
    (Path.sublist_ancestors h.lowerAbove h.upperAbove h.below).reverse
  have hfiles := (hsublist.map Path.configFile).filter disk.isFile
  simp only [List.map_cons, List.map_nil, List.filter_cons, h.upperFile, h.lowerFile, if_true,
    List.filter_nil] at hfiles
  exact hfiles

/-- Unless the lower directory is the home directory, its file is listed after the one of
the upper directory, in whatever spelling that one is listed. -/
theorem TwoFiles.exists_sublist (h : disk.TwoFiles directory upper lower)
    (hstart : disk.searchStart? start = some directory)
    (hhome : ¬ disk.IsHomeFile environment lower.configFile) :
    ∃ path, disk.isFile path = true ∧
      Path.components path = Path.components upper.configFile ∧
      [path, lower.configFile].Sublist (disk.configFiles environment start) := by
  have hfiles := h.sublist_configFilesIn
  have hkept := not_any_same hhome
  rw [configFiles_of_start hstart]
  by_cases hupperHome : disk.IsHomeFile environment upper.configFile
  · -- the upper file is listed as the one in the home directory, in front of all others
    rcases hupperHome with ⟨home, hmem, hsame⟩
    refine ⟨home, isFile_of_mem_configFilesIn hmem, hsame, ?_⟩
    have hlowerMem := hfiles.subset (List.mem_cons_of_mem _ List.mem_cons_self)
    exact (List.singleton_sublist.mpr hmem).append
      (List.singleton_sublist.mpr (List.mem_filter.mpr ⟨hlowerMem, hkept⟩))
  · refine ⟨upper.configFile, h.upperFile, rfl, ?_⟩
    have hfiltered := hfiles.filter fun path =>
      !(disk.homeFiles environment).any (Path.same path)
    simp only [List.filter_cons, not_any_same hupperHome, hkept, if_true,
      List.filter_nil] at hfiltered
    exact hfiltered.trans (List.sublist_append_right _ _)

theorem TwoFiles.listedBefore (h : disk.TwoFiles directory upper lower)
    (hstart : disk.searchStart? start = some directory)
    (hhome : ¬ disk.IsHomeFile environment lower.configFile) :
    ListedBefore (disk.configFiles environment start) upper.configFile lower.configFile := by
  rcases h.exists_sublist hstart hhome with ⟨path, _, hsame, hsublist⟩
  have hlisted := hsublist.map Path.components
  rw [List.map_cons, hsame] at hlisted
  exact hlisted

theorem TwoFiles.listedBefore_of_isHomeFile (h : disk.TwoFiles directory upper lower)
    (hstart : disk.searchStart? start = some directory)
    (hhome : disk.IsHomeFile environment lower.configFile) :
    ListedBefore (disk.configFiles environment start) lower.configFile upper.configFile := by
  have hupperHome : ¬ disk.IsHomeFile environment upper.configFile := by
    intro hupperHome
    exact h.below.configFile_ne (hupperHome.unique hhome)
  have hupperMem := h.sublist_configFilesIn.subset List.mem_cons_self
  rcases hhome with ⟨home, hmem, hsame⟩
  rw [ListedBefore, configFiles_of_start hstart, List.map_append, ← hsame]
  exact (List.singleton_sublist.mpr (List.mem_map_of_mem hmem)).append
    (List.singleton_sublist.mpr (List.mem_map_of_mem
      (List.mem_filter.mpr ⟨hupperMem, not_any_same hupperHome⟩)))

theorem TwoFiles.sublist_usableLayers (h : disk.TwoFiles directory upper lower)
    (hstart : disk.searchStart? start = some directory)
    (hhome : ¬ disk.IsHomeFile environment lower.configFile) {upperLayer lowerLayer : Layer}
    (hupperLayer : disk.readLayer upper.configFile = .ok upperLayer)
    (hlowerLayer : disk.readLayer lower.configFile = .ok lowerLayer) :
    [upperLayer, lowerLayer].Sublist
      (disk.usableLayers (disk.configFiles environment start)) := by
  rcases h.exists_sublist hstart hhome with ⟨path, hfile, hsame, hsublist⟩
  have hlayer : disk.readLayer path = .ok upperLayer := by
    rw [← hupperLayer, readLayer, readLayer, read_of_same hsame hfile h.upperFile]
  have hlayers := hsublist.filterMap fun path => (disk.readLayer path).toOption
  simp only [List.filterMap_cons, hlayer, hlowerLayer, Except.toOption, List.filterMap_nil]
    at hlayers
  exact hlayers

end Listing

/-- Of two configuration files in directories above the start, the one in the lower
directory is listed later and goes on top, unless it is the one in the home directory,
which is listed first.  No file is listed twice. -/
theorem nearest_file_last (disk : Disk) (environment : Environment) (start : Path) :
    ((disk.configFiles environment start).map Path.components).Nodup ∧
    ∀ directory upper lower, disk.searchStart? start = some directory →
      disk.TwoFiles directory upper lower →
        (ListedBefore (disk.configFiles environment start) upper.configFile lower.configFile ↔
          ¬ disk.IsHomeFile environment lower.configFile) ∧
        (disk.IsHomeFile environment lower.configFile →
          ListedBefore (disk.configFiles environment start) lower.configFile
            upper.configFile) ∧
        (¬ disk.IsHomeFile environment lower.configFile → ∀ upperLayer lowerLayer,
          disk.readLayer upper.configFile = .ok upperLayer →
          disk.readLayer lower.configFile = .ok lowerLayer →
          [upperLayer, lowerLayer].Sublist
            (disk.usableLayers (disk.configFiles environment start))) := by
  refine ⟨nodup_configFiles, ?_⟩
  intro directory upper lower hstart hfiles
  refine ⟨⟨?_, ?_⟩, ?_, ?_⟩
  · intro hlisted hhome
    have hback : ListedBefore (disk.configFiles environment start) lower.configFile
        upper.configFile :=
      hfiles.listedBefore_of_isHomeFile hstart hhome
    exact hback.asymm nodup_configFiles hlisted
  · exact hfiles.listedBefore hstart
  · exact hfiles.listedBefore_of_isHomeFile hstart
  · intro hhome upperLayer lowerLayer hupperLayer hlowerLayer
    exact hfiles.sublist_usableLayers hstart hhome hupperLayer hlowerLayer

def twoConfigFiles : Disk where
  root :=
    ((Listing.empty.putFile (Text.encode "indent_width = 3\n".toList)
        [configFileName]).putFile
      (Text.encode "indent_width = 4\n".toList) [Path.of "a", configFileName]).putFile
      (Text.encode "x\n".toList) [Path.of "a", Path.of "b", Path.of "x.cs"]
  current := []

def widthLayer (width : Nat) : Layer where
  indentWidth? := some width
  replaceTabs? := none
  fixIndent? := none
  fixDocu? := none
  excludedDirs? := none
  excludedExtensions? := none
  canonicalKeys? := none
  exclude := []
  keyAliases := []

theorem nearest_file_last_homeAbove :
    ListedBefore (twoConfigFiles.configFiles ⟨some "//.".toList, none⟩ (Path.of "/a/b/x.cs"))
        (Path.of "/codefmt.toml") (Path.of "/a/codefmt.toml") ∧
      [widthLayer 3, widthLayer 4].Sublist (twoConfigFiles.usableLayers
        (twoConfigFiles.configFiles ⟨some "//.".toList, none⟩ (Path.of "/a/b/x.cs"))) := by
  have hstart : twoConfigFiles.searchStart? (Path.of "/a/b/x.cs") = some (Path.of "/a/b") := by
    decide +kernel
  have hfiles : twoConfigFiles.TwoFiles (Path.of "/a/b") (Path.of "/") (Path.of "/a") :=
    ⟨by decide, by decide, by decide, by decide +kernel, by decide +kernel⟩
  have hhome : ¬ twoConfigFiles.IsHomeFile ⟨some "//.".toList, none⟩
      (Path.configFile (Path.of "/a")) := by
    decide +kernel
  rcases (nearest_file_last twoConfigFiles ⟨some "//.".toList, none⟩ (Path.of "/a/b/x.cs")).2
    _ _ _ hstart hfiles with ⟨hlisted, _, hlayers⟩
  exact ⟨hlisted.mpr hhome, hlayers hhome (widthLayer 3) (widthLayer 4) (by decide +kernel)
    (by decide +kernel)⟩

/-- If the home directory is the lower one of the two, then its file comes first. -/
theorem not_nearest_file_last_homeBelow :
    ¬ ∀ (disk : Disk) (environment : Environment) (start directory upper lower : Path),
      disk.searchStart? start = some directory → disk.TwoFiles directory upper lower →
        ListedBefore (disk.configFiles environment start) upper.configFile
          lower.configFile := by
  intro h
  have hfiles : twoConfigFiles.TwoFiles (Path.of "a/b") [] (Path.of "a") :=
    ⟨by decide, by decide, by decide, by decide +kernel, by decide +kernel⟩
  have hlisted := h twoConfigFiles ⟨some "a".toList, none⟩ (Path.of "a/b") (Path.of "a/b") []
    (Path.of "a") (by decide +kernel) hfiles
  exact absurd hlisted (by decide +kernel)

end Disk
end SourceTidy
