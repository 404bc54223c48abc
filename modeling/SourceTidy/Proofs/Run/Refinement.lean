import SourceTidy.Proofs.Files.Enumeration
import SourceTidy.Proofs.Run.Tidying

/-!
# What a run does

A run writes files while later ones are still to be read.  Since the enumerated
paths lead to different places, it nevertheless does to each file what the disk
at the start says: the reports, the end of the run and the tree it leaves are all
determined by the disk before the first file was touched.
-/

namespace SourceTidy
namespace Disk

/-!
# What the disk at the start says

The enumerated paths are the ones of files that can be tidied, up to the first that
cannot.  Reports and new contents depend on the files before it alone.
-/

/-- Files that can be tidied, and the paths from the first one on that cannot. -/
structure Judged (disk : Disk) (config : Config) (paths : List Path) (files : List TidiedFile)
    (remaining : List Path) : Prop where
  split : paths = files.map TidiedFile.path ++ remaining
  tidies : ∀ file ∈ files, disk.Tidies config file
  fails : ∀ path ∈ remaining.head?, ∃ cause, disk.Fails config path cause

/-- How a run ends that comes to the remaining paths with some totals. -/
inductive Ends (disk : Disk) (config : Config) (summary : Summary) :
    List Path → Except Failure Summary → Prop where
  | all : Ends disk config summary [] (.ok summary)
  | fails {path : Path} {paths : List Path} {cause : Cause} :
      disk.Fails config path cause →
      Ends disk config summary (path :: paths) (.error { path := path, cause := cause })

def reportOn (disk : Disk) (simulate : Bool) (root : Path) (file : TidiedFile) : Report where
  path := file.path
  display := disk.displayPath root file.path
  record := file.record
  persisted := file.record.isDirty && !simulate

/-- The place and the new content of a tidied file that is written. -/
def rewrite? (disk : Disk) (config : Config) (simulate : Bool) (file : TidiedFile) :
    Option (List Name × ByteArray) :=
  match disk.locate file.path with
  | .error _ => none
  | .ok (place, _) =>
      if file.record.isDirty && !simulate then some (place, config.rewritten file.text) else none

def rewrites (disk : Disk) (config : Config) (simulate : Bool) (files : List TidiedFile) :
    List (List Name × ByteArray) :=
  files.filterMap (disk.rewrite? config simulate)

theorem exists_judged (disk : Disk) (config : Config) (paths : List Path) :
    ∃ files remaining, disk.Judged config paths files remaining := by
  induction paths with
  | nil => exact ⟨[], [], rfl, by simp, by simp⟩
  | cons path paths ih =>
      rcases disk.tidies_or_fails config path with ⟨text, record, htidies⟩ | hfails
      · rcases ih with ⟨files, remaining, hsplit, hfiles, hremaining⟩
        refine ⟨{ path := path, text := text, record := record } :: files, remaining, ?_, ?_, ?_⟩
        · rw [hsplit, List.map_cons, List.cons_append]
        · exact List.forall_mem_cons.mpr ⟨htidies, hfiles⟩
        · exact hremaining
      · refine ⟨[], path :: paths, rfl, by simp, ?_⟩
        intro other hother
        cases hother
        exact hfails

theorem Ends.unique {disk : Disk} {config : Config} {summary : Summary} {remaining : List Path}
    {result other : Except Failure Summary} (h : disk.Ends config summary remaining result)
    (hother : disk.Ends config summary remaining other) : result = other := by
  cases h with
  | all =>
      cases hother
      rfl
  | fails hfails =>
      cases hother with
      | fails hfails' => rw [hfails.unique hfails']

theorem Judged.exists_ends {disk : Disk} {config : Config} {paths remaining : List Path}
    {files : List TidiedFile} (h : disk.Judged config paths files remaining)
    (summary : Summary) : ∃ result, disk.Ends config summary remaining result := by
  cases remaining with
  | nil => exact ⟨_, .all⟩
  | cons path paths =>
      rcases h.fails path rfl with ⟨cause, hcause⟩
      exact ⟨_, .fails hcause⟩

section Steps

variable {disk : Disk} {config : Config} {simulate : Bool} {root path : Path}
  {file : TidiedFile} {files : List TidiedFile} {cause : Cause}

theorem Tidies.locate (h : disk.Tidies config file) :
    ∃ place, disk.locate file.path = .ok (place, .file (Text.encode file.text)) :=
  locate_of_read h.read

theorem loadTidied_congr {other : Disk} (h : other.read path = disk.read path) :
    other.loadTidied config path = disk.loadTidied config path := by
  rw [loadTidied, loadTidied, load, load, h]

theorem rewrite?_of_locate {place : List Name} {entry : Entry}
    (h : disk.locate file.path = .ok (place, entry)) :
    disk.rewrite? config simulate file =
      if file.record.isDirty && !simulate then some (place, config.rewritten file.text)
      else none := by
  rw [rewrite?, h]

theorem rewrites_cons :
    disk.rewrites config simulate (file :: files) =
      (disk.rewrite? config simulate file).toList ++ disk.rewrites config simulate files := by
  rw [rewrites]
  cases hrewrite : disk.rewrite? config simulate file with
  | none =>
      rw [List.filterMap_cons_none hrewrite]
      rfl
  | some written =>
      rw [List.filterMap_cons_some hrewrite]
      rfl

/-!
# One file

The invariant of a run: the disk is the one at the start with new contents at some
places, and no path that is still to come leads to one of these places.
-/

/-- None of the places with new contents is where a path leads. -/
def Untouched (disk : Disk) (contents : List (List Name × ByteArray)) (path : Path) : Prop :=
  ∀ place entry, disk.locate path = .ok (place, entry) → contents.lookup place = none

theorem overwrite_append_singleton {contents : List (List Name × ByteArray)}
    {place : List Name} (h : contents.lookup place = none) (new : ByteArray) :
    disk.overwrite ((place, new) :: contents) = disk.overwrite (contents ++ [(place, new)]) := by
  rw [overwrite, overwrite, Listing.overwrite, Listing.overwrite]
  congr 2
  funext other old
  rw [List.lookup_cons, List.lookup_append]
  by_cases hplace : other = place
  · rw [hplace, h]
    simp
  · have hbeq : (other == place) = false := beq_eq_false_iff_ne.mpr hplace
    rw [hbeq]
    cases hlookup : contents.lookup other with
    | none => simp [List.lookup_cons, hbeq]
    | some content => simp

/-- Tidying a file on the way gives the report and the content that the disk at
the start says. -/
theorem tidyFile_overwrite {contents : List (List Name × ByteArray)} (hdisk : disk.WellFormed)
    (hpath : disk.Untouched contents file.path) (h : disk.Tidies config file) :
    (disk.overwrite contents).tidyFile config simulate root file.path =
      .ok (disk.reportOn simulate root file,
        disk.overwrite (contents ++ (disk.rewrite? config simulate file).toList)) := by
  rcases h.locate with ⟨place, hlocate⟩
  have hload := (loadTidied_congr (read_overwrite_of_lookup hpath)).trans (loadTidied_of_tidies h)
  have hplace : (disk.overwrite contents).locate file.path =
      .ok (place, .file (Text.encode file.text)) := by
    have hlookup := hpath place _ hlocate
    rw [locate_overwrite, hlocate]
    simp only [Except.map, Entry.mapFiles, hlookup, Option.getD_none]
  rw [tidyFile, hload, rewrite?_of_locate hlocate, displayPath_overwrite, reportOn]
  by_cases hpersisted : (file.record.isDirty && !simulate) = true
  · have hwrite := write_eq_overwrite (wellFormed_overwrite hdisk contents) hplace
      (config.rewritten file.text)
    rw [overwrite_overwrite, List.singleton_append,
      overwrite_append_singleton (hpath place _ hlocate)] at hwrite
    rw [Config.rewritten] at hwrite
    simp only [if_pos hpersisted, Option.toList_some, hwrite, Config.rewritten]
  · simp only [if_neg hpersisted, Option.toList_none, List.append_nil]

theorem tidyFile_overwrite_error {contents : List (List Name × ByteArray)}
    (hpath : disk.Untouched contents path) (h : disk.Fails config path cause) :
    (disk.overwrite contents).tidyFile config simulate root path =
      .error { path := path, cause := cause } := by
  have hload := (loadTidied_congr (read_overwrite_of_lookup hpath)).trans (loadTidied_of_fails h)
  rw [tidyFile, hload]

theorem Untouched.append {contents more : List (List Name × ByteArray)}
    (hcontents : disk.Untouched contents path) (hmore : disk.Untouched more path) :
    disk.Untouched (contents ++ more) path := by
  intro place entry hplace
  rw [List.lookup_append, hcontents place entry hplace, hmore place entry hplace]
  rfl

theorem untouched_rewrite? {other : Path} (hapart : disk.Apart file.path other) :
    disk.Untouched (disk.rewrite? config simulate file).toList other := by
  intro place entry hplace
  unfold rewrite?
  cases hlocate : disk.locate file.path with
  | error e => rfl
  | ok found =>
      rcases found with ⟨written, found⟩
      have hne : (place == written) = false := by
        rw [beq_eq_false_iff_ne]
        intro heq
        exact hapart written found entry hlocate (heq ▸ hplace)
      by_cases hpersisted : (file.record.isDirty && !simulate) = true
      · simp only [if_pos hpersisted, Option.toList_some, List.lookup_cons, hne,
          List.lookup_nil]
      · simp only [if_neg hpersisted, Option.toList_none, List.lookup_nil]

end Steps

/-!
# All files
-/

theorem tidyFiles_overwrite {disk : Disk} (hdisk : disk.WellFormed) {config : Config}
    (simulate : Bool) (root : Path) (contents : List (List Name × ByteArray))
    (summary : Summary) {paths remaining : List Path} {files : List TidiedFile}
    {result : Except Failure Summary} (hjudged : disk.Judged config paths files remaining)
    (hresult : disk.Ends config
      ((files.map (disk.reportOn simulate root)).foldl Summary.add summary) remaining result)
    (hapart : paths.Pairwise disk.Apart)
    (huntouched : ∀ path ∈ paths, disk.Untouched contents path) :
    Disk.tidyFiles config simulate root (disk.overwrite contents) summary paths =
      { reports := files.map (disk.reportOn simulate root)
        result := result
        disk := disk.overwrite (contents ++ disk.rewrites config simulate files) } := by
  rcases hjudged with ⟨rfl, htidies, _⟩
  induction files generalizing contents summary with
  | nil =>
      rw [rewrites, List.filterMap_nil, List.append_nil]
      cases hresult with
      | all => rfl
      | fails hfails =>
          have hpath := huntouched _ List.mem_cons_self
          rw [List.map_nil, List.nil_append, tidyFiles, tidyFile_overwrite_error hpath hfails]
          rfl
  | cons file files ih =>
      rcases List.forall_mem_cons.mp htidies with ⟨hfile, hfiles⟩
      have hrest := List.pairwise_cons.mp hapart
      have hpath := huntouched file.path List.mem_cons_self
      have hnext : ∀ other ∈ files.map TidiedFile.path ++ remaining,
          disk.Untouched (contents ++ (disk.rewrite? config simulate file).toList) other := by
        intro other hother
        apply Untouched.append
        · exact huntouched other (List.mem_cons_of_mem _ hother)
        · exact untouched_rewrite? (hrest.1 other hother)
      rw [List.map_cons, List.cons_append, tidyFiles, tidyFile_overwrite hdisk hpath hfile]
      simp only [ih _ _ hresult hfiles hrest.2 hnext]
      rw [rewrites_cons, List.map_cons, List.append_assoc]

/-- A run over an enumerated tree, told by the disk at the start. -/
theorem run_of_walk {disk : Disk} (hdisk : disk.WellFormed) {config : Config}
    (simulate : Bool) (root : Path) {paths remaining : List Path} {files : List TidiedFile}
    {result : Except Failure Summary}
    (h : disk.walk (Exclusions.ofConfig config) root = .ok paths)
    (hjudged : disk.Judged config paths files remaining)
    (hresult : disk.Ends config
      ((files.map (disk.reportOn simulate root)).foldl Summary.add Summary.empty)
      remaining result) :
    disk.run config simulate root =
      { reports := files.map (disk.reportOn simulate root)
        result := result
        disk := disk.overwrite (disk.rewrites config simulate files) } := by
  have htidy := tidyFiles_overwrite hdisk simulate root [] Summary.empty hjudged hresult
    (walk_apart hdisk h) (fun _ _ _ _ _ => rfl)
  rw [overwrite_nil, List.nil_append] at htidy
  rw [run, enumerate, h]
  exact htidy

theorem run_of_walk_error {disk : Disk} (config : Config) (simulate : Bool) (root : Path)
    {path : Path} {e : DiskError}
    (h : disk.walk (Exclusions.ofConfig config) root = .error (path, e)) :
    disk.run config simulate root =
      { reports := []
        result := .error { path := path, cause := .unlisted path e }
        disk := disk } := by
  rw [run, enumerate, h]

/-!
# What a run leaves
-/

section Contents

variable {disk : Disk} {config : Config} {simulate : Bool} {file : TidiedFile}
  {files : List TidiedFile}

theorem untouched_rewrites {path : Path} (h : ∀ file ∈ files, disk.Apart file.path path) :
    disk.Untouched (disk.rewrites config simulate files) path := by
  induction files with
  | nil =>
      intro place entry _
      rfl
  | cons first files ih =>
      rcases List.forall_mem_cons.mp h with ⟨hfirst, hrest⟩
      rw [rewrites_cons]
      exact (untouched_rewrite? hfirst).append (ih hrest)

theorem Apart.symm {path other : Path} (h : disk.Apart path other) : disk.Apart other path := by
  intro place entry entry' hother hpath
  exact h place entry' entry hpath hother

theorem lookup_rewrites (hapart : (files.map TidiedFile.path).Pairwise disk.Apart)
    (hfile : file ∈ files) {place : List Name} {entry : Entry}
    (hlocate : disk.locate file.path = .ok (place, entry)) :
    (disk.rewrites config simulate files).lookup place =
      if file.record.isDirty && !simulate then some (config.rewritten file.text) else none := by
  induction files with
  | nil => cases hfile
  | cons first files ih =>
      rw [List.map_cons, List.pairwise_cons] at hapart
      rcases hapart with ⟨hfirst, hrest⟩
      rw [rewrites_cons, List.lookup_append]
      rcases List.mem_cons.mp hfile with rfl | htail
      · -- the files after this one lead elsewhere
        have hlater : disk.Untouched (disk.rewrites config simulate files) file.path := by
          apply untouched_rewrites
          intro other hother
          exact (hfirst other.path (List.mem_map_of_mem hother)).symm
        rw [hlater place _ hlocate, rewrite?_of_locate hlocate, Option.or_none]
        split
        · exact List.lookup_cons_self
        · rfl
      · have hother : disk.Untouched (disk.rewrite? config simulate first).toList file.path :=
          untouched_rewrite? (hfirst file.path (List.mem_map_of_mem htail))
        rw [hother place _ hlocate, Option.none_or]
        exact ih hrest htail

theorem exists_of_lookup_rewrites {place : List Name} {content : ByteArray}
    (h : (disk.rewrites config simulate files).lookup place = some content) :
    ∃ file ∈ files, (∃ entry, disk.locate file.path = .ok (place, entry)) ∧
      (file.record.isDirty && !simulate) = true ∧ content = config.rewritten file.text := by
  induction files with
  | nil => cases h
  | cons first files ih =>
      rw [rewrites_cons, List.lookup_append] at h
      cases hfirst : (disk.rewrite? config simulate first).toList.lookup place with
      | none =>
          rw [hfirst, Option.none_or] at h
          rcases ih h with ⟨file, hfile, hwritten⟩
          exact ⟨file, List.mem_cons_of_mem _ hfile, hwritten⟩
      | some new =>
          rw [hfirst, Option.some_or] at h
          cases h
          refine ⟨first, List.mem_cons_self, ?_⟩
          unfold rewrite? at hfirst
          cases hlocate : disk.locate first.path with
          | error e =>
              rw [hlocate] at hfirst
              cases hfirst
          | ok found =>
              rw [hlocate] at hfirst
              dsimp only at hfirst
              split at hfirst
              · rename_i hpersisted
                rw [Option.toList_some, List.lookup_cons] at hfirst
                split at hfirst
                · rename_i heq
                  cases hfirst
                  rw [beq_iff_eq.mp heq]
                  exact ⟨⟨found.2, rfl⟩, hpersisted, rfl⟩
                · cases hfirst
              · cases hfirst

theorem read_rewrites (hapart : (files.map TidiedFile.path).Pairwise disk.Apart)
    (hfile : file ∈ files) (h : disk.Tidies config file) :
    (disk.overwrite (disk.rewrites config simulate files)).read file.path =
      if file.record.isDirty && !simulate then .ok (config.rewritten file.text)
      else disk.read file.path := by
  rcases h.locate with ⟨place, hlocate⟩
  rw [read_overwrite_of_locate _ hlocate, read_of_locate hlocate,
    lookup_rewrites hapart hfile hlocate]
  split <;> rfl

end Contents

/-!
# Refinement

The three parts of a run: what is reported, how it ends, and what it leaves.
-/

/-- A run reports and writes the files before the first one that cannot be tidied,
each as the disk at the start says, and fails at that one.  It changes nothing
else. -/
theorem run_refines_walk (disk : Disk) (hdisk : disk.WellFormed) (config : Config)
    (simulate : Bool) (root : Path) :
    (∀ path e, disk.walk (Exclusions.ofConfig config) root = .error (path, e) →
      disk.run config simulate root =
        { reports := []
          result := .error { path := path, cause := .unlisted path e }
          disk := disk }) ∧
    ∀ paths, disk.walk (Exclusions.ofConfig config) root = .ok paths →
      -- the enumerated paths lead to files
      (∀ path ∈ paths, Path.isTooLong path = false → ∃ content, disk.read path = .ok content) ∧
      (∃ files remaining, disk.Judged config paths files remaining) ∧
      ∀ files remaining, disk.Judged config paths files remaining →
        -- what is reported
        (disk.run config simulate root).reports = files.map (disk.reportOn simulate root) ∧
        -- how it ends
        disk.Ends config ((disk.run config simulate root).reports.foldl Summary.add Summary.empty)
          remaining (disk.run config simulate root).result ∧
        -- what it leaves
        (∀ file ∈ files, (disk.run config simulate root).disk.read file.path =
          if file.record.isDirty && !simulate then .ok (config.rewritten file.text)
          else disk.read file.path) ∧
        (∀ path ∈ remaining, (disk.run config simulate root).disk.read path = disk.read path) ∧
        (∀ path, (∀ file ∈ files, disk.Apart file.path path) →
          (disk.run config simulate root).disk.read path = disk.read path) ∧
        ∃ contents, (disk.run config simulate root).disk = disk.overwrite contents ∧
          ∀ place content, contents.lookup place = some content ↔
            ∃ file ∈ files, (∃ entry, disk.locate file.path = .ok (place, entry)) ∧
              (file.record.isDirty && !simulate) = true ∧
              content = config.rewritten file.text := by
  constructor
  · intro path e hwalk
    exact run_of_walk_error config simulate root hwalk
  · intro paths hwalk
    refine ⟨?_, disk.exists_judged config paths, ?_⟩
    · intro path hpath hshort
      exact walk_readable hdisk hwalk hpath hshort
    · intro files remaining hjudged
      rcases hjudged.exists_ends
        ((files.map (disk.reportOn simulate root)).foldl Summary.add Summary.empty)
        with ⟨result, hresult⟩
      have hapart := walk_apart hdisk hwalk
      rw [hjudged.split, List.pairwise_append] at hapart
      rcases hapart with ⟨hfiles, _, hacross⟩
      have hunread : ∀ path, (∀ file ∈ files, disk.Apart file.path path) →
          (disk.overwrite (disk.rewrites config simulate files)).read path = disk.read path :=
        fun path h => read_overwrite_of_lookup (untouched_rewrites h)
      rw [run_of_walk hdisk simulate root hwalk hjudged hresult]
      refine ⟨rfl, hresult, ?_, ?_, hunread, _, rfl, ?_⟩
      · intro file hfile
        exact read_rewrites hfiles hfile (hjudged.tidies file hfile)
      · intro path hpath
        apply hunread
        intro file hfile
        exact hacross file.path (List.mem_map_of_mem hfile) path hpath
      · intro place content
        constructor
        · exact exists_of_lookup_rewrites
        · rintro ⟨file, hfile, ⟨entry, hlocate⟩, hpersisted, rfl⟩
          rw [lookup_rewrites hfiles hfile hlocate, if_pos hpersisted]

def threeFiles : Disk where
  root :=
    ((Listing.empty.putFile (Text.encode ['x']) [Path.of "c"]).putFile ByteArray.empty
      [Path.of "b"]).putFile
      (Text.encode ['/', '*', '\n', ' ', '*', 'x', '\n', '*', '/', '\n']) [Path.of "a"]
  current := []

theorem wellFormed_threeFiles : threeFiles.WellFormed := by
  apply Listing.wellFormed_putFile _ _ (by decide)
  apply Listing.wellFormed_putFile _ _ (by decide)
  exact Listing.wellFormed_putFile _ Listing.wellFormed_empty (by decide)

theorem run_refines_walk_threeFiles :
    threeFiles.WellFormed ∧
      threeFiles.walk (Exclusions.ofConfig Config.standard) [Path.slash] =
        .ok [Path.of "/a", Path.of "/b", Path.of "/c"] ∧
      (threeFiles.run Config.standard false [Path.slash]).reports.map Report.path = [Path.of "/a"] ∧
      (threeFiles.run Config.standard false [Path.slash]).result =
        .error { path := Path.of "/b", cause := .noContent } ∧
      (threeFiles.run Config.standard false [Path.slash]).disk.read (Path.of "/a") =
        .ok (Text.encode (DocBlock.openingBanner ++ "\n*   x\n".toList ++
          DocBlock.closingBanner ++ ['\n'])) ∧
      (threeFiles.run Config.standard false [Path.slash]).disk.read (Path.of "/c") =
        threeFiles.read (Path.of "/c") := by
  have hdisk := wellFormed_threeFiles
  have hwalk : threeFiles.walk (Exclusions.ofConfig Config.standard) [Path.slash] =
      .ok [Path.of "/a", Path.of "/b", Path.of "/c"] := by rfl
  let first : TidiedFile :=
    { path := Path.of "/a"
      text := ['/', '*', '\n', ' ', '*', 'x', '\n', '*', '/', '\n']
      record := Record.empty.add .docu }
  have hfails : threeFiles.Fails Config.standard (Path.of "/b") .noContent := .noContent rfl
  have hjudged : threeFiles.Judged Config.standard [Path.of "/a", Path.of "/b", Path.of "/c"]
      [first] [Path.of "/b", Path.of "/c"] := by
    refine ⟨rfl, ?_, ?_⟩
    · intro file hfile
      rw [List.mem_singleton.mp hfile]
      exact ⟨rfl, by decide, rfl⟩
    · intro path hpath
      cases hpath
      exact ⟨_, hfails⟩
  rcases (run_refines_walk threeFiles hdisk Config.standard false [Path.slash]).2 _ hwalk with
    ⟨_, _, hrun⟩
  rcases hrun _ _ hjudged with ⟨hreports, hends, hwritten, hafter, _⟩
  refine ⟨hdisk, hwalk, ?_, hends.unique (.fails hfails), ?_, ?_⟩
  · rw [hreports]
    rfl
  · have hcontent : Config.standard.rewritten first.text =
        Text.encode (DocBlock.openingBanner ++ "\n*   x\n".toList ++
          DocBlock.closingBanner ++ ['\n']) :=
      congrArg Text.encode (by decide +kernel)
    rw [← hcontent]
    exact hwritten first List.mem_cons_self
  · exact hafter (Path.of "/c") (by decide)

end Disk
end SourceTidy
