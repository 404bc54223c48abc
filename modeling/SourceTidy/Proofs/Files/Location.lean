import SourceTidy.Files.Disk
import SourceTidy.Proofs.Files.Tree
import SourceTidy.Proofs.Text.Separators

/-!
# Where paths lead

A path leads to a place in the tree, and which place that is depends on the names
in the tree alone.  So new contents for files move no path to another place, and
reading a path after a write gives the new content exactly if both lead to the
same place.
-/

namespace SourceTidy
namespace Disk

/-!
# Following segments
-/

theorem follow_append (root : Listing) (trail : List Name) (entry : Entry)
    (first second : List Name) :
    follow root trail entry (first ++ second) =
      (follow root trail entry first).bind fun (trail, entry) =>
        follow root trail entry second := by
  induction first generalizing trail entry with
  | nil => rfl
  | cons segment segments ih =>
      cases entry with
      | file content => rfl
      | dir content =>
          rw [List.cons_append, follow, follow]
          cases hcomponent : Path.componentOf? segment with
          | none => exact ih trail (.dir content)
          | some component =>
              cases component with
              | up =>
                  cases root.get? trail.tail.reverse with
                  | none => rfl
                  | some above => exact ih trail.tail above
              | _ =>
                  by_cases hlong : Path.isOverlongName segment = true
                  · simp only [if_pos hlong]
                    rfl
                  · simp only [if_neg hlong]
                    cases content.find? segment with
                    | none => rfl
                    | some inner => exact ih (segment :: trail) inner

theorem get?_of_follow {root : Listing} {trail trail' : List Name} {entry entry' : Entry}
    {segments : List Name} (hstart : root.get? trail.reverse = some entry)
    (h : follow root trail entry segments = .ok (trail', entry')) :
    root.get? trail'.reverse = some entry' := by
  induction segments generalizing trail entry with
  | nil =>
      cases h
      exact hstart
  | cons segment segments ih =>
      cases entry with
      | file content => cases h
      | dir content =>
          rw [follow] at h
          cases hcomponent : Path.componentOf? segment with
          | none =>
              rw [hcomponent] at h
              exact ih hstart h
          | some component =>
              rw [hcomponent] at h
              cases component with
              | up =>
                  cases habove : root.get? trail.tail.reverse with
                  | none =>
                      simp only [habove] at h
                      cases h
                  | some above =>
                      simp only [habove] at h
                      exact ih habove h
              | _ =>
                  by_cases hlong : Path.isOverlongName segment = true
                  · simp only [if_pos hlong] at h
                    cases h
                  · simp only [if_neg hlong] at h
                    cases hfind : content.find? segment with
                    | none =>
                        simp only [hfind] at h
                        cases h
                    | some inner =>
                        simp only [hfind] at h
                        apply ih _ h
                        rw [List.reverse_cons, Listing.get?_append hstart,
                          Listing.get?_singleton, hfind]

/-- New contents for files change nothing about the way that segments take. -/
theorem follow_mapFiles (f : List Name → ByteArray → ByteArray) (root : Listing)
    (trail : List Name) (entry : Entry) (segments : List Name) :
    follow (root.mapFiles f) trail (entry.mapFiles f trail.reverse) segments =
      (follow root trail entry segments).map fun (trail, entry) =>
        (trail, entry.mapFiles f trail.reverse) := by
  induction segments generalizing trail entry with
  | nil => rfl
  | cons segment segments ih =>
      cases entry with
      | file content => rfl
      | dir content =>
          rw [Entry.mapFiles, follow, follow]
          cases hcomponent : Path.componentOf? segment with
          | none => exact ih trail (.dir content)
          | some component =>
              cases component with
              | up =>
                  simp only [Listing.get?_mapFiles]
                  cases root.get? trail.tail.reverse with
                  | none => rfl
                  | some above => exact ih trail.tail above
              | _ =>
                  by_cases hlong : Path.isOverlongName segment = true
                  · simp only [if_pos hlong]
                    rfl
                  · simp only [if_neg hlong, Listing.find?_mapFiles]
                    cases content.find? segment with
                    | none => rfl
                    | some inner =>
                        have hnext := ih (segment :: trail) inner
                        rw [List.reverse_cons] at hnext
                        rw [← hnext]
                        cases inner with
                        | file bytes => rfl
                        | dir inner => simp [Entry.mapFiles]

/-!
# Places
-/

/-- The tree of a well-formed disk is a map from places to contents. -/
def WellFormed (disk : Disk) : Prop :=
  disk.root.WellFormed

instance (disk : Disk) : Decidable disk.WellFormed :=
  inferInstanceAs (Decidable disk.root.WellFormed)

def overwrite (contents : List (List Name × ByteArray)) (disk : Disk) : Disk :=
  { disk with root := disk.root.overwrite contents }

/-- The paths that are followed at all. -/
def Usable (path : Path) : Prop :=
  0 ∉ path ∧ path ≠ [] ∧ Path.isTooLong path = false

theorem locate_of_usable (disk : Disk) {path : Path} (h : Usable path) :
    disk.locate path =
      match disk.root.get? (disk.startOf path) with
      | none => .error .notFound
      | some entry =>
          (follow disk.root (disk.startOf path).reverse entry (Path.segments path)).map
            fun (trail, entry) => (trail.reverse, entry) := by
  rcases h with ⟨hzero, hempty, hlong⟩
  have hcontains : ¬ path.contains 0 = true := by
    simpa using hzero
  have hisEmpty : ¬ path.isEmpty = true := by
    simpa using hempty
  have htooLong : ¬ Path.isTooLong path = true := by
    simp [hlong]
  unfold locate
  exact (if_neg hcontains).trans ((if_neg hisEmpty).trans (if_neg htooLong))

theorem usable_of_locate {disk : Disk} {path : Path} {found : List Name × Entry}
    (h : disk.locate path = .ok found) : Usable path := by
  unfold locate at h
  by_cases hzero : path.contains 0 = true
  · rw [if_pos hzero] at h
    cases h
  · rw [if_neg hzero] at h
    by_cases hempty : path.isEmpty = true
    · rw [if_pos hempty] at h
      cases h
    · rw [if_neg hempty] at h
      by_cases hlong : Path.isTooLong path = true
      · rw [if_pos hlong] at h
        cases h
      · exact ⟨by simpa using hzero, by simpa using hempty, by simpa using hlong⟩

theorem locate_of_not_usable (disk other : Disk) {path : Path} (h : ¬ Usable path) :
    disk.locate path = other.locate path := by
  unfold locate
  by_cases hzero : path.contains 0 = true
  · rw [if_pos hzero, if_pos hzero]
  · rw [if_neg hzero, if_neg hzero]
    by_cases hempty : path.isEmpty = true
    · rw [if_pos hempty, if_pos hempty]
    · rw [if_neg hempty, if_neg hempty]
      by_cases hlong : Path.isTooLong path = true
      · rw [if_pos hlong, if_pos hlong]
      · exact absurd ⟨by simpa using hzero, by simpa using hempty, by simpa using hlong⟩ h

theorem follow_of_locate {disk : Disk} {path : Path} {place : List Name} {entry : Entry}
    (h : disk.locate path = .ok (place, entry)) :
    ∃ start, disk.root.get? (disk.startOf path) = some start ∧
      follow disk.root (disk.startOf path).reverse start (Path.segments path) =
        .ok (place.reverse, entry) := by
  rw [locate_of_usable disk (usable_of_locate h)] at h
  cases hstart : disk.root.get? (disk.startOf path) with
  | none =>
      rw [hstart] at h
      cases h
  | some start =>
      refine ⟨start, rfl, ?_⟩
      simp only [hstart] at h
      cases hfollow : follow disk.root (disk.startOf path).reverse start (Path.segments path) with
      | error e =>
          rw [hfollow] at h
          cases h
      | ok found =>
          rw [hfollow] at h
          cases h
          rw [List.reverse_reverse]

theorem get?_of_locate {disk : Disk} {path : Path} {place : List Name} {entry : Entry}
    (h : disk.locate path = .ok (place, entry)) : disk.root.get? place = some entry := by
  rcases follow_of_locate h with ⟨start, hstart, hfollow⟩
  have hget := get?_of_follow (by rw [List.reverse_reverse]; exact hstart) hfollow
  rw [List.reverse_reverse] at hget
  exact hget

/-- New contents move no path to another place. -/
theorem locate_overwrite (contents : List (List Name × ByteArray)) (disk : Disk) (path : Path) :
    (disk.overwrite contents).locate path =
      (disk.locate path).map fun (place, entry) =>
        (place, entry.mapFiles (fun place old => (contents.lookup place).getD old) place) := by
  by_cases h : Usable path
  · rw [locate_of_usable _ h, locate_of_usable _ h]
    have hstart : (disk.overwrite contents).startOf path = disk.startOf path := rfl
    rw [hstart, overwrite, Listing.overwrite, Listing.get?_mapFiles]
    cases disk.root.get? (disk.startOf path) with
    | none => rfl
    | some entry =>
        have hfollow := follow_mapFiles (fun place old => (contents.lookup place).getD old)
          disk.root (disk.startOf path).reverse entry (Path.segments path)
        rw [List.reverse_reverse] at hfollow
        simp only [Option.map_some, hfollow]
        cases follow disk.root (disk.startOf path).reverse entry (Path.segments path) <;> rfl
  · rw [locate_of_not_usable _ disk h]
    cases hlocate : disk.locate path with
    | error e => rfl
    | ok found => exact absurd (usable_of_locate hlocate) h

/-!
# Reading and writing
-/

theorem wellFormed_overwrite {disk : Disk} (h : disk.WellFormed)
    (contents : List (List Name × ByteArray)) : (disk.overwrite contents).WellFormed :=
  Listing.wellFormed_mapFiles h

theorem overwrite_nil (disk : Disk) : disk.overwrite [] = disk := by
  rw [overwrite, Listing.overwrite_nil]

theorem overwrite_overwrite (first second : List (List Name × ByteArray)) (disk : Disk) :
    (disk.overwrite first).overwrite second = disk.overwrite (second ++ first) := by
  simp only [overwrite, Listing.overwrite_overwrite]

theorem read_of_locate {disk : Disk} {path : Path} {place : List Name} {content : ByteArray}
    (h : disk.locate path = .ok (place, .file content)) : disk.read path = .ok content := by
  rw [read, entry, h]
  rfl

theorem locate_of_read {disk : Disk} {path : Path} {content : ByteArray}
    (h : disk.read path = .ok content) :
    ∃ place, disk.locate path = .ok (place, .file content) := by
  rw [read, entry] at h
  cases hlocate : disk.locate path with
  | error e =>
      rw [hlocate] at h
      cases h
  | ok found =>
      rcases found with ⟨place, found⟩
      rw [hlocate] at h
      cases found with
      | file bytes =>
          cases h
          exact ⟨place, rfl⟩
      | dir inner => cases h

theorem read_overwrite_of_locate {disk : Disk} {path : Path} {place : List Name}
    {old : ByteArray} (contents : List (List Name × ByteArray))
    (h : disk.locate path = .ok (place, .file old)) :
    (disk.overwrite contents).read path = .ok ((contents.lookup place).getD old) := by
  rw [read, entry, locate_overwrite, h]
  rfl

/-- A path that leads to no place with a new content reads what it read before. -/
theorem read_overwrite_of_lookup {disk : Disk} {path : Path}
    {contents : List (List Name × ByteArray)}
    (h : ∀ place entry, disk.locate path = .ok (place, entry) → contents.lookup place = none) :
    (disk.overwrite contents).read path = disk.read path := by
  rw [read, read, entry, entry, locate_overwrite]
  cases hlocate : disk.locate path with
  | error e => rfl
  | ok found =>
      rcases found with ⟨place, found⟩
      cases found with
      | file old =>
          have hlookup := h place (.file old) hlocate
          simp only [Except.map, Entry.mapFiles, hlookup, Option.getD_none]
      | dir inner => rfl

theorem write_eq_overwrite {disk : Disk} {path : Path} {place : List Name}
    {old : ByteArray} (hdisk : disk.WellFormed)
    (h : disk.locate path = .ok (place, .file old)) (new : ByteArray) :
    disk.write path new = disk.overwrite [(place, new)] := by
  have hput := Listing.putFile_eq_overwrite hdisk (get?_of_locate h) new
  rw [write, h]
  simp only [hput]
  rfl

theorem displayPath_overwrite (contents : List (List Name × ByteArray)) (disk : Disk)
    (root path : Path) :
    (disk.overwrite contents).displayPath root path = disk.displayPath root path := by
  have hdir : (disk.overwrite contents).isDir root = disk.isDir root := by
    rw [isDir, isDir, entry, entry, locate_overwrite]
    cases disk.locate root with
    | error e => rfl
    | ok found =>
        rcases found with ⟨place, found⟩
        cases found <;> rfl
  rw [displayPath, displayPath, hdir]

/-!
# Entries of a directory

The path of an entry has the segments of the directory's path and the name after
them.  A slash at the end of the directory's path leaves an empty segment, and
the name takes its place.
-/

theorem segments_append_slash (a b : Path) :
    Path.segments (a ++ Path.slash :: b) = Path.segments a ++ Path.segments b :=
  List.splitOn_append_cons_self a b

theorem segments_of_no_slash {name : Name} (h : Path.slash ∉ name) : Path.segments name = [name] :=
  List.splitOn_eq_singleton h

theorem child_of_slash {directory : Path} (h : directory.getLast? = some Path.slash) (name : Name) :
    Path.child directory name = directory ++ name := by
  rw [Path.child, h]
  simp

theorem child_of_no_slash {directory : Path} (hne : directory ≠ [])
    (h : directory.getLast? ≠ some Path.slash) (name : Name) :
    Path.child directory name = directory ++ Path.slash :: name := by
  rw [Path.child]
  simp [hne, h]

theorem follow_child {root : Listing} {trail trail' : List Name} {start : Entry}
    {content : Listing} {directory : Path} {name : Name} (hname : Path.slash ∉ name)
    (hne : directory ≠ [])
    (h : follow root trail start (Path.segments directory) = .ok (trail', .dir content)) :
    follow root trail start (Path.segments (Path.child directory name)) =
      follow root trail' (.dir content) [name] := by
  by_cases hlast : directory.getLast? = some Path.slash
  · rcases List.getLast?_eq_some_iff.mp hlast with ⟨front, hfront⟩
    rw [hfront, segments_append_slash, follow_append] at h
    rw [child_of_slash hlast, hfront, List.append_assoc, List.singleton_append,
      segments_append_slash, segments_of_no_slash hname, follow_append]
    cases hfollow : follow root trail start (Path.segments front) with
    | error e =>
        rw [hfollow] at h
        cases h
    | ok found =>
        rcases found with ⟨trail'', entry⟩
        rw [hfollow] at h
        cases entry with
        | file bytes => cases h
        | dir inner =>
            cases h
            rfl
  · rw [child_of_no_slash hne hlast, segments_append_slash, segments_of_no_slash hname,
      follow_append, h]
    rfl

theorem follow_name {root content : Listing} {trail : List Name} {name : Name} {entry : Entry}
    (hname : Path.IsEntryName name) (h : content.find? name = some entry) :
    follow root trail (.dir content) [name] = .ok (name :: trail, entry) := by
  rcases hname with ⟨hcomponent, _, _, hshort⟩
  rw [follow, hcomponent]
  simp only [hshort, h]
  rfl

theorem usable_child {directory : Path} {name : Name} (hdirectory : Usable directory)
    (hname : Path.IsEntryName name) (hshort : Path.isTooLong (Path.child directory name) = false) :
    Usable (Path.child directory name) := by
  rcases hdirectory with ⟨hzero, hne, _⟩
  rcases hname with ⟨_, _, hnameZero, _⟩
  by_cases hlast : directory.getLast? = some Path.slash
  · rw [child_of_slash hlast] at hshort ⊢
    refine ⟨?_, ?_, hshort⟩
    · simp [hzero, hnameZero]
    · simp [hne]
  · rw [child_of_no_slash hne hlast] at hshort ⊢
    refine ⟨?_, ?_, hshort⟩
    · simp [hzero, hnameZero, Path.slash]
    · simp [hne]

theorem startOf_child (disk : Disk) {directory : Path} (hne : directory ≠ []) (name : Name) :
    disk.startOf (Path.child directory name) = disk.startOf directory := by
  cases directory with
  | nil => exact absurd rfl hne
  | cons c rest =>
      unfold startOf Path.child
      split <;> rfl

/-- The path of an entry in a directory leads to the place of the directory and
the name after it, unless it is too long. -/
theorem locate_child {disk : Disk} {directory : Path} {place : List Name} {content : Listing}
    {name : Name} {entry : Entry}
    (h : disk.locate directory = .ok (place, .dir content)) (hname : Path.IsEntryName name)
    (hfind : content.find? name = some entry)
    (hshort : Path.isTooLong (Path.child directory name) = false) :
    disk.locate (Path.child directory name) = .ok (place ++ [name], entry) := by
  have husable := usable_of_locate h
  rcases follow_of_locate h with ⟨start, hstart, hfollow⟩
  rw [locate_of_usable disk (usable_child husable hname hshort),
    startOf_child disk husable.2.1, hstart]
  simp only
  rw [follow_child hname.2.1 husable.2.1 hfollow, follow_name hname hfind]
  simp [Except.map]

end Disk
end SourceTidy
