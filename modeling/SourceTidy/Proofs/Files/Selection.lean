import SourceTidy.Files.Walk
import SourceTidy.Proofs.Files.Tree

/-!
# The files that a walk selects

A walk goes through a tree step by step.  What it gives can be said of each file on
its own: the file is accepted and not too deep, and no directory on the way to it is
excluded.  The walk ends early only at a directory that it has to enter and whose
path is too long.
-/

namespace SourceTidy

def Path.below (directory : Path) (names : List Name) : Path :=
  names.foldl Path.child directory

theorem Path.below_cons (directory : Path) (name : Name) (names : List Name) :
    Path.below directory (name :: names) = Path.below (Path.child directory name) names :=
  rfl

namespace Exclusions

/-!
# Directories on the way
-/

def Passes (exclusions : Exclusions) (directory : Path) (names : List Name) : Prop :=
  ∀ above name below, names = above ++ name :: below →
    Text.shown name ∉ exclusions.dirs ∧
      exclusions.matchesPattern (Path.below directory (above ++ [name])) = false

/-- The names lead from a directory to a file that is selected. -/
structure Selects (exclusions : Exclusions) (depth : Nat) (directory : Path) (content : Listing)
    (names : List Name) : Prop where
  file : ∃ bytes, content.get? names = some (.file bytes)
  reached : names.length ≤ depth
  accepted : exclusions.accepts (Path.below directory names) = true
  passes : exclusions.Passes directory names.dropLast

/-- The names lead from a directory to a directory that has to be entered. -/
structure Enters (exclusions : Exclusions) (depth : Nat) (directory : Path) (content : Listing)
    (names : List Name) : Prop where
  dir : ∃ inner, content.get? names = some (.dir inner)
  reached : names.length < depth
  passes : exclusions.Passes directory names

section Steps

variable {exclusions : Exclusions} {directory : Path} {listing : Listing} {name : Name}
  {names : List Name}

theorem prunes_eq_false_iff {path : Path} :
    exclusions.prunes name path = false ↔
      Text.shown name ∉ exclusions.dirs ∧ exclusions.matchesPattern path = false := by
  rw [prunes, Bool.or_eq_false_iff, ← Bool.not_eq_true, List.contains_iff_mem]

theorem passes_nil : exclusions.Passes directory [] := by
  intro above name below h
  simp at h

theorem passes_cons_iff :
    exclusions.Passes directory (name :: names) ↔
      exclusions.prunes name (Path.child directory name) = false ∧
        exclusions.Passes (Path.child directory name) names := by
  rw [prunes_eq_false_iff]
  constructor
  · intro h
    constructor
    · exact h [] name names rfl
    · intro above other below hnames
      exact h (name :: above) other below (by rw [hnames, List.cons_append])
  · intro h above other below hnames
    cases above with
    | nil =>
        cases hnames
        exact h.1
    | cons first above =>
        cases hnames
        exact h.2 above other below rfl

theorem not_selects_nil (depth : Nat) : ¬ exclusions.Selects depth directory listing [] := by
  intro h
  rcases h.file with ⟨bytes, hfile⟩
  cases hfile

theorem selects_file {bytes : ByteArray} (levels : Nat)
    (hfind : listing.find? name = some (.file bytes)) :
    exclusions.Selects (levels + 1) directory listing (name :: names) ↔
      names = [] ∧ exclusions.accepts (Path.child directory name) = true := by
  constructor
  · intro h
    rcases h.file with ⟨other, hfile⟩
    rw [Listing.get?, hfind] at hfile
    cases names with
    | nil => exact ⟨rfl, h.accepted⟩
    | cons next rest => cases hfile
  · intro h
    rcases h with ⟨rfl, haccepts⟩
    refine ⟨⟨bytes, ?_⟩, ?_, haccepts, passes_nil⟩
    · rw [Listing.get?_singleton, hfind]
    · exact Nat.succ_le_succ (Nat.zero_le levels)

theorem selects_dir {content : Listing} (levels : Nat)
    (hfind : listing.find? name = some (.dir content)) :
    exclusions.Selects (levels + 1) directory listing (name :: names) ↔
      exclusions.prunes name (Path.child directory name) = false ∧
        exclusions.Selects levels (Path.child directory name) content names := by
  have hget : listing.get? (name :: names) = content.get? names := by
    rw [Listing.get?, hfind]
  cases names with
  | nil =>
      constructor
      · intro h
        rcases h.file with ⟨bytes, hfile⟩
        rw [hget] at hfile
        cases hfile
      · intro h
        exact absurd h.2 (not_selects_nil levels)
  | cons next rest =>
      have hpasses : exclusions.Passes directory (name :: next :: rest).dropLast ↔ _ :=
        passes_cons_iff
      constructor
      · intro h
        rcases hpasses.mp h.passes with ⟨hname, hrest⟩
        refine ⟨hname, ?_, Nat.le_of_succ_le_succ h.reached, h.accepted, hrest⟩
        rw [← hget]
        exact h.file
      · intro h
        rcases h with ⟨hname, hselects⟩
        refine ⟨?_, Nat.succ_le_succ hselects.reached, hselects.accepted,
          hpasses.mpr ⟨hname, hselects.passes⟩⟩
        rw [hget]
        exact hselects.file

theorem not_selects_of_find?_none {depth : Nat} (hfind : listing.find? name = none) :
    ¬ exclusions.Selects depth directory listing (name :: names) := by
  intro h
  rcases h.file with ⟨bytes, hfile⟩
  rw [Listing.get?, hfind] at hfile
  cases hfile

theorem selects_congr {other : Listing} (levels : Nat)
    (hfind : listing.find? name = other.find? name) :
    exclusions.Selects (levels + 1) directory listing (name :: names) ↔
      exclusions.Selects (levels + 1) directory other (name :: names) := by
  cases hother : other.find? name with
  | none =>
      rw [hother] at hfind
      exact iff_of_false (not_selects_of_find?_none hfind) (not_selects_of_find?_none hother)
  | some entry =>
      rw [hother] at hfind
      cases entry with
      | file bytes => rw [selects_file levels hfind, selects_file levels hother]
      | dir content => rw [selects_dir levels hfind, selects_dir levels hother]

theorem enters_nil (levels : Nat) : exclusions.Enters (levels + 1) directory listing [] where
  dir := ⟨listing, rfl⟩
  reached := Nat.succ_pos levels
  passes := passes_nil

theorem Enters.cons {content : Listing} {depth : Nat}
    (hfind : listing.find? name = some (.dir content))
    (hname : exclusions.prunes name (Path.child directory name) = false)
    (h : exclusions.Enters depth (Path.child directory name) content names) :
    exclusions.Enters (depth + 1) directory listing (name :: names) where
  dir := by
    rw [Listing.get?, hfind]
    exact h.dir
  reached := Nat.succ_lt_succ h.reached
  passes := passes_cons_iff.mpr ⟨hname, h.passes⟩

theorem Enters.of_cons {content : Listing} {depth : Nat}
    (hfind : listing.find? name = some (.dir content))
    (h : exclusions.Enters (depth + 1) directory listing (name :: names)) :
    exclusions.prunes name (Path.child directory name) = false ∧
      exclusions.Enters depth (Path.child directory name) content names := by
  rcases passes_cons_iff.mp h.passes with ⟨hname, hrest⟩
  have hdir := h.dir
  rw [Listing.get?, hfind] at hdir
  exact ⟨hname, hdir, Nat.lt_of_succ_lt_succ h.reached, hrest⟩

theorem Enters.exists_find? {depth : Nat}
    (h : exclusions.Enters depth directory listing (name :: names)) :
    ∃ content, listing.find? name = some (.dir content) := by
  rcases h.dir with ⟨inner, hinner⟩
  rw [Listing.get?] at hinner
  cases hfind : listing.find? name with
  | none =>
      rw [hfind] at hinner
      cases hinner
  | some entry =>
      rw [hfind] at hinner
      cases entry with
      | file bytes =>
          cases names with
          | nil => cases hinner
          | cons _ _ => cases hinner
      | dir content => exact ⟨content, rfl⟩

theorem enters_congr {other : Listing} {depth : Nat}
    (hfind : listing.find? name = other.find? name)
    (h : exclusions.Enters depth directory listing (name :: names)) :
    exclusions.Enters depth directory other (name :: names) where
  dir := by
    have hdir := h.dir
    rw [Listing.get?, hfind] at hdir
    rw [Listing.get?]
    exact hdir
  reached := h.reached
  passes := h.passes

end Steps

end Exclusions

namespace Listing

/-!
# The selected files in the order of the walk
-/

section Selected

variable {exclusions : Exclusions} {levels : Nat} {directory : Path} {name : Name}
  {names : List Name}

/-- The names that lead to the files which a walk through a listing gives, if it does
not end early. -/
def selected (exclusions : Exclusions) (levels : Nat) (directory : Path) :
    Listing → List (List Name)
  | .empty => []
  | .file name _ rest =>
      (if exclusions.accepts (Path.child directory name) then [[name]] else []) ++
        rest.selected exclusions levels directory
  | .dir name content rest =>
      (if exclusions.prunes name (Path.child directory name) || levels == 0 then []
        else (content.selected exclusions (levels - 1) (Path.child directory name)).map
          (name :: ·)) ++
        rest.selected exclusions levels directory

theorem mem_selected_file {bytes : ByteArray} {rest : Listing} :
    names ∈ (Listing.file name bytes rest).selected exclusions levels directory ↔
      names = [name] ∧ exclusions.accepts (Path.child directory name) = true ∨
        names ∈ rest.selected exclusions levels directory := by
  rw [selected, List.mem_append]
  apply or_congr_left
  split
  · next haccepts => simp [haccepts]
  · next haccepts => simp [haccepts]

theorem mem_selected_dir {content rest : Listing} :
    names ∈ (Listing.dir name content rest).selected exclusions levels directory ↔
      (exclusions.prunes name (Path.child directory name) = false ∧ levels ≠ 0 ∧
        ∃ inner ∈ content.selected exclusions (levels - 1) (Path.child directory name),
          names = name :: inner) ∨
        names ∈ rest.selected exclusions levels directory := by
  rw [selected, List.mem_append]
  apply or_congr_left
  split
  · next hskip =>
      rw [Bool.or_eq_true, beq_iff_eq] at hskip
      constructor
      · intro h
        cases h
      · intro h
        rcases h with ⟨hname, hlevels, _⟩
        rcases hskip with hprunes | hzero
        · rw [hname] at hprunes
          cases hprunes
        · exact absurd hzero hlevels
  · next hskip =>
      rw [Bool.or_eq_true, beq_iff_eq, not_or, Bool.not_eq_true] at hskip
      constructor
      · intro h
        rcases List.mem_map.mp h with ⟨inner, hinner, rfl⟩
        exact ⟨hskip.1, hskip.2, inner, hinner, rfl⟩
      · intro h
        rcases h with ⟨_, _, inner, hinner, rfl⟩
        exact List.mem_map.mpr ⟨inner, hinner, rfl⟩

theorem ne_of_mem_names {rest : Listing} {other : Name} (hname : ∀ other ∈ rest.names, name < other)
    (h : other ∈ rest.names) : other ≠ name := by
  intro heq
  have hlt := hname other h
  rw [heq] at hlt
  exact List.lt_irrefl name hlt

theorem find?_eq_none_of_below {rest : Listing} (hname : ∀ other ∈ rest.names, name < other) :
    rest.find? name = none := by
  cases hfind : rest.find? name with
  | none => rfl
  | some entry => exact absurd rfl (ne_of_mem_names hname (mem_names_of_find? hfind))

/-- The walk gives exactly the selected files. -/
theorem mem_selected_iff {listing : Listing} (hlisting : listing.WellFormed) :
    names ∈ listing.selected exclusions levels directory ↔
      exclusions.Selects (levels + 1) directory listing names := by
  induction listing generalizing levels directory names with
  | empty =>
      refine iff_of_false List.not_mem_nil ?_
      cases names with
      | nil => exact Exclusions.not_selects_nil _
      | cons first others => exact Exclusions.not_selects_of_find?_none rfl
  | file name bytes rest ih =>
      rcases hlisting with ⟨_, hbelow, hrest⟩
      rw [mem_selected_file, ih hrest]
      cases names with
      | nil => simp [Exclusions.not_selects_nil]
      | cons first others =>
          by_cases hfirst : first = name
          · subst hfirst
            have hhere : (Listing.file first bytes rest).find? first = some (.file bytes) :=
              if_pos rfl
            have hnot : ¬ exclusions.Selects (levels + 1) directory rest (first :: others) :=
              Exclusions.not_selects_of_find?_none (find?_eq_none_of_below hbelow)
            rw [Exclusions.selects_file levels hhere, or_iff_left hnot]
            simp
          · have hrest : (Listing.file name bytes rest).find? first = rest.find? first :=
              if_neg hfirst
            rw [Exclusions.selects_congr levels hrest, or_iff_right]
            intro h
            exact hfirst (List.cons.inj h.1).1
  | dir name content rest ihContent ih =>
      rcases hlisting with ⟨_, hbelow, hcontent, hrest⟩
      rw [mem_selected_dir, ih hrest]
      cases names with
      | nil => simp [Exclusions.not_selects_nil]
      | cons first others =>
          by_cases hfirst : first = name
          · subst hfirst
            have hhere : (Listing.dir first content rest).find? first = some (.dir content) :=
              if_pos rfl
            have hnot : ¬ exclusions.Selects (levels + 1) directory rest (first :: others) :=
              Exclusions.not_selects_of_find?_none (find?_eq_none_of_below hbelow)
            rw [Exclusions.selects_dir levels hhere, or_iff_left hnot]
            apply and_congr_right
            intro _
            cases levels with
            | zero =>
                -- Nothing can be reached below a directory on the last level.
                refine iff_of_false ?_ ?_
                · intro h
                  exact h.1 rfl
                · intro h
                  have hempty := List.length_eq_zero_iff.mp (Nat.le_zero.mp h.reached)
                  rw [hempty] at h
                  exact Exclusions.not_selects_nil 0 h
            | succ levels =>
                rw [← ihContent hcontent]
                simp
          · have hrest : (Listing.dir name content rest).find? first = rest.find? first :=
              if_neg hfirst
            rw [Exclusions.selects_congr levels hrest, or_iff_right]
            intro h
            rcases h with ⟨_, _, inner, _, heq⟩
            exact hfirst (List.cons.inj heq).1

theorem exists_cons_of_selects {listing : Listing} {depth : Nat}
    (h : exclusions.Selects depth directory listing names) :
    ∃ name rest, names = name :: rest ∧ name ∈ listing.names := by
  cases names with
  | nil => exact absurd h (Exclusions.not_selects_nil depth)
  | cons name rest =>
      refine ⟨name, rest, rfl, ?_⟩
      cases hfind : listing.find? name with
      | none => exact absurd h (Exclusions.not_selects_of_find?_none hfind)
      | some entry => exact mem_names_of_find? hfind

/-- What begins with the name of the first entry goes before what is selected from the
others. -/
theorem pairwise_append_selected {rest : Listing} (inner : List (List Name))
    (hname : ∀ other ∈ rest.names, name < other) (hwellFormed : rest.WellFormed)
    (hinner : inner.Pairwise (· < ·))
    (hrest : (rest.selected exclusions levels directory).Pairwise (· < ·)) :
    (inner.map (name :: ·) ++ rest.selected exclusions levels directory).Pairwise (· < ·) := by
  rw [List.pairwise_append, List.pairwise_map]
  refine ⟨?_, hrest, ?_⟩
  · apply hinner.imp
    intro a b hab
    exact List.cons_lt_cons_self.mpr hab
  · intro a ha b hb
    rcases List.mem_map.mp ha with ⟨tail, _, rfl⟩
    rcases exists_cons_of_selects ((mem_selected_iff hwellFormed).mp hb) with
      ⟨first, others, rfl, hfirst⟩
    exact List.Lex.rel (hname first hfirst)

theorem pairwise_selected {listing : Listing} (hlisting : listing.WellFormed) :
    (listing.selected exclusions levels directory).Pairwise (· < ·) := by
  induction listing generalizing levels directory with
  | empty => exact List.Pairwise.nil
  | file name bytes rest ih =>
      rcases hlisting with ⟨_, hbelow, hrest⟩
      rw [selected]
      split
      · exact pairwise_append_selected [[]] hbelow hrest (List.pairwise_singleton _ _) (ih hrest)
      · exact ih hrest
  | dir name content rest ihContent ih =>
      rcases hlisting with ⟨_, hbelow, hcontent, hrest⟩
      rw [selected]
      split
      · exact ih hrest
      · exact pairwise_append_selected _ hbelow hrest (ihContent hcontent) (ih hrest)

end Selected

/-!
# The walk itself
-/

section Walk

variable {exclusions : Exclusions} {levels : Nat} {directory : Path} {name : Name}

theorem accepted_file {content : ByteArray} {rest : Listing} :
    (Listing.file name content rest).accepted exclusions levels directory =
      (rest.accepted exclusions levels directory).map fun others =>
        if exclusions.accepts (Path.child directory name) then
          Path.child directory name :: others else others :=
  rfl

theorem accepted_dir_of_skip {content rest : Listing}
    (h : (exclusions.prunes name (Path.child directory name) || levels == 0) = true) :
    (Listing.dir name content rest).accepted exclusions levels directory =
      rest.accepted exclusions levels directory := by
  rw [accepted]
  exact if_pos h

theorem accepted_dir_of_tooLong {content rest : Listing}
    (h : ¬ (exclusions.prunes name (Path.child directory name) || levels == 0) = true)
    (hlong : Path.isTooLong (Path.child directory name) = true) :
    (Listing.dir name content rest).accepted exclusions levels directory =
      .error (Path.child directory name) := by
  rw [accepted]
  exact (if_neg h).trans (if_pos hlong)

theorem accepted_dir_of_enter {content rest : Listing}
    (h : ¬ (exclusions.prunes name (Path.child directory name) || levels == 0) = true)
    (hlong : ¬ Path.isTooLong (Path.child directory name) = true) :
    (Listing.dir name content rest).accepted exclusions levels directory =
      (content.accepted exclusions (levels - 1) (Path.child directory name)).bind fun inner =>
        (rest.accepted exclusions levels directory).map fun others => inner ++ others := by
  rw [accepted]
  refine (if_neg h).trans ((if_neg hlong).trans ?_)
  cases content.accepted exclusions (levels - 1) (Path.child directory name) <;> rfl

theorem accepted_dir_eq_ok {content rest : Listing} {paths : List Path}
    (h : (Listing.dir name content rest).accepted exclusions levels directory = .ok paths) :
    ∃ inner others, rest.accepted exclusions levels directory = .ok others ∧
      paths = inner ++ others ∧
      ((exclusions.prunes name (Path.child directory name) || levels == 0) = true ∧ inner = [] ∨
        ¬ (exclusions.prunes name (Path.child directory name) || levels == 0) = true ∧
          ¬ Path.isTooLong (Path.child directory name) = true ∧
          content.accepted exclusions (levels - 1) (Path.child directory name) = .ok inner) := by
  by_cases hskip : (exclusions.prunes name (Path.child directory name) || levels == 0) = true
  · rw [accepted_dir_of_skip hskip] at h
    exact ⟨[], paths, h, rfl, Or.inl ⟨hskip, rfl⟩⟩
  · by_cases hlong : Path.isTooLong (Path.child directory name) = true
    · rw [accepted_dir_of_tooLong hskip hlong] at h
      cases h
    · rw [accepted_dir_of_enter hskip hlong] at h
      cases hinner : content.accepted exclusions (levels - 1) (Path.child directory name) with
      | error e =>
          rw [hinner] at h
          cases h
      | ok inner =>
          rw [hinner] at h
          cases hrest : rest.accepted exclusions levels directory with
          | error e =>
              rw [hrest] at h
              cases h
          | ok others =>
              rw [hrest] at h
              cases h
              exact ⟨inner, others, rfl, rfl, Or.inr ⟨hskip, hlong, rfl⟩⟩

/-- A walk that goes to its end gives the paths of the selected files. -/
theorem eq_map_selected_of_accepted {listing : Listing} {paths : List Path}
    (h : listing.accepted exclusions levels directory = .ok paths) :
    paths = (listing.selected exclusions levels directory).map (Path.below directory) := by
  induction listing generalizing levels directory paths with
  | empty =>
      cases h
      rfl
  | file name bytes rest ih =>
      rw [accepted_file] at h
      rw [selected]
      cases hrest : rest.accepted exclusions levels directory with
      | error e =>
          rw [hrest] at h
          cases h
      | ok others =>
          rw [hrest] at h
          cases h
          rw [ih hrest]
          split <;> rfl
  | dir name content rest ihContent ih =>
      rcases accepted_dir_eq_ok h with
        ⟨inner, others, hrest, rfl, ⟨hskip, rfl⟩ | ⟨hskip, _, hinner⟩⟩
      · rw [selected, if_pos hskip, List.nil_append, List.nil_append, ih hrest]
      · rw [selected, if_neg hskip, List.map_append, List.map_map, ← ih hrest, ihContent hinner]
        rfl

theorem enters_of_rest {rest : Listing} {depth : Nat} {names : List Name} (entry : Entry)
    (hname : ∀ other ∈ rest.names, name < other)
    (h : exclusions.Enters depth directory rest names) :
    exclusions.Enters depth directory (cons name entry rest) names := by
  cases names with
  | nil => exact ⟨⟨_, rfl⟩, h.reached, h.passes⟩
  | cons first others =>
      rcases h.exists_find? with ⟨content, hfind⟩
      have hne := ne_of_mem_names hname (mem_names_of_find? hfind)
      apply Exclusions.enters_congr _ h
      rw [find?_cons, if_neg hne]

/-- A walk that ends early does so at a directory that it has to enter. -/
theorem exists_enters_of_accepted {listing : Listing} (hlisting : listing.WellFormed)
    {path : Path} (h : listing.accepted exclusions levels directory = .error path) :
    ∃ names, exclusions.Enters (levels + 1) directory listing names ∧
      path = Path.below directory names ∧ Path.isTooLong path = true := by
  induction listing generalizing levels directory path with
  | empty => cases h
  | file name bytes rest ih =>
      rcases hlisting with ⟨_, hbelow, hrest⟩
      rw [accepted_file] at h
      cases haccepted : rest.accepted exclusions levels directory with
      | ok others =>
          rw [haccepted] at h
          cases h
      | error e =>
          rw [haccepted] at h
          cases h
          rcases ih hrest haccepted with ⟨names, henters, hpath⟩
          exact ⟨names, enters_of_rest (.file bytes) hbelow henters, hpath⟩
  | dir name content rest ihContent ih =>
      rcases hlisting with ⟨_, hbelow, hcontent, hrest⟩
      have hothers : rest.accepted exclusions levels directory = .error path →
          ∃ names, exclusions.Enters (levels + 1) directory (.dir name content rest) names ∧
            path = Path.below directory names ∧ Path.isTooLong path = true := by
        intro haccepted
        rcases ih hrest haccepted with ⟨names, henters, hpath⟩
        exact ⟨names, enters_of_rest (.dir content) hbelow henters, hpath⟩
      by_cases hskip : (exclusions.prunes name (Path.child directory name) || levels == 0) = true
      · rw [accepted_dir_of_skip hskip] at h
        exact hothers h
      · have hopen := hskip
        rw [Bool.or_eq_true, beq_iff_eq, not_or, Bool.not_eq_true] at hopen
        rcases Nat.exists_eq_succ_of_ne_zero hopen.2 with ⟨fewer, rfl⟩
        have hfind : (Listing.dir name content rest).find? name = some (.dir content) :=
          if_pos rfl
        by_cases hlong : Path.isTooLong (Path.child directory name) = true
        · rw [accepted_dir_of_tooLong hskip hlong] at h
          cases h
          refine ⟨[name], ?_, rfl, hlong⟩
          exact Exclusions.Enters.cons hfind hopen.1 (Exclusions.enters_nil fewer)
        · rw [accepted_dir_of_enter hskip hlong] at h
          cases hinner :
              content.accepted exclusions (fewer + 1 - 1) (Path.child directory name) with
          | error e =>
              rw [hinner] at h
              cases h
              rcases ihContent hcontent hinner with ⟨names, henters, hpath, htooLong⟩
              exact ⟨name :: names, Exclusions.Enters.cons hfind hopen.1 henters, hpath, htooLong⟩
          | ok inner =>
              rw [hinner] at h
              cases haccepted : rest.accepted exclusions (fewer + 1) directory with
              | ok others =>
                  rw [haccepted] at h
                  cases h
              | error e =>
                  rw [haccepted] at h
                  cases h
                  exact hothers haccepted

/-- A walk that goes to its end has met no directory that it could not enter. -/
theorem isTooLong_of_enters {listing : Listing} {paths : List Path} {names : List Name}
    (h : listing.accepted exclusions levels directory = .ok paths)
    (hdirectory : Path.isTooLong directory = false)
    (henters : exclusions.Enters (levels + 1) directory listing names) :
    Path.isTooLong (Path.below directory names) = false := by
  induction listing generalizing levels directory paths names with
  | empty =>
      cases names with
      | nil => exact hdirectory
      | cons first others =>
          rcases henters.exists_find? with ⟨content, hfind⟩
          cases hfind
  | file name bytes rest ih =>
      cases names with
      | nil => exact hdirectory
      | cons first others =>
          rcases henters.exists_find? with ⟨content, hfind⟩
          rw [find?] at hfind
          split at hfind
          · cases hfind
          · next hfirst =>
              rw [accepted_file] at h
              cases haccepted : rest.accepted exclusions levels directory with
              | error e =>
                  rw [haccepted] at h
                  cases h
              | ok found =>
                  have hothers : (Listing.file name bytes rest).find? first = rest.find? first :=
                    if_neg hfirst
                  exact ih haccepted hdirectory (Exclusions.enters_congr hothers henters)
  | dir name content rest ihContent ih =>
      cases names with
      | nil => exact hdirectory
      | cons first others =>
          rcases accepted_dir_eq_ok h with ⟨inner, found, hrest, _, hdir⟩
          by_cases hfirst : first = name
          · subst hfirst
            have hhere : (Listing.dir first content rest).find? first = some (.dir content) :=
              if_pos rfl
            rcases Exclusions.Enters.of_cons hhere henters with ⟨hname, hothers⟩
            have hlevels : levels ≠ 0 := Nat.ne_zero_of_lt hothers.reached
            rcases Nat.exists_eq_succ_of_ne_zero hlevels with ⟨fewer, rfl⟩
            rcases hdir with ⟨hskip, _⟩ | ⟨_, hlong, hinner⟩
            · rw [hname] at hskip
              cases hskip
            · rw [Bool.not_eq_true] at hlong
              rw [Path.below_cons]
              exact ihContent hinner hlong hothers
          · have hothers : (Listing.dir name content rest).find? first = rest.find? first :=
              if_neg hfirst
            exact ih hrest hdirectory (Exclusions.enters_congr hothers henters)

end Walk

end Listing
end SourceTidy
