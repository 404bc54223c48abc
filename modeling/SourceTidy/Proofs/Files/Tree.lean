import SourceTidy.Files.Listing
import SourceTidy.Files.Path

/-!
# Directory trees as maps

A directory tree stands for a finite map from places to contents.  This needs
that no directory lists a name twice, which is the case when its names increase,
and that every name is one that a path can spell.  Under these conditions writing
a file that is there already changes the content at its place and nothing else.
-/

namespace SourceTidy

/-!
# Names of entries
-/

namespace Path

/-- The names that an entry of a directory can have. -/
def IsEntryName (name : Name) : Prop :=
  componentOf? name = some (.name name) ∧ Path.slash ∉ name ∧ 0 ∉ name ∧
    isOverlongName name = false

instance (name : Name) : Decidable (IsEntryName name) :=
  inferInstanceAs (Decidable (_ ∧ _))

end Path

namespace Listing

/-!
# Entries in front of others

Files and directories differ only in what stands at their place.  The equations
below treat a first entry of either kind alike, and so does the induction.
-/

theorem consInduction {motive : Listing → Prop}
    (empty : motive .empty)
    (cons : ∀ name entry rest, (∀ content, entry = .dir content → motive content) →
      motive rest → motive (.cons name entry rest))
    (listing : Listing) : motive listing := by
  induction listing with
  | empty => exact empty
  | file name content rest ih =>
      apply cons name (.file content) rest _ ih
      intro other hother
      cases hother
  | dir name content rest ihContent ih =>
      apply cons name (.dir content) rest _ ih
      intro other hother
      injection hother with hcontent
      rw [← hcontent]
      exact ihContent

@[simp] theorem find?_cons (name other : Name) (entry : Entry) (rest : Listing) :
    (cons name entry rest).find? other =
      if other = name then some entry else rest.find? other := by
  cases entry <;> rfl

theorem set_cons (name other : Name) (entry new : Entry) (rest : Listing) :
    (cons name entry rest).set other new =
      if other = name then cons other new rest
      else if other < name then cons other new (cons name entry rest)
      else cons name entry (rest.set other new) := by
  cases entry <;> rfl

def names : Listing → List Name
  | .empty => []
  | .file name _ rest => name :: rest.names
  | .dir name _ rest => name :: rest.names

@[simp] theorem names_cons (name : Name) (entry : Entry) (rest : Listing) :
    (cons name entry rest).names = name :: rest.names := by
  cases entry <;> rfl

/-!
# Well-formed listings
-/

/-- The names in a listing and in all directories below it increase and can be
spelled in a path. -/
def WellFormed : Listing → Prop
  | .empty => True
  | .file name _ rest =>
      Path.IsEntryName name ∧ (∀ other ∈ rest.names, name < other) ∧ rest.WellFormed
  | .dir name content rest =>
      Path.IsEntryName name ∧ (∀ other ∈ rest.names, name < other) ∧
        content.WellFormed ∧ rest.WellFormed

def decideWellFormed : (listing : Listing) → Decidable listing.WellFormed
  | .empty => isTrue trivial
  | .file name _ rest =>
      haveI := decideWellFormed rest
      inferInstanceAs (Decidable (Path.IsEntryName name ∧ _ ∧ _))
  | .dir name content rest =>
      haveI := decideWellFormed content
      haveI := decideWellFormed rest
      inferInstanceAs (Decidable (Path.IsEntryName name ∧ _ ∧ _ ∧ _))

instance (listing : Listing) : Decidable listing.WellFormed :=
  decideWellFormed listing

end Listing

def Entry.WellFormed : Entry → Prop
  | .file _ => True
  | .dir content => content.WellFormed

namespace Listing

theorem wellFormed_cons {name : Name} {entry : Entry} {rest : Listing} :
    (cons name entry rest).WellFormed ↔
      Path.IsEntryName name ∧ (∀ other ∈ rest.names, name < other) ∧
        entry.WellFormed ∧ rest.WellFormed := by
  cases entry with
  | file content =>
      constructor
      · intro h
        exact ⟨h.1, h.2.1, trivial, h.2.2⟩
      · intro h
        exact ⟨h.1, h.2.1, h.2.2.2⟩
  | dir content => exact Iff.rfl

theorem mem_names_of_find? {listing : Listing} {name : Name} {entry : Entry}
    (h : listing.find? name = some entry) : name ∈ listing.names := by
  induction listing using consInduction with
  | empty => cases h
  | cons other first rest _ ih =>
      rw [find?_cons] at h
      rw [names_cons]
      by_cases hname : name = other
      · rw [hname]
        exact List.mem_cons_self
      · rw [if_neg hname] at h
        exact List.mem_cons_of_mem other (ih h)

theorem wellFormed_of_find? {listing : Listing} {name : Name} {entry : Entry}
    (hlisting : listing.WellFormed) (h : listing.find? name = some entry) :
    Path.IsEntryName name ∧ entry.WellFormed := by
  induction listing using consInduction with
  | empty => cases h
  | cons other first rest _ ih =>
      rcases wellFormed_cons.mp hlisting with ⟨hother, _, hfirst, hrest⟩
      rw [find?_cons] at h
      by_cases hname : name = other
      · rw [if_pos hname] at h
        cases h
        exact ⟨hname ▸ hother, hfirst⟩
      · rw [if_neg hname] at h
        exact ih hrest h

theorem get?_singleton (listing : Listing) (name : Name) :
    listing.get? [name] = listing.find? name := by
  rw [get?]
  cases listing.find? name with
  | none => rfl
  | some entry => cases entry <;> rfl

theorem get?_append {listing content : Listing} {place names : List Name}
    (h : listing.get? place = some (.dir content)) :
    listing.get? (place ++ names) = content.get? names := by
  induction place generalizing listing with
  | nil =>
      rw [get?] at h
      injection h with h
      injection h with h
      rw [List.nil_append, h]
  | cons name place ih =>
      rw [get?] at h
      rw [List.cons_append, get?]
      cases hfind : listing.find? name with
      | none =>
          rw [hfind] at h
          cases h
      | some entry =>
          rw [hfind] at h
          cases entry with
          | file bytes =>
              cases place with
              | nil => cases h
              | cons _ _ => cases h
          | dir inner => exact ih h

theorem wellFormed_along_get? {listing : Listing} {place : List Name} {entry : Entry}
    (hlisting : listing.WellFormed) (h : listing.get? place = some entry) :
    (∀ name ∈ place, Path.IsEntryName name) ∧ entry.WellFormed := by
  induction place generalizing listing with
  | nil =>
      cases h
      exact ⟨fun _ hname => absurd hname List.not_mem_nil, hlisting⟩
  | cons name place ih =>
      rw [get?] at h
      cases hfind : listing.find? name with
      | none =>
          rw [hfind] at h
          cases h
      | some found =>
          rcases wellFormed_of_find? hlisting hfind with ⟨hname, hfound⟩
          rw [hfind] at h
          rw [List.forall_mem_cons]
          cases found with
          | dir content =>
              rcases ih hfound h with ⟨hplace, hentry⟩
              exact ⟨⟨hname, hplace⟩, hentry⟩
          | file bytes =>
              cases place with
              | nil =>
                  cases h
                  exact ⟨⟨hname, fun _ hmem => absurd hmem List.not_mem_nil⟩, trivial⟩
              | cons _ _ => cases h

theorem wellFormed_of_get? {listing : Listing} {place : List Name} {entry : Entry}
    (hlisting : listing.WellFormed) (h : listing.get? place = some entry) :
    entry.WellFormed :=
  (wellFormed_along_get? hlisting h).2

/-!
# Changing contents in place
-/

/-- Replace the content of every file, depending on the names that lead to it. -/
def mapFiles (f : List Name → ByteArray → ByteArray) : Listing → Listing
  | .empty => .empty
  | .file name content rest => .file name (f [name] content) (rest.mapFiles f)
  | .dir name content rest =>
      .dir name (content.mapFiles fun names => f (name :: names)) (rest.mapFiles f)

end Listing

def Entry.mapFiles (f : List Name → ByteArray → ByteArray) (place : List Name) : Entry → Entry
  | .file content => .file (f place content)
  | .dir content => .dir (content.mapFiles fun names => f (place ++ names))

namespace Listing

theorem mapFiles_cons (f : List Name → ByteArray → ByteArray) (name : Name) (entry : Entry)
    (rest : Listing) :
    (cons name entry rest).mapFiles f = cons name (entry.mapFiles f [name]) (rest.mapFiles f) := by
  cases entry <;> rfl

@[simp] theorem names_mapFiles (f : List Name → ByteArray → ByteArray) (listing : Listing) :
    (listing.mapFiles f).names = listing.names := by
  induction listing using consInduction with
  | empty => rfl
  | cons name entry rest _ ih => rw [mapFiles_cons, names_cons, names_cons, ih]

theorem find?_mapFiles (f : List Name → ByteArray → ByteArray) (listing : Listing)
    (name : Name) :
    (listing.mapFiles f).find? name = (listing.find? name).map (Entry.mapFiles f [name]) := by
  induction listing using consInduction with
  | empty => rfl
  | cons other entry rest _ ih =>
      rw [mapFiles_cons, find?_cons, find?_cons]
      by_cases hname : name = other
      · rw [if_pos hname, if_pos hname, hname]
        rfl
      · rw [if_neg hname, if_neg hname]
        exact ih

theorem get?_mapFiles (f : List Name → ByteArray → ByteArray) (listing : Listing)
    (place : List Name) :
    (listing.mapFiles f).get? place = (listing.get? place).map (Entry.mapFiles f place) := by
  induction place generalizing listing f with
  | nil => rfl
  | cons name place ih =>
      rw [get?, get?, find?_mapFiles]
      cases listing.find? name with
      | none => rfl
      | some entry =>
          cases entry with
          | dir content => exact ih _ content
          | file bytes =>
              cases place with
              | nil => rfl
              | cons _ _ => rfl

theorem mapFiles_mapFiles (f g : List Name → ByteArray → ByteArray) (listing : Listing) :
    (listing.mapFiles f).mapFiles g =
      listing.mapFiles fun place content => g place (f place content) := by
  induction listing generalizing f g with
  | empty => rfl
  | file name content rest ih => simp only [mapFiles, ih]
  | dir name content rest ihContent ih => simp only [mapFiles, ihContent, ih]

theorem mapFiles_eq_self {f : List Name → ByteArray → ByteArray} {listing : Listing}
    (h : ∀ name ∈ listing.names, ∀ names content, f (name :: names) content = content) :
    listing.mapFiles f = listing := by
  induction listing generalizing f with
  | empty => rfl
  | file name content rest ih =>
      have hrest : rest.mapFiles f = rest := by
        apply ih
        intro other hother
        exact h other (List.mem_cons_of_mem name hother)
      rw [mapFiles, hrest, h name List.mem_cons_self]
  | dir name content rest ihContent ih =>
      have hrest : rest.mapFiles f = rest := by
        apply ih
        intro other hother
        exact h other (List.mem_cons_of_mem name hother)
      have hcontent : content.mapFiles (fun names => f (name :: names)) = content := by
        apply ihContent
        intro other _ names bytes
        exact h name List.mem_cons_self (other :: names) bytes
      rw [mapFiles, hrest, hcontent]

theorem wellFormed_mapFiles {f : List Name → ByteArray → ByteArray} {listing : Listing}
    (h : listing.WellFormed) : (listing.mapFiles f).WellFormed := by
  induction listing generalizing f with
  | empty => exact h
  | file name content rest ih =>
      rcases h with ⟨hname, hbelow, hrest⟩
      refine ⟨hname, ?_, ih hrest⟩
      rw [names_mapFiles]
      exact hbelow
  | dir name content rest ihContent ih =>
      rcases h with ⟨hname, hbelow, hcontent, hrest⟩
      refine ⟨hname, ?_, ihContent hcontent, ih hrest⟩
      rw [names_mapFiles]
      exact hbelow

/-!
# Writing a file that is there

Setting the entry of a name that a well-formed listing has replaces that entry
and keeps the order of the others.
-/

theorem set_eq_mapFiles {f : List Name → ByteArray → ByteArray} {listing : Listing}
    {name : Name} {old : Entry} (hlisting : listing.WellFormed)
    (hfind : listing.find? name = some old)
    (hother : ∀ other, other ≠ name → ∀ names content, f (other :: names) content = content) :
    listing.set name (old.mapFiles f [name]) = listing.mapFiles f := by
  induction listing using consInduction with
  | empty => cases hfind
  | cons first entry rest _ ih =>
      rcases wellFormed_cons.mp hlisting with ⟨_, hbelow, _, hrest⟩
      rw [find?_cons] at hfind
      rw [set_cons, mapFiles_cons]
      by_cases hname : name = first
      · rw [if_pos hname] at hfind
        cases hfind
        have hkeep : rest.mapFiles f = rest := by
          apply mapFiles_eq_self
          intro other hmem
          apply hother
          intro heq
          have hlt := hbelow other hmem
          rw [heq, hname] at hlt
          exact List.lt_irrefl first hlt
        rw [if_pos hname, hkeep, hname]
      · rw [if_neg hname] at hfind
        have hlt : first < name := hbelow name (mem_names_of_find? hfind)
        have hentry : entry.mapFiles f [first] = entry := by
          have hfirst := hother first (Ne.symm hname)
          cases entry with
          | file content => rw [Entry.mapFiles, hfirst]
          | dir content =>
              rw [Entry.mapFiles, mapFiles_eq_self]
              intro other _ names bytes
              exact hfirst (other :: names) bytes
        rw [if_neg hname, if_neg (List.lt_asymm hlt), ih hrest hfind, hentry]

def overwrite (contents : List (List Name × ByteArray)) (listing : Listing) : Listing :=
  listing.mapFiles fun place old => (contents.lookup place).getD old

theorem set_eq_overwrite {listing : Listing} {name : Name} {place : List Name}
    {old : Entry} {new : ByteArray} (hlisting : listing.WellFormed)
    (hfind : listing.find? name = some old) :
    listing.set name
        (old.mapFiles (fun p content => ([(name :: place, new)].lookup p).getD content) [name]) =
      listing.overwrite [(name :: place, new)] := by
  apply set_eq_mapFiles hlisting hfind
  intro other hne names content
  have hlookup : (other :: names == name :: place) = false := by
    simp [hne]
  rw [List.lookup_cons, hlookup]
  rfl

theorem putFile_eq_overwrite {listing : Listing} {place : List Name} {old : ByteArray}
    (hlisting : listing.WellFormed) (hget : listing.get? place = some (.file old))
    (new : ByteArray) :
    listing.putFile new place = listing.overwrite [(place, new)] := by
  induction place generalizing listing with
  | nil => cases hget
  | cons name place ih =>
      cases place with
      | nil =>
          rw [get?_singleton] at hget
          rw [← set_eq_overwrite hlisting hget, putFile]
          simp [Entry.mapFiles]
      | cons next rest =>
          rw [get?] at hget
          cases hfind : listing.find? name with
          | none =>
              rw [hfind] at hget
              cases hget
          | some entry =>
              rw [hfind] at hget
              cases entry with
              | file bytes => cases hget
              | dir inner =>
                  have hinner := (wellFormed_of_find? hlisting hfind).2
                  have hsub : listing.subdirectory name = inner := by
                    rw [subdirectory, hfind]
                  rw [← set_eq_overwrite hlisting hfind, putFile, hsub, ih hinner hget]
                  · simp [Entry.mapFiles, overwrite, List.lookup_cons]
                  · intro h
                    cases h

theorem overwrite_nil (listing : Listing) : listing.overwrite [] = listing := by
  apply mapFiles_eq_self
  intro name _ names content
  rfl

/-- Of two contents for one place the one that is written later stays. -/
theorem overwrite_overwrite (first second : List (List Name × ByteArray)) (listing : Listing) :
    (listing.overwrite first).overwrite second = listing.overwrite (second ++ first) := by
  rw [overwrite, overwrite, mapFiles_mapFiles, overwrite]
  congr 1
  funext place old
  rw [List.lookup_append]
  cases second.lookup place <;> rfl

/-!
# Building a tree

Putting files and directories under names that can be spelled keeps a tree
well-formed, so every tree that is built from the empty one is.
-/

theorem wellFormed_empty : WellFormed .empty := trivial

theorem mem_names_set {listing : Listing} {name other : Name} {entry : Entry}
    (h : other ∈ (listing.set name entry).names) : other = name ∨ other ∈ listing.names := by
  induction listing using consInduction with
  | empty =>
      rw [set, names_cons] at h
      exact List.mem_cons.mp h
  | cons first found rest _ ih =>
      rw [set_cons] at h
      rw [names_cons]
      split at h
      · next hname =>
          rw [names_cons, hname] at h
          exact Or.inr h
      · split at h
        · rw [names_cons, names_cons] at h
          exact List.mem_cons.mp h
        · rw [names_cons] at h
          rcases List.mem_cons.mp h with hfirst | hrest
          · exact Or.inr (hfirst ▸ List.mem_cons_self)
          · rcases ih hrest with hname | hmem
            · exact Or.inl hname
            · exact Or.inr (List.mem_cons_of_mem first hmem)

theorem wellFormed_set {listing : Listing} {name : Name} {entry : Entry}
    (hlisting : listing.WellFormed) (hname : Path.IsEntryName name)
    (hentry : entry.WellFormed) : (listing.set name entry).WellFormed := by
  induction listing using consInduction with
  | empty =>
      rw [set]
      refine wellFormed_cons.mpr ⟨hname, ?_, hentry, wellFormed_empty⟩
      intro other hother
      cases hother
  | cons first found rest _ ih =>
      rcases wellFormed_cons.mp hlisting with ⟨hfirst, hbelow, hfound, hrest⟩
      rw [set_cons]
      split
      · next heq =>
          subst heq
          exact wellFormed_cons.mpr ⟨hname, hbelow, hentry, hrest⟩
      · next hne =>
          split
          · next hlt =>
              refine wellFormed_cons.mpr ⟨hname, ?_, hentry, hlisting⟩
              intro other hother
              rw [names_cons] at hother
              rcases List.mem_cons.mp hother with heq | hmem
              · rw [heq]
                exact hlt
              · exact List.lt_trans hlt (hbelow other hmem)
          · next hle =>
              refine wellFormed_cons.mpr ⟨hfirst, ?_, hfound, ih hrest⟩
              intro other hother
              rcases mem_names_set hother with heq | hmem
              · rw [heq]
                apply Decidable.byContradiction
                intro hge
                exact hne (List.le_antisymm (List.not_lt.mp hge) (List.not_lt.mp hle))
              · exact hbelow other hmem

theorem wellFormed_subdirectory {listing : Listing} (h : listing.WellFormed) (name : Name) :
    (listing.subdirectory name).WellFormed := by
  rw [subdirectory]
  split
  · next content hfind => exact (wellFormed_of_find? h hfind).2
  · exact wellFormed_empty

theorem wellFormed_putFile {listing : Listing} {place : List Name} (content : ByteArray)
    (hlisting : listing.WellFormed) (hplace : ∀ name ∈ place, Path.IsEntryName name) :
    (listing.putFile content place).WellFormed := by
  induction place generalizing listing with
  | nil => exact hlisting
  | cons name place ih =>
      have hname := hplace name List.mem_cons_self
      cases place with
      | nil => exact wellFormed_set hlisting hname trivial
      | cons next rest =>
          rw [putFile]
          · apply wellFormed_set hlisting hname
            apply ih (wellFormed_subdirectory hlisting name)
            intro other hother
            exact hplace other (List.mem_cons_of_mem name hother)
          · intro h
            cases h

theorem wellFormed_putDir {listing : Listing} {place : List Name}
    (hlisting : listing.WellFormed) (hplace : ∀ name ∈ place, Path.IsEntryName name) :
    (listing.putDir place).WellFormed := by
  induction place generalizing listing with
  | nil => exact hlisting
  | cons name place ih =>
      rw [putDir]
      apply wellFormed_set hlisting (hplace name List.mem_cons_self)
      apply ih (wellFormed_subdirectory hlisting name)
      intro other hother
      exact hplace other (List.mem_cons_of_mem name hother)

end Listing
end SourceTidy
