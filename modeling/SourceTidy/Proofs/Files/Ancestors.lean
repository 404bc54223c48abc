import Mathlib.Data.List.DropRight
import SourceTidy.Proofs.Files.Location

/-!
# The directories above a path

Paths are compared by their components.  The path of an entry has one component more
than the path of its directory, and the directories above a path have less and less of
its components, so they all differ and come in a fixed order.  Two spellings with the
same components lead to the same place, if both lead anywhere.
-/

namespace SourceTidy
namespace Path

/-!
# Components from segments
-/

theorem slash_not_mem_segments {path : Path} {segment : Name} (h : segment ∈ segments path) :
    slash ∉ segment := by
  intro hmem
  exact absurd (Text.not_sep_of_mem_splitOnP h slash hmem) (by decide)

theorem componentOf?_eq_none_iff (segment : Name) :
    componentOf? segment = none ↔ isIdle segment = true := by
  rw [componentOf?]
  cases isIdle segment with
  | true => simp
  | false =>
      simp only [Bool.false_eq_true, if_false, iff_false]
      split <;> simp

theorem isIdle_of_componentOf? {segment : Name} {component : Component}
    (h : componentOf? segment = some component) : isIdle segment = false := by
  cases hidle : isIdle segment with
  | false => rfl
  | true =>
      rw [(componentOf?_eq_none_iff segment).mpr hidle] at h
      cases h

theorem filterMap_componentOf?_idle {idle : List Name}
    (h : ∀ segment ∈ idle, isIdle segment = true) : idle.filterMap componentOf? = [] := by
  rw [List.filterMap_eq_nil_iff]
  intro segment hsegment
  exact (componentOf?_eq_none_iff segment).mpr (h segment hsegment)

def Parts.components (parts : Parts) : List Component :=
  parts.lead.toList ++ parts.body.filterMap componentOf?

theorem components_eq (path : Path) : components path = (parts path).components :=
  rfl

/-- The parts that a path can have. -/
structure Parts.Proper (parts : Parts) : Prop where
  noSlash : ∀ segment ∈ parts.body, slash ∉ segment
  lead : parts.lead = none ∨ parts.lead = some .root ∨ parts.lead = some .here
  first : parts.lead = none → ∀ segment, parts.body.head? = some segment → isIdle segment = false

theorem proper_parts (path : Path) : (parts path).Proper := by
  have hslash : ∀ segment ∈ segments path, slash ∉ segment := fun _ => slash_not_mem_segments
  rw [parts]
  cases hsegments : segments path with
  | nil => exact ⟨by simp, Or.inl rfl, by simp⟩
  | cons first rest =>
      rw [hsegments, List.forall_mem_cons] at hslash
      dsimp only
      split
      · split
        · exact ⟨by simp, Or.inl rfl, by simp⟩
        · exact ⟨hslash.2, Or.inr (Or.inl rfl), by simp⟩
      · split
        · exact ⟨hslash.2, Or.inr (Or.inr rfl), by simp⟩
        · next hempty hdot =>
            refine ⟨List.forall_mem_cons.mpr hslash, Or.inl rfl, ?_⟩
            intro _ segment hsegment
            cases hsegment
            simp [isIdle, hempty, hdot]

theorem Parts.Proper.of_beginning {parts : Parts} (h : parts.Proper) {body : List Name}
    (hbody : body <+: parts.body) : (Parts.mk parts.lead body).Proper where
  noSlash := by
    intro segment hsegment
    exact h.noSlash segment (hbody.mem hsegment)
  lead := h.lead
  first := by
    intro hlead segment hsegment
    rcases hbody with ⟨rest, hrest⟩
    apply h.first hlead
    rw [← hrest, List.head?_append, hsegment]
    rfl

theorem segments_joinSegments {body : List Name} (hne : body ≠ [])
    (h : ∀ segment ∈ body, slash ∉ segment) : segments (joinSegments body) = body :=
  List.splitOn_intercalate slash h hne

theorem segments_slash_cons (path : Path) : segments (slash :: path) = [] :: segments path :=
  Disk.segments_append_slash [] path

theorem components_toPath {parts : Parts} (h : parts.Proper) :
    components parts.toPath = parts.components := by
  rcases parts with ⟨lead, body⟩
  rcases h with ⟨hslash, hlead, hfirst⟩
  dsimp only at hslash hlead hfirst
  by_cases hbody : body = []
  · rw [hbody]
    rcases hlead with rfl | rfl | rfl
    · rfl
    · rfl
    · rfl
  · have hsegments := segments_joinSegments hbody hslash
    rcases hlead with rfl | rfl | rfl
    · rcases List.exists_cons_of_ne_nil hbody with ⟨segment, rest, rfl⟩
      have hidle := hfirst rfl segment rfl
      simp only [isIdle, Bool.or_eq_false_iff, beq_eq_false_iff_ne] at hidle
      rw [components_eq, parts, Parts.toPath]
      simp only [hsegments, if_neg hidle.1, if_neg hidle.2]
    · rw [components_eq, parts, Parts.toPath, segments_slash_cons, hsegments]
      simp [hbody]
    · have hdot : segments (dot :: slash :: joinSegments body) = [dot] :: body := by
        have hcut := Disk.segments_append_slash [dot] (joinSegments body)
        rw [hsegments] at hcut
        exact hcut
      rw [components_eq, parts, Parts.toPath]
      simp [hbody, hdot]

/-!
# Above and below
-/

/-- One path goes on, component by component, where the other one ends. -/
def StrictlyBelow (lower upper : Path) : Prop :=
  components upper <+: components lower ∧ components upper ≠ components lower

instance (lower upper : Path) : Decidable (StrictlyBelow lower upper) :=
  inferInstanceAs (Decidable (_ ∧ _))

theorem StrictlyBelow.length_lt {lower upper : Path} (h : StrictlyBelow lower upper) :
    (components upper).length < (components lower).length := by
  rcases h with ⟨hbegins, hne⟩
  apply Nat.lt_of_le_of_ne hbegins.length_le
  intro hlength
  exact hne (hbegins.eq_of_length hlength)

theorem prefix_withoutIdleEnd (body : List Name) : withoutIdleEnd body <+: body :=
  List.rdropWhile_prefix isIdle body

theorem filterMap_withoutIdleEnd (body : List Name) :
    (withoutIdleEnd body).filterMap componentOf? = body.filterMap componentOf? := by
  have hidle : (body.rtakeWhile isIdle).filterMap componentOf? = [] :=
    filterMap_componentOf?_idle fun _ hsegment => List.mem_rtakeWhile_imp hsegment
  have hsplit : withoutIdleEnd body ++ body.rtakeWhile isIdle = body :=
    List.rdropWhile_append_rtakeWhile
  nth_rewrite 2 [← hsplit]
  rw [List.filterMap_append, hidle, List.append_nil]

theorem ancestorsAbove_strictlyBelow {lead : Option Component} {reversed : List Name}
    (h : (Parts.mk lead reversed.reverse).Proper) :
    (∀ upper ∈ ancestorsAbove lead reversed,
      components upper <+: (Parts.mk lead reversed.reverse).components ∧
        components upper ≠ (Parts.mk lead reversed.reverse).components) ∧
      (ancestorsAbove lead reversed).Pairwise StrictlyBelow := by
  induction reversed with
  | nil =>
      rw [ancestorsAbove]
      split
      · next hhere =>
          rw [hhere]
          refine ⟨?_, List.pairwise_singleton _ _⟩
          intro upper hupper
          rw [List.mem_singleton.mp hupper]
          decide
      · exact ⟨by simp, List.Pairwise.nil⟩
  | cons segment rest ih =>
      rw [List.reverse_cons] at h ⊢
      have hrest : (Parts.mk lead rest.reverse).Proper :=
        h.of_beginning (List.prefix_append _ _)
      rw [ancestorsAbove]
      split
      · next hidle =>
          have hsame : (Parts.mk lead (rest.reverse ++ [segment])).components =
              (Parts.mk lead rest.reverse).components := by
            have hnone := (componentOf?_eq_none_iff segment).mpr hidle
            simp [Parts.components, hnone]
          rw [hsame]
          exact ih hrest
      · next hidle =>
          have hupper :
              components (Parts.toPath { lead := lead, body := withoutIdleEnd rest.reverse }) =
                (Parts.mk lead rest.reverse).components := by
            rw [components_toPath (hrest.of_beginning (prefix_withoutIdleEnd _)), Parts.components,
              filterMap_withoutIdleEnd]
            rfl
          have hlonger : ∃ component,
              (Parts.mk lead (rest.reverse ++ [segment])).components =
                (Parts.mk lead rest.reverse).components ++ [component] := by
            cases hcomponent : componentOf? segment with
            | none => exact absurd ((componentOf?_eq_none_iff segment).mp hcomponent) hidle
            | some component => exact ⟨component, by simp [Parts.components, hcomponent]⟩
          rcases hlonger with ⟨component, hlonger⟩
          rcases ih hrest with ⟨habove, hpairwise⟩
          rw [hlonger]
          constructor
          · rw [List.forall_mem_cons]
            constructor
            · rw [hupper]
              exact ⟨List.prefix_append _ _, by simp⟩
            · intro upper hmem
              rcases habove upper hmem with ⟨hbegins, _⟩
              refine ⟨hbegins.trans (List.prefix_append _ _), ?_⟩
              intro heq
              have hlength := hbegins.length_le
              rw [heq, List.length_append, List.length_singleton] at hlength
              omega
          · rw [List.pairwise_cons]
            refine ⟨?_, hpairwise⟩
            intro upper hmem
            rw [StrictlyBelow, hupper]
            exact habove upper hmem

theorem pairwise_ancestors (path : Path) : (ancestors path).Pairwise StrictlyBelow := by
  have hproper : (Parts.mk (parts path).lead (parts path).body.reverse.reverse).Proper := by
    rw [List.reverse_reverse]
    exact proper_parts path
  rcases ancestorsAbove_strictlyBelow hproper with ⟨habove, hpairwise⟩
  rw [List.reverse_reverse] at habove
  rw [ancestors, List.pairwise_cons]
  exact ⟨habove, hpairwise⟩

/-- The lower one of two directories above a path is the nearer one. -/
theorem sublist_ancestors {path lower upper : Path} (hlower : lower ∈ ancestors path)
    (hupper : upper ∈ ancestors path) (h : StrictlyBelow lower upper) :
    [lower, upper].Sublist (ancestors path) := by
  have hpairwise := pairwise_ancestors path
  generalize ancestors path = directories at hlower hupper hpairwise
  induction directories with
  | nil => cases hlower
  | cons first rest ih =>
      rw [List.pairwise_cons] at hpairwise
      rcases List.mem_cons.mp hlower with hfirst | hlower
      · rcases List.mem_cons.mp hupper with hsame | hupper
        · rw [hfirst, hsame] at h
          exact absurd h.length_lt (Nat.lt_irrefl _)
        · rw [hfirst]
          exact List.Sublist.cons_cons first (List.singleton_sublist.mpr hupper)
      · rcases List.mem_cons.mp hupper with hfirst | hupper
        · have hlt := (hpairwise.1 lower hlower).length_lt
          rw [← hfirst] at hlt
          exact absurd h.length_lt (Nat.lt_asymm hlt)
        · exact (ih hlower hupper hpairwise.2).cons first

/-!
# Entries
-/

theorem segments_cons {c : UInt8} (hc : c ≠ slash) (rest : Path) :
    ∃ first others, segments (c :: rest) = (c :: first) :: others := by
  have hsep : (c == slash) = false := beq_eq_false_iff_ne.mpr hc
  cases hrest : List.splitOn slash rest with
  | nil => exact absurd hrest (List.splitOn_ne_nil _ _)
  | cons first others =>
      refine ⟨first, others, ?_⟩
      refine Text.splitOnP_cons_of_not_sep ?_ hrest
      exact hsep

def Parts.ofSegments (first : Name) (rest : List Name) : Parts :=
  if first = [] then { lead := some .root, body := rest }
  else if first = [dot] then { lead := some .here, body := rest }
  else { lead := none, body := first :: rest }

theorem parts_of_segments {path : Path} (hne : path ≠ []) {first : Name} {rest : List Name}
    (h : segments path = first :: rest) : parts path = Parts.ofSegments first rest := by
  have hroot : first = [] → rest ≠ [] := by
    rintro rfl rfl
    cases path with
    | nil => exact hne rfl
    | cons c path =>
        by_cases hc : c = slash
        · rw [hc, segments_slash_cons] at h
          injection h with _ hnil
          exact List.splitOn_ne_nil _ _ hnil
        · rcases segments_cons hc path with ⟨piece, others, hsegments⟩
          rw [hsegments] at h
          cases h
  rw [parts, h, Parts.ofSegments]
  dsimp only
  by_cases hempty : first = []
  · simp [hempty, hroot hempty]
  · simp [hempty]

/-- What the first segment of a path stands for. -/
def leading (first : Name) : List Component :=
  if first = [] then [.root] else if first = [dot] then [.here] else (componentOf? first).toList

theorem components_of_segments {path : Path} (hne : path ≠ []) {first : Name} {rest : List Name}
    (h : segments path = first :: rest) :
    components path = leading first ++ rest.filterMap componentOf? := by
  rw [components_eq, parts_of_segments hne h, Parts.ofSegments, leading]
  by_cases hempty : first = []
  · simp [hempty, Parts.components]
  · by_cases hdot : first = [dot]
    · simp [hdot, Parts.components]
    · cases hcomponent : componentOf? first <;> simp [hempty, hdot, hcomponent, Parts.components]

/-- The path of an entry has the components of its directory and the name. -/
theorem components_child {name : Name} (hcomponent : componentOf? name = some (.name name))
    (hslash : slash ∉ name) (directory : Path) :
    components (child directory name) = components directory ++ [.name name] := by
  have hname : [name].filterMap componentOf? = [.name name] := by simp [hcomponent]
  have hidle : isIdle name = false := isIdle_of_componentOf? hcomponent
  by_cases hne : directory = []
  · have hsegments : segments name = name :: [] := Disk.segments_of_no_slash hslash
    have hnonempty : name ≠ [] := by
      rintro rfl
      cases hidle
    have hdot : name ≠ [dot] := by
      rintro rfl
      cases hidle
    rw [hne, child]
    simp only [List.isEmpty_nil, Bool.true_or, if_true, List.nil_append]
    rw [components_of_segments hnonempty hsegments, leading, if_neg hnonempty, if_neg hdot,
      hcomponent]
    rfl
  · by_cases hlast : directory.getLast? = some slash
    · -- the name takes the place of the empty segment behind the last slash
      rcases List.getLast?_eq_some_iff.mp hlast with ⟨front, rfl⟩
      rcases List.exists_cons_of_ne_nil (List.splitOn_ne_nil slash front) with
        ⟨first, rest, hfront⟩
      have hsegments : segments (front ++ [slash]) = first :: (rest ++ [[]]) := by
        rw [Disk.segments_append_slash, segments, hfront]
        rfl
      have hchild : segments (front ++ slash :: name) = first :: (rest ++ [name]) := by
        rw [Disk.segments_append_slash, Disk.segments_of_no_slash hslash, segments, hfront]
        rfl
      have hempty : [([] : Name)].filterMap componentOf? = [] := rfl
      rw [Disk.child_of_slash hlast, List.append_assoc, List.singleton_append,
        components_of_segments (by simp) hchild, components_of_segments hne hsegments,
        List.filterMap_append, List.filterMap_append, hname, hempty, List.append_nil,
        List.append_assoc]
    · rcases List.exists_cons_of_ne_nil (List.splitOn_ne_nil slash directory) with
        ⟨first, rest, hsegments⟩
      have hchild : segments (directory ++ slash :: name) = first :: (rest ++ [name]) := by
        rw [Disk.segments_append_slash, Disk.segments_of_no_slash hslash, segments, hsegments]
        rfl
      rw [Disk.child_of_no_slash hne hlast, components_of_segments (by simp) hchild,
        components_of_segments hne hsegments, List.filterMap_append, hname, List.append_assoc]

/-!
# Spellings of one place
-/

theorem componentOf?_ne_root (segment : Name) : componentOf? segment ≠ some .root := by
  rw [componentOf?]
  split
  · simp
  · split <;> simp

def Component.segment? : Component → Option Name
  | .up => some [dot, dot]
  | .name text => some text
  | _ => none

def busySegments (path : Path) : List Name :=
  (segments path).filter fun segment => !isIdle segment

theorem head?_components_iff (path : Path) :
    (components path).head? = some .root ↔ path.head? = some slash := by
  cases path with
  | nil => simp [components, parts, segments, List.splitOn_nil]
  | cons c rest =>
      by_cases hc : c = slash
      · have hsegments : segments (c :: rest) = [] :: segments rest := by
          rw [hc, segments_slash_cons]
        rw [components_of_segments (List.cons_ne_nil c rest) hsegments, hc]
        simp [leading]
      · rcases segments_cons hc rest with ⟨first, others, hsegments⟩
        refine iff_of_false ?_ (by simpa using hc)
        rw [components_of_segments (List.cons_ne_nil c rest) hsegments, leading,
          if_neg (List.cons_ne_nil c first)]
        split
        · simp
        · next hdot =>
            cases hcomponent : componentOf? (c :: first) with
            | none =>
                have hidle := (componentOf?_eq_none_iff _).mp hcomponent
                simp [isIdle] at hidle
                exact absurd (by rw [hidle.1, hidle.2]) hdot
            | some component =>
                intro hroot
                cases hroot
                exact componentOf?_ne_root _ hcomponent

theorem bind_segment?_componentOf? (segment : Name) :
    (componentOf? segment).bind Component.segment? =
      if isIdle segment then none else some segment := by
  rw [componentOf?]
  split
  · rfl
  · split
    · next hup => rw [hup]; rfl
    · rfl

theorem filterMap_segment?_filterMap (body : List Name) :
    (body.filterMap componentOf?).filterMap Component.segment? =
      body.filter fun segment => !isIdle segment := by
  rw [List.filterMap_filterMap, ← List.filterMap_eq_filter]
  congr 1
  funext segment
  rw [bind_segment?_componentOf?]
  cases hidle : isIdle segment <;> simp [Option.guard, hidle]

theorem filterMap_segment?_leading (first : Name) :
    (leading first).filterMap Component.segment? =
      [first].filter fun segment => !isIdle segment := by
  rw [leading]
  split
  · next hempty => rw [hempty]; rfl
  · split
    · next hdot => rw [hdot]; rfl
    · rw [← filterMap_segment?_filterMap]
      cases hcomponent : componentOf? first <;> simp [hcomponent]

/-- The components of a path tell which of its segments name something. -/
theorem busySegments_eq (path : Path) :
    busySegments path = (components path).filterMap Component.segment? := by
  by_cases hne : path = []
  · rw [hne]
    rfl
  · rcases List.exists_cons_of_ne_nil (List.splitOn_ne_nil slash path) with
      ⟨first, rest, hsegments⟩
    change segments path = first :: rest at hsegments
    rw [busySegments, hsegments, components_of_segments hne hsegments, List.filterMap_append,
      filterMap_segment?_leading, filterMap_segment?_filterMap, ← List.filter_append]
    rfl

end Path

namespace Disk

/-- Segments that name nothing may be left out on the way to something. -/
theorem follow_filter_isIdle {root : Listing} {trail : List Name} {entry : Entry}
    {segments : List Name} {found : List Name × Entry}
    (h : follow root trail entry segments = .ok found) :
    follow root trail entry (segments.filter fun segment => !Path.isIdle segment) = .ok found := by
  induction segments generalizing trail entry with
  | nil => exact h
  | cons segment segments ih =>
      cases entry with
      | file content => cases h
      | dir content =>
          cases hcomponent : Path.componentOf? segment with
          | none =>
              have hidle := (Path.componentOf?_eq_none_iff segment).mp hcomponent
              rw [follow, hcomponent] at h
              rw [List.filter_cons_of_neg (by simp [hidle])]
              exact ih h
          | some component =>
              have hbusy : Path.isIdle segment = false := Path.isIdle_of_componentOf? hcomponent
              rw [List.filter_cons_of_pos (by simp [hbusy])]
              rw [follow, hcomponent] at h ⊢
              cases component with
              | up =>
                  cases habove : root.get? trail.tail.reverse with
                  | none =>
                      simp only [habove] at h
                      cases h
                  | some above =>
                      simp only [habove] at h ⊢
                      exact ih h
              | _ =>
                  by_cases hlong : Path.isOverlongName segment = true
                  · simp only [if_pos hlong] at h
                    cases h
                  · simp only [if_neg hlong] at h ⊢
                    cases hfind : content.find? segment with
                    | none =>
                        simp only [hfind] at h
                        cases h
                    | some inner =>
                        simp only [hfind] at h ⊢
                        exact ih h

theorem startOf_of_same (disk : Disk) {a b : Path} (h : Path.components a = Path.components b) :
    disk.startOf a = disk.startOf b := by
  unfold startOf
  simp only [← Path.head?_components_iff, h]

/-- Two spellings that lead somewhere lead to the same place if they have the same
components. -/
theorem locate_of_same {disk : Disk} {a b : Path} {found other : List Name × Entry}
    (h : Path.components a = Path.components b) (ha : disk.locate a = .ok found)
    (hb : disk.locate b = .ok other) : found = other := by
  rcases follow_of_locate ha with ⟨start, hstart, hfollow⟩
  rcases follow_of_locate hb with ⟨start', hstart', hfollow'⟩
  have hbusy : Path.busySegments a = Path.busySegments b := by
    rw [Path.busySegments_eq, Path.busySegments_eq, h]
  rw [startOf_of_same disk h] at hstart hfollow
  rw [hstart] at hstart'
  cases hstart'
  have hfollow := follow_filter_isIdle hfollow
  have hfollow' := follow_filter_isIdle hfollow'
  change follow _ _ _ (Path.busySegments a) = _ at hfollow
  change follow _ _ _ (Path.busySegments b) = _ at hfollow'
  rw [hbusy, hfollow'] at hfollow
  injection hfollow with hfound
  injection hfound with hplace hentry
  exact Prod.ext (List.reverse_injective hplace.symm) hentry.symm

theorem locate_of_isFile {disk : Disk} {path : Path} (h : disk.isFile path = true) :
    ∃ place content, disk.locate path = .ok (place, .file content) := by
  rw [isFile, entry] at h
  cases hlocate : disk.locate path with
  | error e =>
      rw [hlocate] at h
      cases h
  | ok found =>
      rcases found with ⟨place, found⟩
      rw [hlocate] at h
      cases found with
      | file content => exact ⟨place, content, rfl⟩
      | dir content => cases h

theorem read_of_same {disk : Disk} {a b : Path} (h : Path.components a = Path.components b)
    (ha : disk.isFile a = true) (hb : disk.isFile b = true) : disk.read a = disk.read b := by
  rcases locate_of_isFile ha with ⟨place, content, hplace⟩
  rcases locate_of_isFile hb with ⟨place', content', hplace'⟩
  have hsame := locate_of_same h hplace hplace'
  cases hsame
  rw [read_of_locate hplace, read_of_locate hplace']

end Disk
end SourceTidy
