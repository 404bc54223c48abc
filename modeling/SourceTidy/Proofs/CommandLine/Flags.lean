import SourceTidy.CommandLine.Arguments

/-!
# Flags in front of a command line

What is read from a command line does not depend on the flags that came before, except
that no flag may come twice.  So a flag can be put in front of a command line that does
not have it, and nothing but that flag changes.
-/

namespace SourceTidy
namespace CommandLine
namespace Draft

def withFlag (draft : Draft) (flag : Flag) : Draft :=
  { draft with flags := flag :: draft.flags }

@[simp] theorem withFlag_path? (draft : Draft) (flag : Flag) :
    (draft.withFlag flag).path? = draft.path? := rfl

@[simp] theorem withFlag_pending? (draft : Draft) (flag : Flag) :
    (draft.withFlag flag).pending? = draft.pending? := rfl

/-- A step from a draft keeps its flags.  If it does not take a certain one, then the
step from the draft that has it already leads to the same, and that flag. -/
def Passes (flag : Flag) (draft : Draft) (plain flagged : Except Stop Draft) : Prop :=
  ∀ next, plain = .ok next →
    draft.flags ⊆ next.flags ∧ (flag ∉ next.flags → flagged = .ok (next.withFlag flag))

section Steps

variable {flag : Flag} {draft : Draft}

theorem passes_error (stop : Stop) (flagged : Except Stop Draft) :
    Passes flag draft (.error stop) flagged := by
  intro next h
  cases h

theorem passes_ok {next : Draft} (h : draft.flags ⊆ next.flags) :
    Passes flag draft (.ok next) (.ok (next.withFlag flag)) := by
  intro _ hnext
  cases hnext
  exact ⟨h, fun _ => rfl⟩

theorem passes_bind {plain flagged : Except Stop Draft} {step : Draft → Except Stop Draft}
    (h : Passes flag draft plain flagged)
    (hstep : ∀ middle, Passes flag middle (step middle) (step (middle.withFlag flag))) :
    Passes flag draft (plain >>= step) (flagged >>= step) := by
  intro next hnext
  cases hmiddle : plain with
  | error stop =>
      rw [hmiddle] at hnext
      cases hnext
  | ok middle =>
      rw [hmiddle] at hnext
      rcases h middle hmiddle with ⟨hkept, hflagged⟩
      rcases hstep middle next hnext with ⟨hkept', hpassed⟩
      refine ⟨List.Subset.trans hkept hkept', ?_⟩
      intro hfresh
      -- a flag that is not there in the end was not there in between
      rw [hflagged fun hmem => hfresh (hkept' hmem)]
      exact hpassed hfresh

theorem passes_store (value : Text) (setting : Setting) :
    Passes flag draft (draft.store value setting)
      ((draft.withFlag flag).store value setting) := by
  have hkept : draft.flags ⊆ draft.flags := List.Subset.refl _
  cases setting with
  | indentWidth =>
      dsimp only [store, withFlag]
      split
      · exact passes_error _ _
      · split
        · exact passes_ok hkept
        · exact passes_error _ _
  | config =>
      dsimp only [store, withFlag]
      split
      · exact passes_error _ _
      · split
        · exact passes_error _ _
        · exact passes_ok hkept
  | exclude => exact passes_ok hkept
  | skipExtension => exact passes_ok hkept

theorem passes_settle : Passes flag draft draft.settle (draft.withFlag flag).settle := by
  have hkept : draft.flags ⊆ draft.flags := List.Subset.refl _
  dsimp only [settle, withFlag]
  cases draft.pending? with
  | none => exact passes_ok hkept
  | some pending =>
      cases pending with
      | path text =>
          dsimp only
          split
          · exact passes_error _ _
          · exact passes_ok hkept
      | setting setting value? =>
          cases value? with
          | none => exact passes_error _ _
          | some value => exact passes_store value setting

theorem passes_takeFlag (other : Flag) :
    Passes flag draft
      (if draft.flags.contains other then .error (.error .repeated)
        else .ok { draft with flags := draft.flags ++ [other] })
      (if (draft.withFlag flag).flags.contains other then .error (.error .repeated)
        else .ok { draft.withFlag flag with flags := (draft.withFlag flag).flags ++ [other] }) := by
  intro next h
  split at h
  · cases h
  · next hnew =>
      cases h
      refine ⟨List.subset_append_left _ _, ?_⟩
      intro hfresh
      have hother : other ≠ flag := by
        rintro rfl
        exact hfresh (List.mem_append_right _ List.mem_cons_self)
      rw [if_neg]
      · rfl
      · simpa [withFlag, hother] using hnew

theorem passes_take (switch : Switch) :
    Passes flag draft (draft.take switch) ((draft.withFlag flag).take switch) := by
  apply passes_bind passes_settle
  intro middle
  cases switch with
  | help => exact passes_error _ _
  | version => exact passes_error _ _
  | flag other => exact passes_takeFlag other
  | setting setting => exact passes_ok (List.Subset.refl _)

theorem passes_takeAttached (setting : Setting) (value : Text) :
    Passes flag draft (draft.takeAttached setting value)
      ((draft.withFlag flag).takeAttached setting value) := by
  apply passes_bind passes_settle
  intro middle
  exact passes_store value setting

theorem passes_takePath (text : Text) :
    Passes flag draft (draft.takePath text) ((draft.withFlag flag).takePath text) := by
  have hstep : Passes flag draft
      (draft.settle >>= fun draft => .ok { draft with pending? := some (.path text) })
      ((draft.withFlag flag).settle >>=
        fun draft => .ok { draft with pending? := some (.path text) }) := by
    apply passes_bind passes_settle
    intro middle
    exact passes_ok (List.Subset.refl _)
  rw [takePath, takePath]
  dsimp only [withFlag_path?, withFlag_pending?]
  cases draft.path? with
  | some path => exact passes_error _ _
  | none =>
      split
      · exact passes_error _ _
      · exact passes_error _ _
      · exact hstep

theorem passes_takeLong (text : Text) :
    Passes flag draft (draft.takeLong text) ((draft.withFlag flag).takeLong text) := by
  rw [takeLong, takeLong]
  split
  · split
    · exact passes_error _ _
    · exact passes_take _
  · split
    · exact passes_error _ _
    · exact passes_takeAttached _ _
    · exact passes_error _ _

theorem takeShort_cons_of_switch {c : Char} {switch : Switch}
    (hlookup : shortNames.lookup c = some switch)
    (hswitch : ∀ setting, switch ≠ .setting setting) (draft : Draft) (rest : Text) :
    draft.takeShort (c :: rest) = draft.take switch >>= fun draft => draft.takeShort rest := by
  rw [takeShort, hlookup]
  cases switch with
  | setting setting => exact absurd rfl (hswitch setting)
  | _ =>
      dsimp only
      split
      · next htake => rw [htake]; rfl
      · next htake => rw [htake]; rfl

theorem passes_takeShort (text : Text) :
    Passes flag draft (draft.takeShort text) ((draft.withFlag flag).takeShort text) := by
  induction text generalizing draft with
  | nil => exact passes_ok (List.Subset.refl _)
  | cons c rest ih =>
      cases hlookup : shortNames.lookup c with
      | none =>
          rw [takeShort, hlookup]
          exact passes_error _ _
      | some switch =>
          cases switch with
          | setting setting =>
              rw [takeShort, takeShort, hlookup]
              dsimp only
              split
              · exact passes_take _
              · exact passes_takeAttached _ _
          | _ =>
              rw [takeShort_cons_of_switch hlookup (by simp),
                takeShort_cons_of_switch hlookup (by simp)]
              exact passes_bind (passes_take _) fun _ => ih

theorem passes_takePlain (text : Text) :
    Passes flag draft (draft.takePlain text) ((draft.withFlag flag).takePlain text) := by
  rw [takePlain, takePlain]
  dsimp only [withFlag_pending?]
  split
  · exact passes_ok (List.Subset.refl _)
  · exact passes_takePath text

theorem passes_takeNext (text : Text) :
    Passes flag draft (draft.takeNext text) ((draft.withFlag flag).takeNext text) := by
  unfold takeNext
  by_cases hpaths : draft.onlyPaths = true
  · have hpaths' : (draft.withFlag flag).onlyPaths = true := hpaths
    rw [if_pos hpaths, if_pos hpaths']
    exact passes_takePath text
  · have hpaths' : ¬ (draft.withFlag flag).onlyPaths = true := hpaths
    rw [if_neg hpaths, if_neg hpaths']
    split
    · exact passes_ok (List.Subset.refl _)
    · exact passes_takeLong _
    · exact passes_takeShort _
    · exact passes_takePlain _

theorem passes_foldlM (arguments : List Text) :
    Passes flag draft (arguments.foldlM takeNext draft)
      (arguments.foldlM takeNext (draft.withFlag flag)) := by
  induction arguments generalizing draft with
  | nil => exact passes_ok (List.Subset.refl _)
  | cons text arguments ih =>
      rw [List.foldlM_cons, List.foldlM_cons]
      exact passes_bind (passes_takeNext text) fun _ => ih

end Steps
theorem finish_withFlag_silent {draft : Draft} {arguments : Arguments}
    (h : draft.finish = .ok arguments) (hsilent : arguments.silent = false) :
    .silent ∉ draft.flags ∧
      (draft.withFlag .silent).finish = .ok { arguments with silent := true } := by
  rw [finish] at h ⊢
  cases hsettle : draft.settle with
  | error stop =>
      rw [hsettle] at h
      cases h
  | ok settled =>
      rcases @passes_settle .silent draft settled hsettle with ⟨hkept, hflagged⟩
      cases hpath : settled.path? with
      | none =>
          rw [hsettle] at h
          simp only [bind, Except.bind, hpath] at h
          cases h
      | some path =>
          rw [hsettle] at h
          simp only [bind, Except.bind, hpath] at h
          cases h
          have hfresh : .silent ∉ settled.flags := by simpa using hsilent
          refine ⟨fun hmem => hfresh (hkept hmem), ?_⟩
          rw [hflagged hfresh]
          simp [bind, Except.bind, hpath, withFlag]

end Draft

theorem parse_silent_cons {words : List Text} {arguments : Arguments}
    (h : parse words = .ok arguments) (hsilent : arguments.silent = false) :
    parse ("--silent".toList :: words) = .ok { arguments with silent := true } := by
  have hfirst : Draft.start.takeNext "--silent".toList = .ok (Draft.start.withFlag .silent) := by
    rfl
  rw [parse] at h ⊢
  rw [List.foldlM_cons, hfirst]
  cases hdraft : words.foldlM Draft.takeNext Draft.start with
  | error stop =>
      rw [hdraft] at h
      cases h
  | ok draft =>
      rw [hdraft] at h
      rcases Draft.finish_withFlag_silent h hsilent with ⟨hfresh, hfinish⟩
      have hflagged := (Draft.passes_foldlM words draft hdraft).2 hfresh
      change words.foldlM Draft.takeNext (Draft.start.withFlag .silent) >>= Draft.finish = _
      rw [hflagged]
      exact hfinish

end CommandLine
end SourceTidy
