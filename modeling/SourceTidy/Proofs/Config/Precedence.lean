import Mathlib.Data.List.Induction
import SourceTidy.CommandLine.Session
import SourceTidy.Proofs.Config.Validation

/-!
# Which layer decides

The configuration of a session is built from the standard one, the layers that are
found, and the arguments, each on top of the ones before.  A field has the value from
the last layer that sets it, an alias the target from the last layer that defines it,
and patterns add up.
-/

namespace SourceTidy

/-!
# The last layer that sets something
-/

/-- What the last layer to set something sets it to. -/
def lastSet? (field : Layer → Option α) (layers : List Layer) : Option α :=
  (layers.filterMap field).getLast?

theorem lastSet?_cons (field : Layer → Option α) (layer : Layer) (layers : List Layer) :
    lastSet? field (layer :: layers) = (lastSet? field layers).or (field layer) := by
  unfold lastSet?
  cases hfield : field layer with
  | none => rw [List.filterMap_cons_none hfield, Option.or_none]
  | some value =>
      rw [List.filterMap_cons_some hfield, List.getLast?_cons]
      cases (layers.filterMap field).getLast? <;> rfl

theorem Config.foldl_withLayer_or (part : Config → Option α) (field : Layer → Option α)
    {layers : List Layer}
    (hstep : ∀ layer ∈ layers, ∀ config : Config,
      part (config.withLayer layer) = (field layer).or (part config))
    (config : Config) :
    part (layers.foldl Config.withLayer config) = (lastSet? field layers).or (part config) := by
  induction layers generalizing config with
  | nil => rfl
  | cons layer layers ih =>
      have hrest := ih (fun other hother => hstep other (List.mem_cons_of_mem layer hother))
        (config.withLayer layer)
      rw [List.foldl_cons, hrest, hstep layer List.mem_cons_self, lastSet?_cons, Option.or_assoc]

theorem Config.foldl_withLayer_getD (part : Config → α) (field : Layer → Option α)
    (hstep : ∀ layer config, part (Config.withLayer config layer) = (field layer).getD (part config))
    (layers : List Layer) (config : Config) :
    part (layers.foldl Config.withLayer config) = (lastSet? field layers).getD (part config) := by
  have hsome : some (part (layers.foldl Config.withLayer config)) =
      (lastSet? field layers).or (some (part config)) := by
    apply Config.foldl_withLayer_or (fun config => some (part config)) field
    intro layer _ config
    rw [hstep]
    cases field layer <;> rfl
  rw [Option.or_some] at hsome
  exact Option.some.inj hsome

/-!
# Patterns
-/

theorem addPatterns_nil (patterns : List Text) : addPatterns [] patterns = patterns.eraseDups := by
  induction patterns using List.reverseRecOn with
  | nil => rfl
  | append_singleton patterns pattern ih =>
      have hstep : addPatterns [] (patterns ++ [pattern]) =
          if patterns.eraseDups.contains pattern then patterns.eraseDups
          else patterns.eraseDups ++ [pattern] := by
        rw [← ih]
        exact List.foldl_append
      rw [hstep, List.eraseDups_append]
      by_cases hmem : pattern ∈ patterns
      · have hnone : [pattern].removeAll patterns = [] := by simp [List.removeAll, hmem]
        rw [if_pos (List.contains_iff_mem.mpr (List.mem_eraseDups.mpr hmem)), hnone]
        exact (List.append_nil _).symm
      · have hkept : [pattern].removeAll patterns = [pattern] := by simp [List.removeAll, hmem]
        rw [if_neg, hkept]
        · rfl
        · rwa [List.contains_iff_mem, List.mem_eraseDups]

theorem exclude_foldl_withLayer (layers : List Layer) (config : Config) :
    (layers.foldl Config.withLayer config).exclude =
      addPatterns config.exclude (layers.flatMap Layer.exclude) := by
  induction layers generalizing config with
  | nil => rfl
  | cons layer layers ih =>
      rw [List.foldl_cons, ih, List.flatMap_cons]
      exact List.foldl_append.symm

/-!
# Aliases
-/

theorem ordered_foldl_withLayer {config : Config} (h : config.keyAliases.Ordered)
    (layers : List Layer) : (layers.foldl Config.withLayer config).keyAliases.Ordered := by
  induction layers generalizing config with
  | nil => exact h
  | cons layer layers ih => exact ih (h.insertAll layer.keyAliases)

theorem Toml.Value.ordered_of_toDictionary? {value : Toml.Value} {dictionary : Dictionary}
    (h : value.toDictionary? = some dictionary) : dictionary.Ordered := by
  cases value with
  | table _ entries =>
      rcases Option.map_eq_some_iff.mp h with ⟨pairs, _, rfl⟩
      exact Dictionary.ordered_ofList pairs
  | dateTime text =>
      cases h
      exact List.pairwise_singleton _ _
  | _ => cases h

theorem Layer.ordered_of_ofEntries? {entries : Toml.Entries} {layer : Layer}
    (h : Layer.ofEntries? entries = some layer) : layer.keyAliases.Ordered := by
  unfold Layer.ofEntries? at h
  simp only [Option.bind_eq_bind, Option.bind_eq_some_iff, Option.pure_def, Option.some.injEq] at h
  rcases h with ⟨_, _, _, _, _, _, _, _, _, _, _, _, _, _, _, _, aliases, haliases, rfl⟩
  change (aliases.getD []).Ordered
  unfold Toml.Entries.field? at haliases
  split at haliases
  · cases haliases
    exact List.Pairwise.nil
  · rcases Option.map_eq_some_iff.mp haliases with ⟨dictionary, hdictionary, rfl⟩
    exact Toml.Value.ordered_of_toDictionary? hdictionary

theorem Disk.exists_parse?_of_readLayer {disk : Disk} {path : Path} {layer : Layer}
    (h : disk.readLayer path = .ok layer) : ∃ text, Layer.parse? text = some layer := by
  unfold Disk.readLayer at h
  split at h
  · cases h
  · split at h
    · cases h
    · next text _ =>
        split at h
        · cases h
        · next hparse =>
            cases h
            exact ⟨text, hparse⟩

theorem Disk.ordered_of_mem_usableLayers {disk : Disk} {paths : List Path} {layer : Layer}
    (h : layer ∈ disk.usableLayers paths) : layer.keyAliases.Ordered := by
  rcases List.mem_filterMap.mp h with ⟨path, _, hlayer⟩
  cases hread : disk.readLayer path with
  | error error =>
      rw [hread] at hlayer
      cases hlayer
  | ok found =>
      rw [hread] at hlayer
      cases hlayer
      rcases Disk.exists_parse?_of_readLayer hread with ⟨text, hparse⟩
      rcases Option.bind_eq_some_iff.mp hparse with ⟨entries, _, hentries⟩
      exact Layer.ordered_of_ofEntries? hentries

namespace CommandLine

/-!
# The configuration of a session
-/

/-- The standard configuration with layers on top, and with what the arguments say on
top of these. -/
def Arguments.layered (arguments : Arguments) (layers : List Layer) : Config :=
  arguments.override (layers.foldl Config.withLayer Config.standard)

/-- Where the fields of a configuration come from, if it is made of the standard one,
some layers and the arguments. -/
structure Precedence (layers : List Layer) (arguments : Arguments) (config : Config) : Prop where
  indentWidth : config.indentWidth =
    arguments.indentWidth.getD
      ((lastSet? Layer.indentWidth? layers).getD Config.standard.indentWidth)
  replaceTabs : config.replaceTabs =
    if arguments.noTabs then false
    else (lastSet? Layer.replaceTabs? layers).getD Config.standard.replaceTabs
  fixIndent : config.fixIndent =
    if arguments.noIndent then false
    else (lastSet? Layer.fixIndent? layers).getD Config.standard.fixIndent
  fixDocu : config.fixDocu =
    if arguments.noDocu then false
    else (lastSet? Layer.fixDocu? layers).getD Config.standard.fixDocu
  excludedDirs : config.excludedDirs =
    (lastSet? Layer.excludedDirs? layers).getD Config.standard.excludedDirs
  excludedExtensions : config.excludedExtensions =
    (lastSet? Layer.excludedExtensions? layers).getD Config.standard.excludedExtensions ++
      arguments.skipExtensions.map (Text.dropLeading '.')
  canonicalKeys : config.canonicalKeys =
    (lastSet? Layer.canonicalKeys? layers).getD Config.standard.canonicalKeys
  keyAliases : ∀ spelling, config.keyAliases.get? spelling =
    (lastSet? (fun layer => layer.keyAliases.get? spelling) layers).or
      (Config.standard.keyAliases.get? spelling)
  ordered : config.keyAliases.Ordered
  exclude : config.exclude = (layers.flatMap Layer.exclude).eraseDups ++ arguments.exclude

theorem and_not_eq_ite (enabled off : Bool) :
    (enabled && !off) = if off then false else enabled := by
  cases enabled <;> cases off <;> rfl

theorem precedence_layered {layers : List Layer}
    (h : ∀ layer ∈ layers, layer.keyAliases.Ordered) (arguments : Arguments) :
    Precedence layers arguments (arguments.layered layers) where
  indentWidth := by
    rw [← Config.foldl_withLayer_getD Config.indentWidth Layer.indentWidth? fun _ _ => rfl]
    rfl
  replaceTabs := by
    rw [← Config.foldl_withLayer_getD Config.replaceTabs Layer.replaceTabs? fun _ _ => rfl]
    exact and_not_eq_ite _ _
  fixIndent := by
    rw [← Config.foldl_withLayer_getD Config.fixIndent Layer.fixIndent? fun _ _ => rfl]
    exact and_not_eq_ite _ _
  fixDocu := by
    rw [← Config.foldl_withLayer_getD Config.fixDocu Layer.fixDocu? fun _ _ => rfl]
    exact and_not_eq_ite _ _
  excludedDirs := by
    rw [← Config.foldl_withLayer_getD Config.excludedDirs Layer.excludedDirs? fun _ _ => rfl]
    rfl
  excludedExtensions := by
    rw [← Config.foldl_withLayer_getD Config.excludedExtensions Layer.excludedExtensions?
      fun _ _ => rfl]
    rfl
  canonicalKeys := by
    rw [← Config.foldl_withLayer_getD Config.canonicalKeys Layer.canonicalKeys? fun _ _ => rfl]
    rfl
  keyAliases := by
    intro spelling
    apply Config.foldl_withLayer_or (fun config => config.keyAliases.get? spelling)
    intro layer hlayer config
    exact Dictionary.get?_insertAll config.keyAliases (h layer hlayer) spelling
  ordered := ordered_foldl_withLayer (Dictionary.ordered_ofList _) layers
  exclude := by
    rw [← addPatterns_nil]
    exact congrArg (· ++ arguments.exclude) (exclude_foldl_withLayer layers Config.standard)

theorem effectiveConfig_eq_ok_iff {arguments : Arguments} (h : arguments.config = none)
    (disk : Disk) (environment : Environment) (config : Config) :
    effectiveConfig disk environment arguments = .ok config ↔
      config = arguments.layered (disk.usableLayers (disk.configFiles environment arguments.path)) ∧
        config.defect? = none := by
  have hfiles : fileConfig disk environment arguments =
      .ok (disk.discoveredConfig environment arguments.path) := by
    unfold fileConfig
    rw [h]
  unfold effectiveConfig
  rw [hfiles]
  dsimp only
  split
  · next defect hdefect =>
      refine iff_of_false (by simp) ?_
      rintro ⟨rfl, hnone⟩
      cases hdefect.symm.trans hnone
  · next hdefect =>
      constructor
      · intro heq
        cases heq
        exact ⟨rfl, hdefect⟩
      · rintro ⟨rfl, _⟩
        rfl

/-- Without a configuration file among the arguments, the configuration of a session is
made of the usable files that are found and of the arguments, with the precedence that
is stated for any layers, and the session has a configuration exactly if this one is
accepted. -/
theorem effectiveConfig_precedence {arguments : Arguments} (h : arguments.config = none) :
    (∀ layers : List Layer, (∀ layer ∈ layers, layer.keyAliases.Ordered) →
      Precedence layers arguments (arguments.layered layers)) ∧
      ∀ (disk : Disk) (environment : Environment),
        let layers := disk.usableLayers (disk.configFiles environment arguments.path)
        Precedence layers arguments (arguments.layered layers) ∧
          ∀ config, effectiveConfig disk environment arguments = .ok config ↔
            config = arguments.layered layers ∧ config.Accepted := by
  constructor
  · intro layers hlayers
    exact precedence_layered hlayers arguments
  · intro disk environment layers
    have hprecedence : Precedence layers arguments (arguments.layered layers) :=
      precedence_layered (fun layer hlayer => Disk.ordered_of_mem_usableLayers hlayer) arguments
    refine ⟨hprecedence, ?_⟩
    intro config
    rw [effectiveConfig_eq_ok_iff h]
    apply and_congr_right
    rintro rfl
    exact Config.accepted_iff hprecedence.ordered

def nestedFiles : Disk where
  root :=
    (Listing.empty.putFile (Text.encode "indent_width=4\nexclude=['a','b']".toList)
        [configFileName]).putFile
      (Text.encode "indent_width=8\nexclude=['b']\nkey_aliases.Link='Ref'".toList)
      [Path.of "w", configFileName]
  current := [Path.of "w"]

def nestedLayers : List Layer :=
  [{ indentWidth? := some 4, replaceTabs? := none, fixIndent? := none, fixDocu? := none,
     excludedDirs? := none, excludedExtensions? := none, canonicalKeys? := none,
     exclude := ["a".toList, "b".toList], keyAliases := [] },
   { indentWidth? := some 8, replaceTabs? := none, fixIndent? := none, fixDocu? := none,
     excludedDirs? := none, excludedExtensions? := none, canonicalKeys? := none,
     exclude := ["b".toList], keyAliases := [("Link".toList, "Ref".toList)] }]

def tabKeepingArguments : Arguments where
  path := Path.of "/w"
  indentWidth := none
  noTabs := true
  noIndent := false
  noDocu := false
  simulate := false
  exclude := ["a".toList]
  skipExtensions := ["..md".toList]
  config := none
  debug := false
  silent := false

theorem effectiveConfig_precedence_nestedFiles :
    ∃ config, effectiveConfig nestedFiles ⟨none, none⟩ tabKeepingArguments = .ok config ∧
      config.indentWidth = 8 ∧ config.replaceTabs = false ∧ config.fixDocu = true ∧
      config.excludedExtensions = ["csproj".toList, "py".toList, "txt".toList, "md".toList] ∧
      config.exclude = ["a".toList, "b".toList, "a".toList] ∧
      config.keyAliases.get? "Link".toList = some "Ref".toList := by
  have hlayers : nestedFiles.usableLayers
      (nestedFiles.configFiles ⟨none, none⟩ tabKeepingArguments.path) = nestedLayers := by
    decide +kernel
  rcases (@effectiveConfig_precedence tabKeepingArguments rfl).2 nestedFiles ⟨none, none⟩ with
    ⟨hprecedence, hconfig⟩
  rw [hlayers] at hprecedence hconfig
  have haccepted := (Config.accepted_iff hprecedence.ordered).mp (by decide +kernel)
  refine ⟨_, (hconfig _).mpr ⟨rfl, haccepted⟩, ?_, ?_, ?_, ?_, ?_, ?_⟩
  · rw [hprecedence.indentWidth]
    rfl
  · rw [hprecedence.replaceTabs]
    rfl
  · rw [hprecedence.fixDocu]
    rfl
  · rw [hprecedence.excludedExtensions]
    decide
  · rw [hprecedence.exclude]
    decide
  · rw [hprecedence.keyAliases]
    rfl

end CommandLine
end SourceTidy
