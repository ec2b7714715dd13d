import PackageGraph.Proofs.Settings.Escapes
/-!
# Precedence of settings

Every setting takes its value from the highest of four layers that defines it: the command, the configuration file, the
environment, and the built-in settings. Package sources that are given one by one add to those of a given file, or else
to the configured ones. A given file counts as absent if no source in it is enabled and there are some to add: then the
configured ones show through.
-/
namespace PackageGraph

open Except

/-- The value, unless it is absent. -/
def Value.defined : Value → Option Value
  | .null => none
  | v => some v

/-! ## Layers -/

namespace Settings

/-- What the environment defines. -/
def environmentValue? (env : Environment) : Setting → Option Value
  | .verbosity =>
    let verbosity := Text.trim (env.valueOf verbosityVariable)
    if verbosity.isEmpty then none else some (.text verbosity)
  | _ => none

/-- A layer decides about what it defines. -/
theorem override_eq (s : Settings) (layer : Overrides) (setting : Setting) :
    s.override layer setting = ((OrderedMap.get? layer setting).bind Value.defined).getD (s setting) := by
  unfold override
  cases OrderedMap.get? layer setting with
  | none => rfl
  | some v => cases v <;> rfl

theorem defined_environmentLayer (env : Environment) (setting : Setting) :
    (OrderedMap.get? (environmentLayer env) setting).bind Value.defined = environmentValue? env setting := by
  unfold environmentLayer environmentValue?
  generalize Text.trim (env.valueOf verbosityVariable) = verbosity
  cases hblank : verbosity.isEmpty with
  | true => cases setting <;> simp [hblank, OrderedMap.get?]
  | false => cases setting <;> simp [hblank, OrderedMap.get?, Value.defined]

end Settings

namespace ConfigFile

variable {fs : FileSystem} {env : Environment} {path : String} {layer set : Overrides} {entries : List Entry}

/-- The package sources in the file that an entry names. -/
def namedSources? (fs : FileSystem) (env : Environment) (e : Entry) : Option (List String) :=
  (textOf e.value).toOption.bind fun text => (PackageSources.load fs (env.expandHome text)).result.toOption

/-- What an entry sets a setting to: one with the name of the setting its value, and one that names a file of package
sources the sources in it. -/
def entryValue? (fs : FileSystem) (env : Environment) (path : String) (setting : Setting) (e : Entry) : Option Value :=
  match e.key with
  | .text name =>
    if name = setting.name then (coerce path setting e).toOption
    else if setting = .packageSources ∧ name = sourcesKey then
      (namedSources? fs env e).map fun sources => .list (sources.map .text)
    else none
  | _ => none

/-- What the entries define a setting as: the last of them that is about it decides. -/
def value? (fs : FileSystem) (env : Environment) (path : String) (entries : List Entry) (setting : Setting) :
    Option Value :=
  (entries.filterMap (entryValue? fs env path setting)).getLast?.bind Value.defined

/-- An entry that can be used sets what it is about, and nothing else. -/
theorem entryValue?_eq {e : Entry} {set? : Option (Setting × Value)} (h : (setting? fs env path e).result = .ok set?)
    (setting : Setting) :
    entryValue? fs env path setting e = set?.bind fun set => if set.1 = setting then some set.2 else none := by
  rcases key_cases e.key with hkey | ⟨named, hkey⟩ | ⟨hsources, hnamed⟩
  · -- the key of a file of package sources is the name of no setting
    rw [result_setting?_sourcesFile hkey] at h
    obtain ⟨text, htext, h⟩ := bind_eq_ok_iff.1 h
    obtain ⟨sources, hload, h⟩ := bind_eq_ok_iff.1 h
    obtain rfl := Except.ok.inj h
    have hfound : namedSources? fs env e = some sources := by
      rw [namedSources?, htext, Except.toOption, Option.bind_some, hload, Except.toOption]
    simp only [entryValue?, hkey, (name_ne_sourcesKey setting).symm, if_false, and_true, hfound]
    by_cases hsetting : setting = .packageSources
    · simp [hsetting]
    · simp [hsetting, Ne.symm hsetting]
  · rw [result_setting?_named hkey] at h
    obtain ⟨v, hv, h⟩ := bind_eq_ok_iff.1 h
    obtain rfl := Except.ok.inj h
    by_cases hsetting : named = setting
    · subst hsetting
      simp [entryValue?, hkey, hv, Except.toOption]
    · have hname : named.name ≠ setting.name := fun hname => hsetting (name_injective (congrArg Value.text hname))
      simp [entryValue?, hkey, hname, name_ne_sourcesKey, hsetting]
  · -- an unknown key sets nothing
    rw [result_setting?_unknown hsources hnamed] at h
    obtain rfl := Except.ok.inj h
    cases hkey : e.key with
    | text name =>
      have hname : name ≠ setting.name := fun hname => hnamed setting (by rw [hkey, hname])
      have hsource : name ≠ sourcesKey := fun hname => hsources (by rw [hkey, hname])
      simp [entryValue?, hkey, hname, hsource]
    | _ => simp [entryValue?, hkey]

/-- By induction on the entries, each of which takes the place of those before it. -/
theorem get?_layerOf (h : (layerOf fs env path layer entries).result = .ok set) (setting : Setting) :
    OrderedMap.get? set setting =
      (entries.filterMap (entryValue? fs env path setting)).getLast?.or (OrderedMap.get? layer setting) := by
  induction entries generalizing layer with
  | nil =>
    obtain rfl := Except.ok.inj h
    rfl
  | cons e entries ih =>
    rw [layerOf, Logged.result_bind] at h
    obtain ⟨set?, hset, h⟩ := bind_eq_ok_iff.1 h
    have hentry := entryValue?_eq hset setting
    cases set? with
    | none => rw [ih h, List.filterMap_cons_none hentry]
    | some pair =>
      obtain ⟨other, v⟩ := pair
      rw [ih h, OrderedMap.get?_put]
      by_cases hother : other = setting
      · rw [Option.bind_some, if_pos hother] at hentry
        rw [List.filterMap_cons_some hentry, List.getLast?_cons, if_pos (by simpa using hother)]
        cases (entries.filterMap (entryValue? fs env path setting)).getLast? <;> rfl
      · rw [Option.bind_some, if_neg hother] at hentry
        rw [List.filterMap_cons_none hentry, if_neg (by simpa using hother)]

end ConfigFile

namespace GivenSettings

variable {g : GivenSettings} {fs : FileSystem} {env : Environment} {settings : Settings}

/-- What is given with the command. -/
def value? (g : GivenSettings) : Setting → Option Value
  | .toolPath => g.toolPath.defined
  | .verbosity => g.verbosity.defined
  | .timeout => g.timeout.defined
  | .maxConcurrency => g.maxConcurrency.defined
  | .recursive => if g.noRecursion then some (.bool false) else .none
  | _ => .none

theorem defined_plainLayer (sources : Value) {setting : Setting} (h : setting ≠ .packageSources) :
    (OrderedMap.get? ((.packageSources, sources) :: g.plainLayer) setting).bind Value.defined = g.value? setting := by
  cases setting with
  | packageSources => exact absurd rfl h
  | recursive =>
    show (if g.noRecursion then Value.bool false else .null).defined = _
    rw [value?]
    cases g.noRecursion <;> rfl
  | _ => rfl

/-- What has been read for the settings: the entries of the configuration file, the package sources in the file that is
given, and the configured ones. -/
structure IsRead (g : GivenSettings) (fs : FileSystem) (env : Environment) (entries : List ConfigFile.Entry)
    (fromFile? : Option (List String)) (configured : List String) : Prop where
  read : ConfigFile.read fs g.config = .ok entries
  sourcesFile : (g.sourcesFromFile fs).result = .ok fromFile?
  sources : (ConfigFile.value? fs env (g.config.getD "") entries .packageSources).getD (.list []) =
    .list (configured.map .text)

/-- The settings below those of the command. -/
theorem configured_eq {set : Overrides} {entries : List ConfigFile.Entry}
    (hset : (ConfigFile.layerOf fs env (g.config.getD "") [] entries).result = .ok set) (setting : Setting) :
    (Settings.ofEnvironment env).override set setting =
      ((ConfigFile.value? fs env (g.config.getD "") entries setting).or
        (Settings.environmentValue? env setting)).getD (Settings.defaults env setting) := by
  rw [Settings.override_eq, ConfigFile.get?_layerOf hset, OrderedMap.get?, Option.or_none, Settings.ofEnvironment,
    Settings.override_eq, Settings.defined_environmentLayer, ← ConfigFile.value?]
  cases ConfigFile.value? fs env (g.config.getD "") entries setting <;> rfl

/-- What the settings in effect are made of is read first. -/
theorem exists_isRead (h : (g.resolve fs env).result = .ok settings) :
    ∃ entries fromFile? configured set, g.IsRead fs env entries fromFile? configured ∧
      (ConfigFile.layerOf fs env (g.config.getD "") [] entries).result = .ok set ∧
      settings = ((Settings.ofEnvironment env).override set).override
        ((.packageSources, givenSources configured fromFile? g.moreSources) :: g.plainLayer) := by
  rw [resolve, Logged.result_bind] at h
  obtain ⟨set, hlayer, h⟩ := bind_eq_ok_iff.1 h
  rw [Logged.result_bind] at h
  obtain ⟨fromFile?, hfromFile, h⟩ := bind_eq_ok_iff.1 h
  rw [Logged.result_bind, Logged.result_ofExcept] at h
  obtain ⟨sources, hsources, h⟩ := bind_eq_ok_iff.1 h
  obtain ⟨texts, htexts⟩ := isOfKind_configured env (ConfigFile.isTyped_of_layer hlayer) .packageSources
  obtain rfl : texts = sources := Except.ok.inj ((Settings.sources_of_list htexts).symm.trans hsources)
  rw [ConfigFile.layer, Logged.result_bind, Logged.result_ofExcept] at hlayer
  obtain ⟨entries, hread, hset⟩ := bind_eq_ok_iff.1 hlayer
  refine ⟨entries, fromFile?, texts, set, ⟨hread, hfromFile, ?_⟩, hset, (Except.ok.inj h).symm⟩
  have hconfigured := (configured_eq hset .packageSources).symm.trans htexts
  have henvironment : Settings.environmentValue? env .packageSources = .none := rfl
  rwa [henvironment, Option.or_none] at hconfigured

theorem list_text_inj {texts others : List String} :
    Value.list (texts.map .text) = .list (others.map .text) ↔ texts = others := by
  refine ⟨fun h => ?_, fun h => by rw [h]⟩
  exact List.map_injective_iff.2 (fun _ _ => Value.text.inj) (Value.list.inj h)

/-- What is read is read once. -/
theorem IsRead.unique {entries entries' : List ConfigFile.Entry} {fromFile? fromFile?' : Option (List String)}
    {configured configured' : List String} (h : g.IsRead fs env entries fromFile? configured)
    (h' : g.IsRead fs env entries' fromFile?' configured') :
    entries = entries' ∧ fromFile? = fromFile?' ∧ configured = configured' := by
  obtain rfl : entries = entries' := Except.ok.inj (h.read.symm.trans h'.read)
  obtain rfl : fromFile? = fromFile?' := Except.ok.inj (h.sourcesFile.symm.trans h'.sourcesFile)
  exact ⟨rfl, rfl, list_text_inj.1 (h.sources.symm.trans h'.sources)⟩

/-! ## Package sources -/

variable {configured more : List String} {fromFile? : Option (List String)}

/-- The package sources in effect. A file without sources that are enabled does not count if there are more. -/
def sourcesInEffect (configured : List String) (fromFile? : Option (List String)) (more : List String) : List String :=
  extend (if fromFile? = some [] ∧ more ≠ [] then configured else fromFile?.getD configured) more

theorem extend_nil (base : List String) : extend base [] = base := List.append_nil base

theorem nil_extend (more : List String) : extend [] more = more := by
  rw [extend, List.nil_append]
  exact List.filter_eq_self.2 fun _ _ => rfl

theorem givenSources_eq : (givenSources configured fromFile? more).defined.getD (.list (configured.map .text)) =
    .list ((sourcesInEffect configured fromFile? more).map .text) := by
  unfold givenSources sourcesInEffect
  cases more with
  | nil =>
    -- nothing is added, so a file without sources counts like every other
    have hnone : ¬ (fromFile? = some [] ∧ ([] : List String) ≠ []) := fun h => h.2 rfl
    rw [if_neg hnone, extend_nil]
    cases fromFile? <;> rfl
  | cons source more =>
    -- with something to add, a file without sources and no file are the same
    match fromFile? with
    | .none => rfl
    | some [] => rfl
    | some (_ :: _) => rfl

/-- The sources of a file take the place of the configured ones, unless it has none and there are more. -/
theorem sourcesInEffect_eq_iff : sourcesInEffect configured fromFile? more = extend (fromFile?.getD configured) more ↔
    ¬ (fromFile? = some [] ∧ more ≠ [] ∧ extend configured more ≠ more) := by
  unfold sourcesInEffect
  split
  · rename_i h
    obtain ⟨rfl, hmore⟩ := h
    rw [Option.getD_some, nil_extend]
    simp [hmore]
  · rename_i h
    exact iff_of_true rfl fun ⟨hfile, hmore, _⟩ => h ⟨hfile, hmore⟩

/-- Other configured sources make a difference to a file only if it has none and there are more. -/
theorem sourcesInEffect_congr_iff {other enabled : List String} : sourcesInEffect other (some enabled) more =
    sourcesInEffect configured (some enabled) more ↔
      ¬ (enabled = [] ∧ more ≠ [] ∧ extend other more ≠ extend configured more) := by
  unfold sourcesInEffect
  simp only [Option.some.injEq, Option.getD_some]
  split
  · rename_i h
    simp [h]
  · rename_i h
    exact iff_of_true rfl fun ⟨hfile, hmore, _⟩ => h ⟨hfile, hmore⟩

/-! ## Settings in effect -/

/-- The value of the highest layer that defines a setting: the command, the configuration file, the environment, or
else the built-in settings. -/
def highest (g : GivenSettings) (fs : FileSystem) (env : Environment) (entries : List ConfigFile.Entry)
    (setting : Setting) : Value :=
  ((g.value? setting).or ((ConfigFile.value? fs env (g.config.getD "") entries setting).or
    (Settings.environmentValue? env setting))).getD (Settings.defaults env setting)

/-- The settings in effect, by what has been read. -/
theorem settings_of_resolve (h : (g.resolve fs env).result = .ok settings) {entries : List ConfigFile.Entry}
    (hread : g.IsRead fs env entries fromFile? configured) :
    (∀ setting, setting ≠ .packageSources → settings setting = g.highest fs env entries setting) ∧
      settings .packageSources = .list ((sourcesInEffect configured fromFile? g.moreSources).map .text) := by
  obtain ⟨_, _, _, set, hread', hset, rfl⟩ := exists_isRead h
  obtain ⟨rfl, rfl, rfl⟩ := hread.unique hread'
  constructor
  · intro setting hsetting
    rw [Settings.override_eq, defined_plainLayer _ hsetting, configured_eq hset, highest]
    cases g.value? setting <;> rfl
  · have henvironment : Settings.environmentValue? env .packageSources = .none := rfl
    have hdefault : Settings.defaults env .packageSources = .list [] := rfl
    rw [Settings.override_eq, configured_eq hset, henvironment, Option.or_none, hdefault, hread.sources]
    exact givenSources_eq

/-- Every setting but the package sources has the value of the highest layer that defines it. The package sources are
those of the file that is given, or else the configured ones, with the ones that are given one by one at the end; only
where no source in the file is enabled and there are some to add do the configured ones count though a file is given. -/
theorem resolve_takes_highest (h : (g.resolve fs env).result = .ok settings) :
    ∃ entries fromFile? configured, g.IsRead fs env entries fromFile? configured ∧
      (∀ setting, setting ≠ .packageSources → settings setting = g.highest fs env entries setting) ∧
      settings .packageSources = .list ((sourcesInEffect configured fromFile? g.moreSources).map .text) ∧
      (settings .packageSources = .list ((extend (fromFile?.getD configured) g.moreSources).map .text) ↔
        ¬ (fromFile? = some [] ∧ g.moreSources ≠ [] ∧ extend configured g.moreSources ≠ g.moreSources)) ∧
      ∀ fs' settings' entries' enabled configured', (g.resolve fs' env).result = .ok settings' →
        g.IsRead fs' env entries' (some enabled) configured' → fromFile? = some enabled →
        (∀ setting, setting ≠ .packageSources → ConfigFile.value? fs' env (g.config.getD "") entries' setting =
          ConfigFile.value? fs env (g.config.getD "") entries setting) →
        (settings' = settings ↔ ¬ (enabled = [] ∧ g.moreSources ≠ [] ∧
          extend configured' g.moreSources ≠ extend configured g.moreSources)) := by
  obtain ⟨entries, fromFile?, configured, -, hread, -, -⟩ := exists_isRead h
  obtain ⟨hplain, hsources⟩ := settings_of_resolve h hread
  refine ⟨entries, fromFile?, configured, hread, hplain, hsources, ?_, ?_⟩
  · rw [hsources, list_text_inj]
    exact sourcesInEffect_eq_iff
  · rintro fs' settings' entries' enabled configured' h' hread' rfl hsame
    obtain ⟨hplain', hsources'⟩ := settings_of_resolve h' hread'
    rw [← sourcesInEffect_congr_iff, ← list_text_inj, ← hsources, ← hsources']
    refine ⟨fun heq => by rw [heq], fun heq => funext fun setting => ?_⟩
    by_cases hsetting : setting = .packageSources
    · rw [hsetting, heq]
    · rw [hplain' setting hsetting, hplain setting hsetting, highest, highest, hsame setting hsetting]

/-- A directory with a configuration file and a file of package sources. -/
def filesWith (config sources : String) : FileSystem :=
  ⟨[(["w"], .directory), (["w", "c.yml"], .file (config.toList.map fun c => c.toNat.toUInt8)),
    (["w", "NuGet.Config"], .file (sources.toList.map fun c => c.toNat.toUInt8))], ["w"]⟩

/-- Both files are given, with the executable and one more source. -/
def givenFiles : GivenSettings :=
  { none with
    config := some "c.yml", sourcesFile := some "NuGet.Config", toolPath := .text "/opt/dotnet", moreSources := ["x"] }

/-- An environment that sets how much the build tool says. -/
def sampleEnvironment : Environment := ⟨[(Settings.verbosityVariable, "n")], "/tmp", "/root"⟩

/-- A configuration file that sets how much the build tool says, and sources in either file. -/
def layeredFiles : FileSystem :=
  filesWith "msbuild_verbosity: d\npackage_sources: [a]"
    "<configuration><packageSources><add key=\"k\" value=\"s\"/></packageSources></configuration>"

/-- Each setting is taken from the highest layer that gives it, and more sources are added to those in effect. -/
theorem resolve_takes_highest_layeredFiles :
    ∃ settings, (givenFiles.resolve layeredFiles sampleEnvironment).result = .ok settings ∧
      settings .toolPath = .text "/opt/dotnet" ∧ (settings .verbosity).plain = "d" ∧
      (settings .maxConcurrency).plain = "8" ∧ settings .packageSources = .list [.text "s", .text "x"] := by
  have hlower : (givenFiles.resolve layeredFiles sampleEnvironment).result.map
      (fun settings => ((settings .verbosity).plain, (settings .maxConcurrency).plain)) = .ok ("d", "8") := by
    decide +kernel
  have hfile : (givenFiles.sourcesFromFile layeredFiles).result = .ok (some ["s"]) := by decide +kernel
  obtain ⟨settings, hsettings, hlower⟩ := map_eq_ok_iff.1 hlower
  obtain ⟨hverbosity, hconcurrency⟩ := Prod.mk.inj hlower
  obtain ⟨entries, fromFile?, configured, hread, hhighest, -, hsources, -⟩ := resolve_takes_highest hsettings
  obtain rfl := Except.ok.inj (hread.sourcesFile.symm.trans hfile)
  exact ⟨settings, hsettings, hhighest .toolPath (by decide), hverbosity, hconcurrency, hsources.2 (by simp)⟩

/-- A file in which no source is enabled lets the configured sources through. -/
theorem not_sources_of_given_file :
    ¬ ∀ (g : GivenSettings) (fs : FileSystem) (env : Environment) (settings : Settings)
      (entries : List ConfigFile.Entry) (fromFile? : Option (List String)) (configured : List String),
      (g.resolve fs env).result = .ok settings → g.IsRead fs env entries fromFile? configured →
        settings .packageSources = .list ((extend (fromFile?.getD configured) g.moreSources).map .text) := by
  intro hclaim
  have hsources : (givenFiles.resolve (filesWith "package_sources: [a]" "<configuration/>")
      sampleEnvironment).result.map (fun settings => settings.sources.toOption) = .ok (some ["a", "x"]) := by
    decide +kernel
  have hfile : (givenFiles.sourcesFromFile (filesWith "package_sources: [a]" "<configuration/>")).result =
      .ok (some []) := by decide +kernel
  obtain ⟨settings, hsettings, hvalue⟩ := map_eq_ok_iff.1 hsources
  obtain ⟨entries, fromFile?, configured, -, hread, -, -⟩ := exists_isRead hsettings
  obtain rfl := Except.ok.inj (hread.sourcesFile.symm.trans hfile)
  have hgiven := hclaim _ _ _ _ _ _ _ hsettings hread
  rw [Settings.sources_of_list hgiven] at hvalue
  have hextended : extend [] ["x"] = ["a", "x"] := Option.some.inj hvalue
  revert hextended
  decide

end GivenSettings
end PackageGraph
