import PackageGraph.Proofs.OrderedMap
import PackageGraph.Proofs.Project.Escapes
import PackageGraph.Settings.Given
/-!
# What escapes from the settings

A configuration file ends a run without an exit code by a document that breaks off, by a number that is out of range
for its setting, by package sources that are no list, and by a file of package sources in an unknown encoding. Once the
settings are there, each is of the kind that it is used as: the package sources are texts, and the time limit and how
many projects are worked on at a time are numbers.
-/
namespace PackageGraph

open Except

namespace ConfigFile

variable {fs : FileSystem} {env : Environment} {path : String}

/-- The configuration file is a text from which no document is made, and for a reason that has no exit code. -/
def HasUnreportedFault (fs : FileSystem) (path? : Option String) : Prop :=
  ∃ path text f, path?.filter (!·.isEmpty) = some path ∧ fs.readText path = .ok text ∧
    Yaml.parse (Text.unifyLineEnds text) = .error f ∧ f ≠ .yaml ∧ ¬ f.IsReported

/-- What an entry of a configuration file is for ends the run without an exit code. -/
inductive EntryEscapes (fs : FileSystem) (env : Environment) (e : Entry) : Prop
  | sourcesFile (hkey : e.key = .text sourcesKey) (hwritable : e.value.isWritable = true)
    (hencoding : fs.DeclaresUnknownEncoding (env.expandHome e.value.plain))
  | timeout (n : Int) (negative : Bool) (hkey : e.key = .text Setting.timeout.name) (hvalue : e.value = .int n)
    (hrange : Binary64.ofInt n = .infinite negative)
  | maxConcurrency (negative : Bool) (hkey : e.key = .text Setting.maxConcurrency.name)
    (hvalue : e.value = .float (.infinite negative))
  | packageSources (hkey : e.key = .text Setting.packageSources.name) (hvalue : e.isFalsy = false)
    (helements : e.document.elements? e.place = none)

/-! ## Entries -/

/-- A document that is no mapping is reported, and so is a section that is none. -/
theorem entriesOf_failsOnlyWith (d : Yaml.Document) : FailsOnlyWith Error.IsReported (entriesOf path d) := by
  unfold entriesOf
  split
  · exact .ok []
  · split
    · exact .error rfl
    · simp only
      split
      · exact .ok _
      · exact .error rfl

/-- Reading a configuration file escapes with a fault of the parser that is not reported, and with nothing else. -/
theorem escapes_read_iff {path? : Option String} : Escapes (read fs path?) ↔ HasUnreportedFault fs path? := by
  unfold read HasUnreportedFault
  cases path?.filter (!·.isEmpty) with
  | none => exact iff_of_false (not_escapes_ok _) (by simp)
  | some path =>
    simp only [Option.some.injEq]
    cases htext : fs.readText path with
    | error f =>
      have hreported : f.IsReported := FileSystem.readText_failsOnlyWith path f htext
      refine iff_of_false (fun h => escapes_error_iff.1 h hreported) ?_
      rintro ⟨_, text, _, rfl, hread, -⟩
      rw [htext] at hread
      cases hread
    | ok text =>
      -- the path and the text are known here, which leaves the fault of the parser
      have hparsed : (∃ path' text' f, path = path' ∧ fs.readText path' = .ok text' ∧
          Yaml.parse (Text.unifyLineEnds text') = .error f ∧ f ≠ .yaml ∧ ¬ f.IsReported) ↔
            ∃ f, Yaml.parse (Text.unifyLineEnds text) = .error f ∧ f ≠ .yaml ∧ ¬ f.IsReported := by
        simp [htext]
      rw [hparsed]
      simp only
      cases Yaml.parse (Text.unifyLineEnds text) with
      | ok d =>
        refine iff_of_false (not_escapes_of_failsOnlyWith (entriesOf_failsOnlyWith d)) ?_
        rintro ⟨f, hf, -⟩
        cases hf
      | error f =>
        simp only [Except.error.injEq, exists_eq_left']
        cases f <;> first
          | exact iff_of_true (escapes_error_iff.2 (by decide)) ⟨nofun, by decide⟩
          | exact iff_of_false (fun h => escapes_error_iff.1 h rfl) fun h => h.1 rfl
          | exact iff_of_false (fun h => escapes_error_iff.1 h rfl) fun h => h.2 rfl

/-! ### Values of settings -/

/-- A value that is unfit for its setting escapes if it is out of range. -/
theorem escapes_mapError_unfitError_iff {x : Except Unfit Value} {setting : Setting} {v : Value} :
    Escapes (x.mapError (unfitError path setting v)) ↔ x = .error .outOfRange := by
  cases x with
  | ok w => exact iff_of_false (not_escapes_ok w) nofun
  | error unfit =>
    cases unfit with
    | wrongValue =>
      refine iff_of_false (fun h => escapes_error_iff.1 h ?_) nofun
      rw [unfitError]
      split
      · rfl
      · rfl
    | outOfRange =>
      have hunreported : ¬ (Error.fault .overflow).IsReported := by decide
      exact iff_of_true (escapes_error_iff.2 hunreported) rfl

/-- Only an integer beyond all floating-point numbers is out of range for one. -/
theorem asFloat_eq_outOfRange_iff {v : Value} : asFloat v = .error .outOfRange ↔
    ∃ n negative, v = .int n ∧ Binary64.ofInt n = .infinite negative := by
  cases v with
  | int n =>
    rw [asFloat]
    cases hn : Binary64.ofInt n <;> simp [hn]
  | text s =>
    rw [asFloat]
    cases Number.float? s.toList <;> simp
  | octets bytes =>
    rw [asFloat]
    cases (asciiText? bytes).bind Number.float? <;> simp
  | _ => simp [asFloat]

/-- Only an infinite number is out of range for an integer. -/
theorem asInt_eq_outOfRange_iff {v : Value} : asInt v = .error .outOfRange ↔
    ∃ negative, v = .float (.infinite negative) := by
  cases v with
  | float x =>
    cases x with
    | infinite negative => simp [asInt]
    | nan => simp [asInt, Binary64.truncate?]
    | finite negative mantissa exponent => simp [asInt, Binary64.truncate?]
  | text s =>
    rw [asInt]
    cases Number.int? s.toList <;> simp
  | octets bytes =>
    rw [asInt]
    cases (asciiText? bytes).bind fun cs => (Number.int? cs).toOption <;> simp
  | _ => simp [asInt]

/-- A value that cannot be written as a text is reported. -/
theorem not_escapes_textOf (v : Value) : ¬ Escapes (textOf v) := by
  unfold textOf
  split
  · exact not_escapes_ok _
  · exact fun h => escapes_error_iff.1 h rfl

/-- A value without elements escapes where a list is asked for, unless it counts as missing. -/
theorem escapes_asTexts_iff {e : Entry} :
    Escapes (asTexts e) ↔ e.isFalsy = false ∧ e.document.elements? e.place = none := by
  unfold asTexts
  cases e.isFalsy with
  | true => exact iff_of_false (not_escapes_ok _) nofun
  | false =>
    simp only [Bool.false_eq_true, if_false, true_and]
    cases e.document.elements? e.place with
    | none => exact iff_of_true (escapes_error_iff.2 (by decide)) rfl
    | some items =>
      refine iff_of_false (fun h => ?_) nofun
      obtain ⟨before, v, after, -, -, hv⟩ := escapes_mapM_iff.1 (escapes_bind_pure_iff.1 h)
      exact not_escapes_textOf v hv

/-- Only three settings are refused without an exit code. -/
theorem escapes_coerce_iff {setting : Setting} {e : Entry} : Escapes (coerce path setting e) ↔
    (setting = .timeout ∧ ∃ n negative, e.value = .int n ∧ Binary64.ofInt n = .infinite negative) ∨
      (setting = .maxConcurrency ∧ ∃ negative, e.value = .float (.infinite negative)) ∨
        (setting = .packageSources ∧ e.isFalsy = false ∧ e.document.elements? e.place = none) := by
  cases setting with
  | timeout => simp [coerce, escapes_mapError_unfitError_iff, asFloat_eq_outOfRange_iff]
  | maxConcurrency => simp [coerce, escapes_mapError_unfitError_iff, asInt_eq_outOfRange_iff]
  | packageSources => simp [coerce, escapes_asTexts_iff]
  | _ => simp [coerce, not_escapes_ok]

/-! ### What an entry sets -/

theorem ofName?_name (setting : Setting) : Setting.ofName? setting.name = some setting := by
  cases setting <;> rfl

theorem name_ne_sourcesKey (setting : Setting) : setting.name ≠ sourcesKey := by
  cases setting <;> decide

/-- A key names a file of package sources, a setting, or nothing. -/
theorem key_cases (key : Value) : key = .text sourcesKey ∨ (∃ setting : Setting, key = .text setting.name) ∨
    (key ≠ .text sourcesKey ∧ ∀ setting : Setting, key ≠ .text setting.name) := by
  by_cases h : key = .text sourcesKey ∨ ∃ setting : Setting, key = .text setting.name
  · exact or_assoc.1 (.inl h)
  · exact .inr (.inr ⟨fun hkey => h (.inl hkey), fun setting hkey => h (.inr ⟨setting, hkey⟩)⟩)

theorem result_setting?_sourcesFile {e : Entry} (hkey : e.key = .text sourcesKey) :
    (setting? fs env path e).result = textOf e.value >>= fun text =>
      (PackageSources.load fs (env.expandHome text)).result >>= fun sources =>
        .ok (some (.packageSources, .list (sources.map .text))) := by
  simp only [setting?, hkey, beq_self_eq_true, if_true, Logged.result_bind, Logged.result_ofExcept,
    Logged.result_pure]

theorem result_setting?_named {e : Entry} {setting : Setting} (hkey : e.key = .text setting.name) :
    (setting? fs env path e).result = coerce path setting e >>= fun v => .ok (some (setting, v)) := by
  have hname : (setting.name == sourcesKey) = false := beq_eq_false_iff_ne.2 (name_ne_sourcesKey setting)
  simp only [setting?, hkey, hname, Bool.false_eq_true, if_false, ofName?_name, Logged.result_bind,
    Logged.result_ofExcept, Logged.result_pure]

theorem result_setting?_unknown {e : Entry} (hsources : e.key ≠ .text sourcesKey)
    (hnamed : ∀ setting : Setting, e.key ≠ .text setting.name) : (setting? fs env path e).result = .ok none := by
  unfold setting?
  cases hkey : e.key with
  | text name =>
    have hname : (name == sourcesKey) = false := beq_eq_false_iff_ne.2 fun h => hsources (by rw [hkey, h])
    have hsetting : Setting.ofName? name = none := by
      cases hfound : Setting.ofName? name with
      | none => rfl
      | some setting =>
        have hbeq := List.find?_some hfound
        exact absurd (by rw [hkey, beq_iff_eq.1 hbeq]) (hnamed setting)
    simp only [hname, hsetting, Bool.false_eq_true, if_false]
    rfl
  | _ => rfl

theorem textOf_eq_ok_iff {v : Value} {text : String} : textOf v = .ok text ↔ v.isWritable = true ∧ v.plain = text := by
  unfold textOf
  cases v.isWritable <;> simp

/-- A file of package sources escapes by its encoding. -/
theorem escapes_loadSources_iff {file : String} :
    Escapes (PackageSources.load fs file).result ↔ fs.DeclaresUnknownEncoding file := by
  rw [PackageSources.load, Logged.result_bind, Logged.result_ofExcept, escapes_bind_iff_left, escapes_readDocument_iff]
  exact fun root => not_escapes_ok _

theorem name_injective {setting other : Setting} (h : Value.text setting.name = .text other.name) :
    setting = other := by
  have hname : setting.name = other.name := Value.text.inj h
  exact Option.some.inj (by rw [← ofName?_name setting, hname, ofName?_name other])

/-- An entry escapes with what it is for: the file that it names, or the setting. -/
theorem escapes_setting?_iff {e : Entry} : Escapes (setting? fs env path e).result ↔ EntryEscapes fs env e := by
  rcases key_cases e.key with hkey | ⟨setting, hkey⟩ | ⟨hsources, hnamed⟩
  -- the keys tell the cases apart: the file of sources, a setting by its name, and all other keys
  · rw [result_setting?_sourcesFile hkey, escapes_bind_iff, or_iff_right (not_escapes_textOf e.value)]
    simp only [escapes_bind_iff_left fun _ => not_escapes_ok _, escapes_loadSources_iff, textOf_eq_ok_iff]
    constructor
    · rintro ⟨text, ⟨hwritable, rfl⟩, hencoding⟩
      exact .sourcesFile hkey hwritable hencoding
    · intro h
      cases h with
      | sourcesFile _ hwritable hencoding => exact ⟨_, ⟨hwritable, rfl⟩, hencoding⟩
      | timeout _ _ hother => exact absurd (Value.text.inj (hother.symm.trans hkey)) (name_ne_sourcesKey _)
      | maxConcurrency _ hother => exact absurd (Value.text.inj (hother.symm.trans hkey)) (name_ne_sourcesKey _)
      | packageSources hother => exact absurd (Value.text.inj (hother.symm.trans hkey)) (name_ne_sourcesKey _)
  · rw [result_setting?_named hkey, escapes_bind_iff_left fun _ => not_escapes_ok _, escapes_coerce_iff]
    constructor
    · rintro (⟨rfl, n, negative, hvalue, hrange⟩ | ⟨rfl, negative, hvalue⟩ | ⟨rfl, hvalue, helements⟩)
      · exact .timeout n negative hkey hvalue hrange
      · exact .maxConcurrency negative hkey hvalue
      · exact .packageSources hkey hvalue helements
    · intro h
      cases h with
      | sourcesFile hother => exact absurd (Value.text.inj (hkey.symm.trans hother)) (name_ne_sourcesKey _)
      | timeout n negative hother hvalue hrange =>
        exact .inl ⟨name_injective (hkey.symm.trans hother), n, negative, hvalue, hrange⟩
      | maxConcurrency negative hother hvalue =>
        exact .inr (.inl ⟨name_injective (hkey.symm.trans hother), negative, hvalue⟩)
      | packageSources hother hvalue helements =>
        exact .inr (.inr ⟨name_injective (hkey.symm.trans hother), hvalue, helements⟩)
  · rw [result_setting?_unknown hsources hnamed]
    refine iff_of_false (not_escapes_ok _) fun h => ?_
    cases h with
    | sourcesFile hkey => exact hsources hkey
    | timeout _ _ hkey => exact hnamed _ hkey
    | maxConcurrency _ hkey => exact hnamed _ hkey
    | packageSources hkey => exact hnamed _ hkey

/-- A configuration file escapes with the first entry that cannot be used. -/
theorem escapes_layerOf_iff {layer : Overrides} {entries : List Entry} :
    Escapes (layerOf fs env path layer entries).result ↔
      FailsFirst (fun e => (setting? fs env path e).result) (EntryEscapes fs env) entries := by
  induction entries generalizing layer with
  | nil => exact iff_of_false (not_escapes_ok _) not_failsFirst_nil
  | cons e entries ih =>
    have hsetting : Escapes (setting? fs env path e).result ↔ EntryEscapes fs env e := escapes_setting?_iff
    rw [failsFirst_cons_iff, ← hsetting, layerOf, Logged.result_bind]
    refine escapes_bind_iff_const fun set? => ?_
    cases set? with
    | none => exact ih
    | some set => exact ih

/-- What a configuration file sets, or whether it escapes, depends on its entries. -/
theorem escapes_layer_iff {path? : Option String} : Escapes (layer fs env path?).result ↔
    HasUnreportedFault fs path? ∨ ∃ entries, read fs path? = .ok entries ∧
      FailsFirst (fun e => (setting? fs env (path?.getD "") e).result) (EntryEscapes fs env) entries := by
  rw [layer, Logged.result_bind, Logged.result_ofExcept, escapes_bind_iff, escapes_read_iff]
  simp only [escapes_layerOf_iff]

/-! ## Settings in effect -/

/-- The value is a list of texts. -/
def IsTextList (v : Value) : Prop := ∃ texts : List String, v = .list (texts.map .text)

/-- The value is of the kind that those who use the setting accept, where it matters to them. -/
def IsOfKind : Setting → Value → Prop
  | .packageSources, v => IsTextList v
  | .timeout, v => ∃ x, v = .float x
  | .maxConcurrency, v => ∃ n, v = .int n
  | _, _ => True

/-- Whatever is set is of the kind of its setting. -/
def IsTyped (layer : Overrides) : Prop :=
  ∀ setting v, OrderedMap.get? layer setting = some v → IsOfKind setting v

theorem asFloat_eq_ok {v w : Value} (h : asFloat v = .ok w) : ∃ x, w = .float x := by
  unfold asFloat at h
  split at h
  · exact ⟨_, (Except.ok.inj h).symm⟩
  · split at h
    · cases h
    · exact ⟨_, (Except.ok.inj h).symm⟩
  · exact ⟨_, (Except.ok.inj h).symm⟩
  · split at h
    · exact ⟨_, (Except.ok.inj h).symm⟩
    · cases h
  · split at h
    · exact ⟨_, (Except.ok.inj h).symm⟩
    · cases h
  · cases h

theorem asInt_eq_ok {v w : Value} (h : asInt v = .ok w) : ∃ n, w = .int n := by
  unfold asInt at h
  split at h
  · exact ⟨_, (Except.ok.inj h).symm⟩
  · exact ⟨_, (Except.ok.inj h).symm⟩
  · cases h
  · split at h
    · exact ⟨_, (Except.ok.inj h).symm⟩
    · cases h
  · split at h
    · exact ⟨_, (Except.ok.inj h).symm⟩
    · cases h
  · split at h
    · exact ⟨_, (Except.ok.inj h).symm⟩
    · cases h
  · cases h

/-- Where a list of texts is asked for, one is had or an error. -/
theorem isTextList_of_asTexts {e : Entry} {v : Value} (h : asTexts e = .ok v) : IsTextList v := by
  unfold asTexts at h
  split at h
  · exact ⟨[], (Except.ok.inj h).symm⟩
  · split at h
    · obtain ⟨texts, -, htexts⟩ := bind_eq_ok_iff.1 h
      exact ⟨texts, (Except.ok.inj htexts).symm⟩
    · cases h

/-- A value is made to be of the kind of its setting. -/
theorem isOfKind_of_coerce {setting : Setting} {e : Entry} {v : Value} (h : coerce path setting e = .ok v) :
    IsOfKind setting v := by
  cases setting with
  | packageSources => exact isTextList_of_asTexts h
  | timeout =>
    rw [coerce] at h
    exact asFloat_eq_ok (mapError_eq_ok_iff.1 h)
  | maxConcurrency =>
    rw [coerce] at h
    exact asInt_eq_ok (mapError_eq_ok_iff.1 h)
  | _ => exact trivial

/-- What an entry sets is of the kind of its setting. -/
theorem isOfKind_of_setting? {e : Entry} {setting : Setting} {v : Value}
    (h : (setting? fs env path e).result = .ok (some (setting, v))) : IsOfKind setting v := by
  rcases key_cases e.key with hkey | ⟨named, hkey⟩ | ⟨hsources, hnamed⟩
  · rw [result_setting?_sourcesFile hkey] at h
    obtain ⟨text, -, h⟩ := bind_eq_ok_iff.1 h
    obtain ⟨sources, -, h⟩ := bind_eq_ok_iff.1 h
    obtain ⟨rfl, rfl⟩ := Prod.mk.inj (Option.some.inj (Except.ok.inj h))
    exact ⟨sources, rfl⟩
  · rw [result_setting?_named hkey] at h
    obtain ⟨w, hw, h⟩ := bind_eq_ok_iff.1 h
    obtain ⟨rfl, rfl⟩ := Prod.mk.inj (Option.some.inj (Except.ok.inj h))
    exact isOfKind_of_coerce hw
  · rw [result_setting?_unknown hsources hnamed] at h
    cases h

/-- No setting of the empty layer is of a wrong kind. -/
theorem isTyped_nil : IsTyped [] := by
  intro setting v h
  cases h

/-- Each entry of a file keeps the kinds. -/
theorem isTyped_of_layerOf {layer set : Overrides} {entries : List Entry} (hlayer : IsTyped layer)
    (h : (layerOf fs env path layer entries).result = .ok set) : IsTyped set := by
  induction entries generalizing layer with
  | nil =>
    obtain rfl := Except.ok.inj h
    exact hlayer
  | cons e entries ih =>
    rw [layerOf, Logged.result_bind] at h
    obtain ⟨set?, hset, h⟩ := bind_eq_ok_iff.1 h
    cases set? with
    | none => exact ih hlayer h
    | some set =>
      obtain ⟨setting, v⟩ := set
      have hkind : IsOfKind setting v := isOfKind_of_setting? hset
      refine ih (fun other w hw => ?_) h
      -- the entry sets one setting, and the others are as in the layer before
      rw [OrderedMap.get?_put] at hw
      split at hw
      · rename_i hsetting
        obtain rfl := Option.some.inj hw
        obtain rfl : setting = other := beq_iff_eq.1 hsetting
        exact hkind
      · exact hlayer other w hw

/-- Every setting that a configuration file sets is of its own kind. -/
theorem isTyped_of_layer {path? : Option String} {set : Overrides} (h : (layer fs env path?).result = .ok set) :
    IsTyped set := by
  rw [layer, Logged.result_bind] at h
  obtain ⟨entries, -, h⟩ := bind_eq_ok_iff.1 h
  exact isTyped_of_layerOf isTyped_nil h

end ConfigFile

namespace Settings

variable {env : Environment}

/-- A setting is left as it is, or takes a value other than null from the layer. -/
theorem override_cases (s : Settings) (layer : Overrides) (setting : Setting) :
    s.override layer setting = s setting ∨
      ∃ v, OrderedMap.get? layer setting = some v ∧ v ≠ .null ∧ s.override layer setting = v := by
  unfold override
  cases hvalue : OrderedMap.get? layer setting with
  | none => exact .inl rfl
  | some v => cases v <;> first | exact .inl rfl | exact .inr ⟨_, rfl, nofun, rfl⟩

/-- Another layer keeps the kind of a setting, if what it sets is of this kind. -/
theorem isOfKind_override {s : Settings} {layer : Overrides} {setting : Setting}
    (hs : ConfigFile.IsOfKind setting (s setting))
    (hlayer : ∀ v, OrderedMap.get? layer setting = some v → v ≠ .null → ConfigFile.IsOfKind setting v) :
    ConfigFile.IsOfKind setting (s.override layer setting) := by
  rcases override_cases s layer setting with hvalue | ⟨v, hv, hnull, hvalue⟩
  · rwa [hvalue]
  · rw [hvalue]
    exact hlayer v hv hnull

/-- Every built-in setting is of its kind. -/
theorem isOfKind_defaults (env : Environment) (setting : Setting) :
    ConfigFile.IsOfKind setting (defaults env setting) := by
  cases setting with
  | packageSources => exact ⟨[], rfl⟩
  | timeout => exact ⟨_, rfl⟩
  | maxConcurrency => exact ⟨_, rfl⟩
  | _ => exact trivial

/-- The variables of the environment set nothing but how much the build tool says. -/
theorem isTyped_environmentLayer (env : Environment) : ConfigFile.IsTyped (environmentLayer env) := by
  intro setting v h
  simp only [environmentLayer] at h
  split at h
  · cases h
  · rw [OrderedMap.get?_cons] at h
    split at h
    · rename_i hsetting
      obtain rfl : Setting.verbosity = setting := beq_iff_eq.1 hsetting
      exact trivial
    · cases h

/-- Sources are read back from a list of texts. -/
theorem sources_of_list {s : Settings} {texts : List String} (h : s .packageSources = .list (texts.map .text)) :
    s.sources = .ok texts := by
  unfold sources
  rw [h]
  simp only
  rw [List.mapM_map]
  exact (mapM_eq_ok_map (g := id) fun text _ => rfl).trans (by rw [List.map_id])

theorem sources_of_isTextList {s : Settings} (h : ConfigFile.IsTextList (s .packageSources)) :
    ∃ texts, s.sources = .ok texts :=
  h.imp fun _ => sources_of_list

/-- The slots are as many as the integer says, and none for a negative one. -/
theorem slots_of_int {s : Settings} {n : Int} (h : s .maxConcurrency = .int n) : s.slots = .ok n.toNat := by
  unfold slots
  rw [h]

end Settings

namespace GivenSettings

variable {g : GivenSettings} {fs : FileSystem} {env : Environment} {settings : Settings}

/-- Finding the settings in effect ends without an exit code: with the configuration file, with one of its entries, or,
once these are read, with the file of package sources that is given. -/
inductive SettingsEscape (g : GivenSettings) (fs : FileSystem) (env : Environment) : Prop
  | document (h : ConfigFile.HasUnreportedFault fs g.config)
  | entry (entries : List ConfigFile.Entry) (hread : ConfigFile.read fs g.config = .ok entries)
    (hentry : FailsFirst (fun e => (ConfigFile.setting? fs env (g.config.getD "") e).result)
      (ConfigFile.EntryEscapes fs env) entries)
  | sourcesFile (path : String) (hlayer : ∃ set, (ConfigFile.layer fs env g.config).result = .ok set)
    (hpath : g.sourcesFile.filter (!·.isEmpty) = some path) (hencoding : fs.DeclaresUnknownEncoding path)

/-- The file of sources that is given escapes by its encoding, and a missing or empty path by nothing. -/
theorem escapes_sourcesFromFile_iff : Escapes (g.sourcesFromFile fs).result ↔
    ∃ path, g.sourcesFile.filter (!·.isEmpty) = some path ∧ fs.DeclaresUnknownEncoding path := by
  unfold sourcesFromFile
  cases g.sourcesFile.filter (!·.isEmpty) with
  | none => exact iff_of_false (not_escapes_ok _) nofun
  | some path =>
    simp only [Option.some.injEq, exists_eq_left', map_eq_pure_bind, Logged.result_bind, Logged.result_pure]
    rw [escapes_bind_iff_left fun _ => not_escapes_ok _, ConfigFile.escapes_loadSources_iff]

/-- The settings of the layers below are of their kinds. -/
theorem isOfKind_configured (env : Environment) {set : Overrides} (h : ConfigFile.IsTyped set) (setting : Setting) :
    ConfigFile.IsOfKind setting (((Settings.ofEnvironment env).override set) setting) :=
  Settings.isOfKind_override
    (Settings.isOfKind_override (Settings.isOfKind_defaults env setting) fun v hv _ =>
      Settings.isTyped_environmentLayer env setting v hv)
    fun v hv _ => h setting v hv

/-- The package sources that are given are a list of texts, if any are given. -/
theorem isTextList_givenSources {configured more : List String} {fromFile? : Option (List String)}
    (h : givenSources configured fromFile? more ≠ .null) :
    ConfigFile.IsTextList (givenSources configured fromFile? more) := by
  unfold givenSources at h ⊢
  simp only at h ⊢
  split
  · rename_i hmore
    rw [if_pos hmore] at h
    cases fromFile? with
    | none => exact absurd rfl h
    | some sources => exact ⟨sources, rfl⟩
  · exact ⟨_, rfl⟩

/-- Settings escape with the configuration file, or with the file of sources after it. -/
theorem escapes_resolve_iff : Escapes (g.resolve fs env).result ↔ SettingsEscape g fs env := by
  have hresolve : Escapes (g.resolve fs env).result ↔ Escapes (ConfigFile.layer fs env g.config).result ∨
      (∃ set, (ConfigFile.layer fs env g.config).result = .ok set) ∧ Escapes (g.sourcesFromFile fs).result := by
    rw [resolve, Logged.result_bind, escapes_bind_iff]
    refine or_congr_right ?_
    rw [← exists_and_right]
    refine exists_congr fun set => and_congr_right fun hset => ?_
    -- the sources in effect are always a list of texts, so reading them off the settings does not fail
    obtain ⟨texts, htexts⟩ := Settings.sources_of_isTextList
      (isOfKind_configured env (ConfigFile.isTyped_of_layer hset) .packageSources)
    rw [Logged.result_bind]
    refine escapes_bind_iff_left fun fromFile? => ?_
    rw [Logged.result_bind, Logged.result_ofExcept, htexts]
    exact not_escapes_ok _
  rw [hresolve, ConfigFile.escapes_layer_iff, escapes_sourcesFromFile_iff]
  constructor
  · rintro ((h | ⟨entries, hread, hentry⟩) | ⟨hlayer, path, hpath, hencoding⟩)
    · exact .document h
    · exact .entry entries hread hentry
    · exact .sourcesFile path hlayer hpath hencoding
  · intro h
    cases h with
    | document h => exact .inl (.inl h)
    | entry entries hread hentry => exact .inl (.inr ⟨entries, hread, hentry⟩)
    | sourcesFile path hlayer hpath hencoding => exact .inr ⟨hlayer, path, hpath, hencoding⟩

/-- What the settings in effect are made of. -/
theorem resolve_eq_ok (h : (g.resolve fs env).result = .ok settings) :
    ∃ set fromFile? sources, ConfigFile.IsTyped set ∧ settings = ((Settings.ofEnvironment env).override set).override
      ((.packageSources, givenSources sources fromFile? g.moreSources) :: g.plainLayer) := by
  rw [resolve, Logged.result_bind] at h
  obtain ⟨set, hset, h⟩ := bind_eq_ok_iff.1 h
  rw [Logged.result_bind] at h
  obtain ⟨fromFile?, -, h⟩ := bind_eq_ok_iff.1 h
  rw [Logged.result_bind] at h
  obtain ⟨sources, -, h⟩ := bind_eq_ok_iff.1 h
  exact ⟨set, fromFile?, sources, ConfigFile.isTyped_of_layer hset, (Except.ok.inj h).symm⟩

/-- What is given with a command is of the kind of its setting. -/
def IsGivenOfKind (g : GivenSettings) (setting : Setting) : Prop :=
  ∀ v, OrderedMap.get? g.plainLayer setting = some v → v ≠ .null → ConfigFile.IsOfKind setting v

/-- A setting in effect is of its kind, if what is given for it is. -/
theorem isOfKind_of_resolve {setting : Setting} (hgiven : g.IsGivenOfKind setting)
    (h : (g.resolve fs env).result = .ok settings) : ConfigFile.IsOfKind setting (settings setting) := by
  obtain ⟨set, fromFile?, sources, hset, rfl⟩ := resolve_eq_ok h
  refine Settings.isOfKind_override (isOfKind_configured env hset setting) fun v hv hnull => ?_
  rw [OrderedMap.get?_cons] at hv
  split at hv
  · rename_i hsetting
    obtain rfl : Setting.packageSources = setting := beq_iff_eq.1 hsetting
    obtain rfl := Option.some.inj hv
    exact isTextList_givenSources hnull
  · exact hgiven v hv hnull

/-- The settings in effect have texts as package sources. -/
theorem sources_of_resolve (h : (g.resolve fs env).result = .ok settings) :
    ∃ texts, settings.sources = .ok texts := by
  have hgiven : g.IsGivenOfKind .packageSources := by
    intro v hv
    cases hv
  exact Settings.sources_of_isTextList (isOfKind_of_resolve hgiven h)

end GivenSettings
end PackageGraph
