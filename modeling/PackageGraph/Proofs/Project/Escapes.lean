import PackageGraph.Aggregate.Basic
import PackageGraph.Project.Scan
import PackageGraph.Proofs.FileSystem
import PackageGraph.Proofs.Framework.ShortName
import PackageGraph.Proofs.Xml.Encoding
/-!
# What escapes from reading projects

Two things in the descriptions of projects end a run without an exit code: a document that names an encoding that does
not exist, and a dependency of a description in JSON that gives its flags as something other than a text.
-/
namespace PackageGraph

open Except

/-! ## Documents -/

/-- The file at the path declares an encoding that does not exist. -/
def FileSystem.DeclaresUnknownEncoding (fs : FileSystem) (path : String) : Prop :=
  ∃ bytes name, fs.read path = .ok bytes ∧ Xml.declaredEncoding? bytes = some name ∧ Xml.NamesNoEncoding name

/-- A document escapes the reader by its encoding alone: every other defect is reported as a malformed file. -/
theorem escapes_readDocument_iff {fs : FileSystem} {path : String} :
    Escapes (fs.readDocument path) ↔ fs.DeclaresUnknownEncoding path := by
  unfold FileSystem.readDocument FileSystem.DeclaresUnknownEncoding
  cases hread : fs.read path with
  | error f =>
    have hreported : f.IsReported := FileSystem.read_failsOnlyWith path f hread
    exact iff_of_false (fun h => escapes_error_iff.1 h hreported) nofun
  | ok bytes =>
    have hunknown : (∃ bytes' name, (.ok bytes : Except Fault (List UInt8)) = .ok bytes' ∧
        Xml.declaredEncoding? bytes' = some name ∧ Xml.NamesNoEncoding name) ↔
          Xml.parse bytes = .error .unknownEncoding := by
      rw [Xml.parse_eq_unknownEncoding_iff]
      simp only [Except.ok.injEq, exists_and_left, exists_eq_left']
    rw [hunknown]
    simp only
    cases hparse : Xml.parse bytes with
    | ok root => exact iff_of_false (not_escapes_ok root) nofun
    | error f =>
      rcases Xml.parse_failsOnlyWith bytes f hparse with rfl | rfl | rfl
      · exact iff_of_false (fun h => escapes_error_iff.1 h rfl) nofun
      · exact iff_of_false (fun h => escapes_error_iff.1 h rfl) nofun
      · exact iff_of_true (escapes_error_iff.2 (by decide)) rfl

/-- A blank path is reported. -/
theorem not_escapes_requirePath (path : String) : ¬ Escapes (requirePath path) := by
  unfold requirePath
  split
  · exact fun h => escapes_error_iff.1 h rfl
  · exact not_escapes_ok ()

theorem requirePath_eq_ok_iff {path : String} : (∃ u, requirePath path = .ok u) ↔ Text.isBlankText path = false := by
  unfold requirePath
  cases Text.isBlankText path <;> simp

/-- Only a file declares an encoding. -/
theorem FileSystem.DeclaresUnknownEncoding.isFile {fs : FileSystem} {path : String}
    (h : fs.DeclaresUnknownEncoding path) : fs.isFile path = true := by
  obtain ⟨bytes, name, hread, -⟩ := h
  exact isFile_of_read hread

/-- A listing of packages escapes with its document. -/
theorem escapes_readPackages_iff {fs : FileSystem} {path : String} :
    Escapes (PackageRecord.read fs path).result ↔
      Text.isBlankText path = false ∧ fs.DeclaresUnknownEncoding path := by
  rw [← requirePath_eq_ok_iff, PackageRecord.read, Logged.result_bind, Logged.result_ofExcept]
  refine (escapes_bind_iff_const fun _ => ?_).trans (or_iff_right (not_escapes_requirePath path))
  split
  · rw [Logged.result_bind, Logged.result_ofExcept, escapes_bind_iff_left, escapes_readDocument_iff]
    exact fun root => not_escapes_ok _
  · rename_i hfile
    exact iff_of_false (not_escapes_ok _) fun h => hfile h.isFile

/-- The data of a project escape with the document of its file. -/
theorem escapes_load_iff {fs : FileSystem} {project : String} :
    Escapes ((ProjectProvider.ofFiles fs).load project).result ↔
      fs.DeclaresUnknownEncoding (Path.absolute fs.workingDirectory project) := by
  -- the provider reports a malformed document to the log and goes on, so only the encoding escapes it as well
  have hdocument : ∀ path, Escapes (ProjectProvider.document? fs path).result ↔ fs.DeclaresUnknownEncoding path := by
    intro path
    unfold ProjectProvider.document?
    split
    · rw [← escapes_readDocument_iff]
      cases fs.readDocument path with
      | ok root => exact iff_of_false (not_escapes_ok _) (not_escapes_ok _)
      | error e =>
        cases e with
        | malformed place defect => exact iff_of_false (not_escapes_ok _) fun h => escapes_error_iff.1 h rfl
        | _ => exact escapes_error_iff.trans escapes_error_iff.symm
    · rename_i hfile
      exact iff_of_false (not_escapes_ok _) fun h => hfile h.isFile
  rw [ProjectProvider.ofFiles, Logged.result_bind, escapes_bind_iff_left, ProjectProvider.loadDocument,
    Logged.result_bind, escapes_bind_iff_left, hdocument]
  · exact fun root? => not_escapes_ok _
  · intro root?
    cases root? <;> exact not_escapes_ok _

/-! ## Descriptions in JSON -/

namespace Json

mutual

/-- Narrowing the texts of a document ends with faults that have an exit code. -/
theorem typed_failsOnlyWith (j : Json) : FailsOnlyWith Error.IsReported j.typed := by
  -- a text is tried as a timestamp first, then as an identifier, and each refusal is one that is reported
  cases j with
  | text s =>
    rw [typed, typedText]
    have hidentifier : FailsOnlyWith Error.IsReported (match guidForm? s.toList with
        | some (g, []) => .ok (.guid g)
        | some _ => .error (.fault .unreadable)
        | none => .ok (.text s) : Except Error Value) := by
      split
      · exact .ok _
      · exact .error rfl
      · exact .ok _
    split
    · split
      · split
        · exact .ok _
        · exact hidentifier
      · exact .error rfl
    · exact hidentifier
  | list items =>
    rw [typed]
    exact (typedItems_failsOnlyWith items).map _
  | object members =>
    rw [typed]
    exact (typedMembers_failsOnlyWith members).map _
  | _ =>
    rw [typed]
    exact .ok _

theorem typedItems_failsOnlyWith (items : List Json) : FailsOnlyWith Error.IsReported (typedItems items) := by
  cases items with
  | nil =>
    rw [typedItems]
    exact .ok _
  | cons j js =>
    rw [typedItems]
    exact (typed_failsOnlyWith j).bind fun v => (typedItems_failsOnlyWith js).bind fun vs => .ok _

theorem typedMembers_failsOnlyWith (members : List (String × Json)) :
    FailsOnlyWith Error.IsReported (typedMembers members) := by
  cases members with
  | nil =>
    rw [typedMembers]
    exact .ok _
  | cons m rest =>
    obtain ⟨name, j⟩ := m
    rw [typedMembers]
    exact (typed_failsOnlyWith j).bind fun v => (typedMembers_failsOnlyWith rest).bind fun vs => .ok _

end

end Json

/-- Whatever is wrong with a JSON file is reported. -/
theorem readJson_failsOnlyWith (fs : FileSystem) (path : String) :
    FailsOnlyWith Error.IsReported (fs.readJson path) := by
  unfold FileSystem.readJson
  cases hread : fs.read path with
  | error f => exact .error (FileSystem.read_failsOnlyWith path f hread)
  | ok bytes =>
    simp only
    split
    · exact .error rfl
    · split
      · exact .ok _
      · exact .error rfl
      · exact .error rfl

/-- A description in JSON is read, or refused with an exit code. -/
theorem not_escapes_readDescription (fs : FileSystem) (path : String) :
    ¬ Escapes (ProjectJsonFile.read fs path).result := by
  have hvalue : ¬ Escapes ((fs.readJson path).bind (ProjectJsonFile.ofJson path)) := by
    refine not_escapes_of_failsOnlyWith ((readJson_failsOnlyWith fs path).bind fun j => ?_)
    unfold ProjectJsonFile.ofJson
    split
    · exact Json.typed_failsOnlyWith _
    · exact .error rfl
  rw [ProjectJsonFile.read, Logged.result_bind, Logged.result_ofExcept, escapes_bind_iff]
  rintro (h | ⟨_, -, h⟩)
  · exact not_escapes_requirePath path h
  · split at h
    · rw [Logged.result_bind, Logged.result_ofExcept] at h
      exact hvalue ((escapes_bind_iff_left fun _ => not_escapes_ok _).1 h)
    · exact not_escapes_ok _ h

namespace PackageSpec.ProjectJson

variable {path name : String}

/-- The keys of the flags of a dependency. -/
def flagKeys : List String := ["include", "exclude", "suppressParent"]

/-- Under one of its keys the dependency has flags that are no text. -/
def HasFlagsOfWrongKind (v : Value) : Prop :=
  ∃ key ∈ flagKeys, ∃ w, v.get? key = some w ∧ w ≠ .null ∧ ∀ s, w ≠ .text s

/-- Of the dependencies of a section the first that cannot be read has flags that are no text. -/
def DependenciesEscape (path : String) (section? : Option Value) : Prop :=
  FailsFirst (dependency path) (fun e => HasFlagsOfWrongKind e.2) ((section?.bind Value.members).getD [])

/-- The framework has a name, and its dependencies escape. -/
def TargetEscapes (path : String) (e : String × Value) : Prop :=
  Text.isBlankText e.1 = false ∧ DependenciesEscape path (e.2.get? "dependencies")

/-- The entries of the section for frameworks. -/
def frameworkEntries (data : Value) : List (String × Value) :=
  ((data.get? "frameworks").bind Value.members).getD []

/-- The first framework that cannot be read escapes, or else the dependencies for all frameworks do. -/
def DescriptionEscapes (path : String) (data : Value) : Prop :=
  FailsFirst (target path) (TargetEscapes path) (frameworkEntries data) ∨
    (∀ e ∈ frameworkEntries data, ∃ t, target path e = .ok t) ∧ DependenciesEscape path (data.get? "dependencies")

/-- Flags escape when they are there and no text. -/
theorem escapes_flags_iff {v : Value} {key : String} {default : AssetFlags} :
    Escapes (flags v key default) ↔ ∃ w, v.get? key = some w ∧ w ≠ .null ∧ ∀ s, w ≠ .text s := by
  unfold flags
  cases v.get? key with
  | none => exact iff_of_false (not_escapes_ok _) (by simp)
  | some w =>
    cases w with
    | null => exact iff_of_false (not_escapes_ok _) (by simp)
    | text s => exact iff_of_false (not_escapes_ok _) (by simp)
    | _ => exact iff_of_true (escapes_error_iff.2 (by decide)) ⟨_, rfl, nofun, nofun⟩

/-- Flags are read, or they are of the wrong kind. -/
theorem exists_flags_iff {v : Value} {key : String} {default : AssetFlags} :
    (∃ f, flags v key default = .ok f) ↔ ¬ Escapes (flags v key default) := by
  unfold flags
  split
  · exact iff_of_true ⟨_, rfl⟩ (not_escapes_ok _)
  · exact iff_of_true ⟨_, rfl⟩ (not_escapes_ok _)
  · exact iff_of_true ⟨_, rfl⟩ (not_escapes_ok _)
  · exact iff_of_false (by simp) (not_not.2 (escapes_error_iff.2 (by decide)))

/-- A range that cannot be parsed is reported. -/
theorem not_escapes_range (v? : Option Value) : ¬ Escapes (range path name v?) := by
  unfold range
  split
  · exact not_escapes_ok _
  · exact not_escapes_ok _
  · rename_i v _
    cases VersionRange.parse v.plain with
    | ok r => exact not_escapes_ok _
    | error e => exact fun h => escapes_error_iff.1 h rfl

/-- What follows flags that are read does not depend on them. -/
theorem escapes_flags_bind_iff {v : Value} {key : String} {default : AssetFlags} {α : Type}
    {f : AssetFlags → Except Error α} {p : Prop} (hf : ∀ flags, Escapes (f flags) ↔ p) :
    Escapes (flags v key default >>= f) ↔ Escapes (flags v key default) ∨ p := by
  rw [escapes_bind_iff_const hf, exists_flags_iff]
  tauto

/-- The flags of a dependency are read before its range. -/
theorem escapes_detailed_iff {v : Value} : Escapes (detailed path name v) ↔ HasFlagsOfWrongKind v := by
  have hflags : Escapes (detailed path name v) ↔ Escapes (flags v "include" .all) ∨
      Escapes (flags v "exclude" .none) ∨ Escapes (flags v "suppressParent" .defaultPrivate) ∨ False := by
    refine escapes_flags_bind_iff fun included => escapes_flags_bind_iff fun excluded =>
      escapes_flags_bind_iff fun suppressed => iff_false_intro ?_
    rw [escapes_bind_pure_iff]
    exact not_escapes_range _
  rw [hflags, or_false, escapes_flags_iff, escapes_flags_iff, escapes_flags_iff]
  simp [HasFlagsOfWrongKind, flagKeys]

/-- Of a dependency only its flags escape. -/
theorem escapes_dependency_iff {e : String × Value} : Escapes (dependency path e) ↔ HasFlagsOfWrongKind e.2 := by
  obtain ⟨name, v⟩ := e
  -- only a mapping has entries, and with them flags
  have hnone : (∀ key, v.get? key = none) → ¬ HasFlagsOfWrongKind v := by
    rintro hnone ⟨key, -, w, hw, -⟩
    rw [hnone] at hw
    cases hw
  cases v with
  | mapping entries => exact escapes_detailed_iff
  | _ =>
    refine iff_of_false ?_ (hnone fun _ => rfl)
    rw [dependency, escapes_map_iff]
    · exact not_escapes_range _
    · nofun

/-- A section escapes with the first dependency that is not read, if its flags are of the wrong kind. -/
theorem escapes_dependencies_iff {section? : Option Value} :
    Escapes (dependencies path section?) ↔ DependenciesEscape path section? :=
  escapes_mapM_iff.trans (failsFirst_congr fun _ => escapes_dependency_iff)

/-- A target escapes when its framework is readable and its dependencies escape. -/
theorem escapes_target_iff {e : String × Value} : Escapes (target path e) ↔ TargetEscapes path e := by
  obtain ⟨name, body⟩ := e
  rw [target, TargetEscapes, ← Bool.not_eq_true, ← Moniker.parse?_eq_none_iff]
  cases Moniker.parse? name with
  | none => exact iff_of_false (fun h => escapes_error_iff.1 h rfl) fun h => h.1 rfl
  | some moniker =>
    simp only [reduceCtorEq, not_false_eq_true, true_and]
    rw [escapes_bind_pure_iff, escapes_dependencies_iff]

/-- A description in JSON escapes with the first dependency that is not read, if its flags are of the wrong kind. -/
theorem escapes_read_iff {data : Value} : Escapes (read name path data) ↔ DescriptionEscapes path data := by
  have hrest : ∀ targets : List FrameworkGroup, Escapes (do
      let dependencies ← dependencies path (data.get? "dependencies")
      return (⟨name, path, targets, dependencies, runtimeGraph data, none, version data⟩ : PackageSpec)) ↔
        DependenciesEscape path (data.get? "dependencies") := by
    intro targets
    rw [escapes_bind_pure_iff, escapes_dependencies_iff]
  rw [read, escapes_bind_iff_const hrest, escapes_mapM_iff, exists_mapM_eq_ok_iff, DescriptionEscapes, frameworkEntries]
  exact or_congr_left (failsFirst_congr fun _ => escapes_target_iff)

end PackageSpec.ProjectJson

/-! ## Projects -/

/-- The file that would list the packages of a project. -/
def listingPath (project : String) : String := ProjectOutcome.beside project ProjectDescriptor.packagesConfigName

/-- The file that would describe a project in JSON. -/
def descriptionPath (project : String) : String := ProjectOutcome.beside project ProjectDescriptor.projectJsonName

/-- Reading a project ends without an exit code. The listing of its packages and the project file may declare an
encoding that does not exist, and its description in JSON may have flags of the wrong kind; what is read first
decides. -/
inductive ProjectEscapes (fs : FileSystem) (project : String) : Prop
  | listing (hlisted : fs.exists? (listingPath project) = true)
    (hencoding : fs.DeclaresUnknownEncoding (listingPath project))
  | listed (hlisted : fs.exists? (listingPath project) = true)
    (hread : ∃ records, (PackageRecord.read fs (listingPath project)).result = .ok records)
    (hencoding : fs.DeclaresUnknownEncoding (Path.absolute fs.workingDirectory project))
  | description (value : Value) (hlisted : fs.exists? (listingPath project) = false)
    (hdescribed : fs.exists? (descriptionPath project) = true)
    (hvalue : (ProjectJsonFile.read fs (descriptionPath project)).result = .ok (some value))
    (hflags : PackageSpec.ProjectJson.DescriptionEscapes (descriptionPath project) value)
  | described (value : Value) (described : PackageSpec) (hlisted : fs.exists? (listingPath project) = false)
    (hdescribed : fs.exists? (descriptionPath project) = true)
    (hvalue : (ProjectJsonFile.read fs (descriptionPath project)).result = .ok (some value))
    (hread : PackageSpec.ProjectJson.read (ProjectDescriptor.displayName project) (descriptionPath project) value =
      .ok described)
    (hencoding : fs.DeclaresUnknownEncoding (Path.absolute fs.workingDirectory project))
  | plain (hlisted : fs.exists? (listingPath project) = false) (hdescribed : fs.exists? (descriptionPath project) = false)
    (hencoding : fs.DeclaresUnknownEncoding (Path.absolute fs.workingDirectory project))

namespace ProjectOutcome

variable {fs : FileSystem} {project : String}

/-- Naming the keys of a specification fails with reported errors alone. -/
theorem dependencyKeys_failsOnlyWith (spec : Option PackageSpec) :
    FailsOnlyWith Error.IsReported (dependencyKeys spec) := by
  cases spec with
  | none => exact .ok []
  | some s =>
    refine FailsOnlyWith.mapM _ fun d => ?_
    unfold PackageKey.ofRange?
    split
    · exact .ok _
    · exact .error rfl

/-- The path of a file beside a project is not blank if the name of the file is not. -/
theorem not_isBlankText_beside {name : String} (h : Text.isBlankText name = false) (project : String) :
    Text.isBlankText (beside project name) = false := by
  rw [beside, Path.append]
  split
  · exact h
  · split
    · rw [Moniker.isBlankText_append, h, Bool.and_false]
    · rw [Moniker.isBlankText_append, h, Bool.and_false]

/-- A project with a package list escapes by the encoding of the list or, once that is read, of the project. -/
theorem escapes_ofPackagesConfig_iff :
    Escapes (ofPackagesConfig fs (.ofFiles fs) project (listingPath project)).result ↔
      fs.DeclaresUnknownEncoding (listingPath project) ∨
        (∃ records, (PackageRecord.read fs (listingPath project)).result = .ok records) ∧
          fs.DeclaresUnknownEncoding (Path.absolute fs.workingDirectory project) := by
  have hpath : Text.isBlankText (listingPath project) = false := not_isBlankText_beside rfl project
  rw [ofPackagesConfig, Logged.result_bind]
  rw [escapes_bind_iff_const, escapes_readPackages_iff, and_iff_right hpath]
  intro records
  rw [Logged.result_bind, escapes_bind_iff_left, escapes_load_iff]
  exact fun data => not_escapes_ok _

/-- A project with a description escapes by the flags in it or, once that is read, by the encoding of the project. -/
theorem escapes_ofProjectJson_iff :
    Escapes (ofProjectJson fs (.ofFiles fs) project (descriptionPath project)).result ↔
      ∃ value, (ProjectJsonFile.read fs (descriptionPath project)).result = .ok (some value) ∧
        (PackageSpec.ProjectJson.DescriptionEscapes (descriptionPath project) value ∨
          ∃ described, PackageSpec.ProjectJson.read (ProjectDescriptor.displayName project) (descriptionPath project)
            value = .ok described ∧ fs.DeclaresUnknownEncoding (Path.absolute fs.workingDirectory project)) := by
  have hkeys : ∀ (spec : Option PackageSpec) (f : List PackageKey → ProjectOutcome),
      ¬ Escapes (dependencyKeys spec >>= fun keys => .ok (f keys)) := by
    intro spec f h
    exact not_escapes_of_failsOnlyWith (dependencyKeys_failsOnlyWith spec)
      ((escapes_bind_iff_left fun _ => not_escapes_ok _).1 h)
  rw [ofProjectJson, Logged.result_bind, escapes_bind_iff, or_iff_right (not_escapes_readDescription fs _),
    Option.exists]
  -- without a file nothing is read, and with one its description comes before the project file
  rw [or_iff_right]
  · refine exists_congr fun value => and_congr_right fun _ => ?_
    simp only [Logged.result_bind, Logged.result_pure, Logged.result_ofExcept, ok_bind]
    rw [escapes_bind_iff_const, PackageSpec.ProjectJson.escapes_read_iff, exists_and_right]
    intro described
    rw [escapes_bind_iff_left fun data => hkeys _ _, escapes_load_iff]
  · rintro ⟨-, h⟩
    simp only [Logged.result_bind, Logged.result_pure, Logged.result_ofExcept, ok_bind] at h
    exact hkeys _ _ h

/-- A project with neither escapes by its own encoding. -/
theorem escapes_ofPackageReferences_iff :
    Escapes (ofPackageReferences fs.workingDirectory (.ofFiles fs) project).result ↔
      fs.DeclaresUnknownEncoding (Path.absolute fs.workingDirectory project) := by
  rw [ofPackageReferences, Logged.result_bind, escapes_bind_iff_left, escapes_load_iff]
  intro data
  simp only [Logged.result_bind, Logged.result_logAll, Logged.result_ofExcept, Logged.result_pure, ok_bind]
  rw [escapes_bind_iff_left fun _ => not_escapes_ok _]
  exact not_escapes_of_failsOnlyWith (dependencyKeys_failsOnlyWith _)

/-- The provider of project files tells which descriptions a project has. -/
theorem ofProject_ofFiles : ofProject fs (.ofFiles fs) project =
    if fs.exists? (listingPath project) then ofPackagesConfig fs (.ofFiles fs) project (listingPath project)
    else if fs.exists? (descriptionPath project) then
      ofProjectJson fs (.ofFiles fs) project (descriptionPath project)
    else ofPackageReferences fs.workingDirectory (.ofFiles fs) project := by
  have hpure : ∀ b : Bool, Logged.ofExcept (.ok b) = pure b := fun _ => rfl
  have hexists : ∀ path, (ProjectProvider.ofFiles fs).exists? path = .ok (fs.exists? path) := fun _ => rfl
  rw [ofProject, hexists, hpure, pure_bind, hexists, hpure, pure_bind]
  rfl

/-- Reading a project ends without an exit code exactly in these cases. -/
theorem escapes_ofProject_iff : Escapes (ofProject fs (.ofFiles fs) project).result ↔ ProjectEscapes fs project := by
  rw [ofProject_ofFiles]
  -- the list is looked for first, then the description, and the cases of `ProjectEscapes` follow that order
  constructor
  · intro h
    split at h
    · rename_i hlisted
      rcases escapes_ofPackagesConfig_iff.1 h with hencoding | ⟨hread, hencoding⟩
      · exact .listing hlisted hencoding
      · exact .listed hlisted hread hencoding
    · rename_i hlisted
      rw [Bool.not_eq_true] at hlisted
      split at h
      · rename_i hdescribed
        obtain ⟨value, hvalue, hflags | ⟨described, hread, hencoding⟩⟩ := escapes_ofProjectJson_iff.1 h
        · exact .description value hlisted hdescribed hvalue hflags
        · exact .described value described hlisted hdescribed hvalue hread hencoding
      · rename_i hdescribed
        rw [Bool.not_eq_true] at hdescribed
        exact .plain hlisted hdescribed (escapes_ofPackageReferences_iff.1 h)
  · intro h
    cases h with
    | listing hlisted hencoding =>
      rw [if_pos hlisted]
      exact escapes_ofPackagesConfig_iff.2 (.inl hencoding)
    | listed hlisted hread hencoding =>
      rw [if_pos hlisted]
      exact escapes_ofPackagesConfig_iff.2 (.inr ⟨hread, hencoding⟩)
    | description value hlisted hdescribed hvalue hflags =>
      rw [if_neg (Bool.eq_false_iff.1 hlisted), if_pos hdescribed]
      exact escapes_ofProjectJson_iff.2 ⟨value, hvalue, .inl hflags⟩
    | described value described hlisted hdescribed hvalue hread hencoding =>
      rw [if_neg (Bool.eq_false_iff.1 hlisted), if_pos hdescribed]
      exact escapes_ofProjectJson_iff.2 ⟨value, hvalue, .inr ⟨described, hread, hencoding⟩⟩
    | plain hlisted hdescribed hencoding =>
      rw [if_neg (Bool.eq_false_iff.1 hlisted), if_neg (Bool.eq_false_iff.1 hdescribed)]
      exact escapes_ofPackageReferences_iff.2 hencoding

end ProjectOutcome

end PackageGraph
