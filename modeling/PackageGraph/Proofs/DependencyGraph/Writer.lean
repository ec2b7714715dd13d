import PackageGraph.Proofs.AssetFlags
import PackageGraph.Proofs.DependencyGraph.Filed
import PackageGraph.Proofs.DependencyGraph.Reader
import PackageGraph.Proofs.DependencyGraph.Sections
/-!
# Reading what was written

The document of a project can be read if its ranges can and its frameworks are named. What is read is what a document
keeps of the project, its ranges being those that their normalized forms are read as.
-/
namespace PackageGraph

open DependencyGraph.Document

/-- The range was read and can be compared, so that it can be written and read again. -/
structure Dependency.IsReadable (d : Dependency) : Prop where
  range : d.range.WellFormed
  comparable : d.range.isComparable = true

namespace DependencyGraph.Document

variable {path : String}

/-! ## Reading entries that were written -/

/-- The text of flags is read as these flags. -/
theorem flags_of_get?_eq_text {j : Json} {name : String} {f : AssetFlags} (default : AssetFlags)
    (h : j.get? name = some (.text f.text)) : flags j name default = f := by
  have htext : j.textAt? name = some f.text := by
    rw [Json.textAt?, h]
    rfl
  rw [flags, htext, AssetFlags.parseOptional, Option.getD_some, AssetFlags.parse_text]

/-- Flags that are written only where they differ from the default. -/
theorem flags_of_get?_eq_ite {j : Json} {name : String} {f default : AssetFlags}
    (h : j.get? name = if f = default then none else some (.text f.text)) : flags j name default = f := by
  by_cases hf : f = default
  · rw [if_pos hf] at h
    have htext : j.textAt? name = none := by
      rw [Json.textAt?, h]
      rfl
    rw [flags, htext, hf]
    rfl
  · rw [if_neg hf] at h
    exact flags_of_get?_eq_text default h

/-- Each kind of library is read back from its name. -/
theorem ofText_name (k : LibraryKind) : LibraryKind.ofText k.name = k := by
  cases k <;> rfl

/-- Each format is read back from its name. -/
theorem ofName?_name (f : ProjectFormat) : ProjectFormat.ofName? f.name = some f := by
  cases f <;> rfl

/-- A dependency is read back as it was written, with its range as it is read again. -/
theorem readDependency_toJson {d : Dependency} (hd : d.IsReadable) :
    readDependency path (d.name, d.toJson) = .ok d.reread := by
  have hversion : (settings d.toJson).textAt? "version" = some d.range.normalized := rfl
  have htarget : (settings d.toJson).textAt? "target" = some d.kind.name := rfl
  have hinclude : flags (settings d.toJson) "include" .all = d.included :=
    flags_of_get?_eq_ite d.get?_toJson_include
  have hexclude : flags (settings d.toJson) "exclude" .none = .none := by
    rw [flags, Json.textAt?]
    rw [show settings d.toJson = d.toJson from rfl, d.get?_toJson_exclude]
    rfl
  have hsuppress : flags (settings d.toJson) "suppressParent" .defaultPrivate = d.suppressParent :=
    flags_of_get?_eq_ite d.get?_toJson_suppressParent
  -- the range is written in its normal form
  have hrange := (VersionRange.parse_eq_reread hd.range hd.comparable).1
  simp only [readDependency, hversion, htarget, Option.getD_some, hrange, hinclude, hexclude, hsuppress, ofText_name,
    AssetFlags.without_none]
  rfl

/-- The entry of a dependency is accepted if its range can be read. -/
theorem exists_readDependency_toJson {d : Dependency} (hd : ∃ r, VersionRange.parse d.range.normalized = .ok r) :
    ∃ d', readDependency path (d.name, d.toJson) = .ok d' := by
  obtain ⟨r, hr⟩ := hd
  have hversion : (settings d.toJson).textAt? "version" = some d.range.normalized := rfl
  simp only [readDependency, hversion, Option.getD_some, hr]
  exact ⟨_, rfl⟩

/-- A text that may be empty only if its default is. -/
theorem filled?_getD {j : Json} {name s default : String} (h : j.get? name = some (.text s))
    (hs : s = "" → default = "") : (filled? j name).getD default = s := by
  have htext : j.textAt? name = some s := by
    rw [Json.textAt?, h]
    rfl
  rw [filled?, htext]
  by_cases hempty : s = ""
  · rw [hempty, hs hempty]
    rfl
  · simp [Option.filter, hempty]

/-! ## Dependencies -/

section Dependencies

variable {j : Json} {ds : List Dependency} (hj : entries j "dependencies" = (Dependency.listToJson ds).members)

include hj

/-- Dependencies that are written are read, if their ranges are. -/
theorem exists_readDependencies (hds : ∀ d ∈ ds, ∃ r, VersionRange.parse d.range.normalized = .ok r) :
    ∃ ds', readDependencies path j = .ok ds' := by
  refine Except.exists_mapM_eq_ok fun e he => ?_
  rw [hj, Dependency.listToJson, members_sectionOf] at he
  obtain ⟨d, hd, rfl⟩ := List.mem_map.1 he
  exact exists_readDependency_toJson (hds d (mem_of_mem_filedUnder hd))

/-- They are read back, and of those with one name the last. -/
theorem readDependencies_eq (hds : ∀ d ∈ ds, d.IsReadable) :
    readDependencies path j = .ok ((filedUnder Dependency.name ds).map Dependency.reread) := by
  rw [readDependencies, hj, Dependency.listToJson, members_sectionOf]
  exact Except.mapM_map_eq_ok fun d hd => readDependency_toJson (hds d (mem_of_mem_filedUnder hd))

end Dependencies

theorem entries_dependencies_target (g : FrameworkGroup) :
    entries g.toJson "dependencies" = (Dependency.listToJson g.dependencies).members := rfl

/-- A project has the dependencies of its document, also if none are written. -/
theorem entries_dependencies_project (s : PackageSpec) :
    entries s.toJson "dependencies" = (Dependency.listToJson s.dependencies).members := by
  rw [entries, s.get?_toJson_dependencies]
  split
  · rename_i hempty
    rw [List.isEmpty_iff.1 hempty]
    rfl
  · rfl

/-! ## Frameworks -/

/-- A target with a name is read if its dependencies are. -/
theorem exists_readTarget {e : String × Json} (hname : ∃ m, Moniker.parse? e.1 = some m)
    (hds : ∃ ds, readDependencies path e.2 = .ok ds) : ∃ g, readTarget path e = .ok g := by
  obtain ⟨m, hm⟩ := hname
  obtain ⟨ds, hds⟩ := hds
  refine ⟨⟨.withImports m (readImports e.2), ds, readImports e.2⟩, ?_⟩
  rw [readTarget, readFramework_eq_ok_iff.2 hm, hds]
  rfl

theorem exists_readReferences (targets : List FrameworkGroup) {e : String × Json}
    (hname : ∃ m, Moniker.parse? e.1 = some m) : ∃ g, readReferences path targets e = .ok g := by
  obtain ⟨m, hm⟩ := hname
  refine ⟨⟨declaredFramework targets m, (entries e.2 "projectReferences").map readReference⟩, ?_⟩
  rw [readReferences, readFramework_eq_ok_iff.2 hm]
  rfl

/-- Imports are read back by their short names. -/
theorem readImports_toJson (g : FrameworkGroup) :
    readImports g.toJson = g.imports.filterMap fun i => Moniker.parse? i.shortName := by
  rw [readImports, g.get?_toJson_imports]
  split
  · rename_i hempty
    rw [List.isEmpty_iff.1 hempty]
    rfl
  · rw [Option.map_some, Option.getD_some, texts_ofTexts, List.filterMap_map]
    rfl

/-- A target is read back as the document keeps it. -/
theorem readTarget_toJson {g : FrameworkGroup} (hname : Text.isBlankText g.framework.shortName = false)
    (hds : ∀ d ∈ g.dependencies, d.IsReadable) :
    readTarget path (g.framework.shortName, g.toJson) = .ok g.filed.reread := by
  obtain ⟨m, hm⟩ := Moniker.exists_parse? hname
  rw [readTarget, readFramework_eq_ok_iff.2 hm, readDependencies_eq (entries_dependencies_target g) hds,
    readImports_toJson, FrameworkGroup.filed, hm]
  rfl

/-- A reference is read back, with its name in place of an empty path. -/
theorem readReference_toJson {r : ProjectReference} (hpath : r.path = "" → r.uniqueName = "") :
    readReference (r.uniqueName, r.toJson) = r := by
  have hfilled : (filled? r.toJson "projectPath").getD r.uniqueName = r.path := filled?_getD rfl hpath
  have hinclude : flags r.toJson "includeAssets" .all = r.includeAssets := flags_of_get?_eq_text _ rfl
  have hexclude : flags r.toJson "excludeAssets" .none = r.excludeAssets := flags_of_get?_eq_text _ rfl
  have hprivate : flags r.toJson "privateAssets" .defaultPrivate = r.privateAssets := flags_of_get?_eq_text _ rfl
  simp only [readReference, hfilled, hinclude, hexclude, hprivate]

/-- References by framework are read back as the document keeps them. -/
theorem readReferences_toJson {g : ReferenceGroup} (hname : Text.isBlankText g.framework.shortName = false)
    (hpaths : ∀ r ∈ g.references, r.path = "" → r.uniqueName = "") (targets : List FrameworkGroup) :
    readReferences path targets (g.framework.shortName, g.toJson) = .ok (g.filedAmong targets) := by
  obtain ⟨m, hm⟩ := Moniker.exists_parse? hname
  have hentries : entries g.toJson "projectReferences" =
      (filedUnder ProjectReference.uniqueName g.references).map fun r => (r.uniqueName, r.toJson) :=
    members_sectionOf _ _ _
  have hreferences : (entries g.toJson "projectReferences").map readReference =
      filedUnder ProjectReference.uniqueName g.references := by
    rw [hentries, List.map_map]
    refine (List.map_congr_left fun r hr => ?_).trans (List.map_id _)
    exact readReference_toJson (hpaths r (mem_of_mem_filedUnder hr))
  rw [readReferences, readFramework_eq_ok_iff.2 hm, hreferences, ReferenceGroup.filedAmong, hm]
  rfl

end DependencyGraph.Document

/-! ## Projects -/

/-- The document of the project is accepted. -/
structure PackageSpec.IsReadable (s : PackageSpec) : Prop where
  dependencies : ∀ d ∈ s.allDependencies, d.IsReadable
  targets : ∀ g ∈ s.targets, g.framework.moniker.IsNamed
  references : ∃ m, s.restore = some m ∧ ∀ g ∈ m.targets, g.framework.moniker.IsNamed

/-- The document of the project with this metadata leaves nothing for its reader to make up, and is accepted. -/
structure PackageSpec.IsExplicit (key : String) (m : RestoreMetadata) (s : PackageSpec) : Prop where
  restore : s.restore = some m
  name : s.name = m.projectName
  uniqueName : m.uniqueName = "" → key = ""
  projectPath : m.projectPath = "" → key = ""
  projectName : m.projectName = "" → Path.stem m.projectPath = ""
  targets : ∀ g ∈ s.targets, Text.isBlankText g.framework.shortName = false
  references : ∀ g ∈ m.targets, Text.isBlankText g.framework.shortName = false
  paths : ∀ g ∈ m.targets, ∀ r ∈ g.references, r.path = "" → r.uniqueName = ""
  dependencies : ∀ d ∈ s.allDependencies, d.IsReadable

namespace DependencyGraph.Document

/-- What is known about restoring a project is found in its document. -/
theorem restoreSection_toJson {s : PackageSpec} {m : RestoreMetadata} (hm : s.restore = some m) :
    restoreSection s.toJson = m.toJson := by
  rw [restoreSection, s.get?_toJson_restore, hm]
  rfl

/-- Of targets with one short name the document keeps the last. -/
theorem entries_frameworks_project (s : PackageSpec) : entries s.toJson "frameworks" =
    (filedUnder (fun g => g.framework.shortName) s.targets).map fun g => (g.framework.shortName, g.toJson) := by
  rw [entries, s.get?_toJson_frameworks, Option.map_some, Option.getD_some, members_sectionOf]

theorem entries_frameworks_restore (m : RestoreMetadata) : entries m.toJson "frameworks" =
    (filedUnder (fun g => g.framework.shortName) m.targets).map fun g => (g.framework.shortName, g.toJson) :=
  members_sectionOf _ _ _

/-- The document of a project is accepted if its ranges can be read and its frameworks are named. -/
theorem exists_readProject_of_parse {s : PackageSpec} {m : RestoreMetadata} (hm : s.restore = some m)
    (hranges : ∀ d ∈ s.allDependencies, ∃ r, VersionRange.parse d.range.normalized = .ok r)
    (htargets : ∀ g ∈ s.targets, Text.isBlankText g.framework.shortName = false)
    (hreferences : ∀ g ∈ m.targets, Text.isBlankText g.framework.shortName = false) (name : String) :
    ∃ t, readProject path name s.toJson = .ok t := by
  have htargets : ∃ ts, (entries s.toJson "frameworks").mapM (readTarget path) = .ok ts := by
    refine Except.exists_mapM_eq_ok fun e he => ?_
    rw [entries_frameworks_project] at he
    obtain ⟨g, hfiled, rfl⟩ := List.mem_map.1 he
    have hg := mem_of_mem_filedUnder hfiled
    refine exists_readTarget (Moniker.exists_parse? (htargets g hg))
      (exists_readDependencies (entries_dependencies_target g) ?_)
    exact fun d hd => hranges d (List.mem_append_right _ (List.mem_flatMap.2 ⟨g, hg, hd⟩))
  -- which targets were read does not matter for whether the references can be
  obtain ⟨ts, hts⟩ := htargets
  have hreferences : ∃ rs, (entries m.toJson "frameworks").mapM (readReferences path ts) = .ok rs := by
    refine Except.exists_mapM_eq_ok fun e he => ?_
    rw [entries_frameworks_restore] at he
    obtain ⟨g, hg, rfl⟩ := List.mem_map.1 he
    exact exists_readReferences ts (Moniker.exists_parse? (hreferences g (mem_of_mem_filedUnder hg)))
  obtain ⟨rs, hrs⟩ := hreferences
  have hds : ∃ ds, readDependencies path s.toJson = .ok ds := by
    refine exists_readDependencies (entries_dependencies_project s) fun d hd => ?_
    exact hranges d (List.mem_append_left _ hd)
  obtain ⟨ds, hds⟩ := hds
  rw [readProject, readGroups, restoreSection_toJson hm, hts, hds]
  simp only [bind, Except.bind, hrs, pure, Except.pure]
  exact ⟨_, rfl⟩

/-- The document of a readable project is accepted. -/
theorem exists_readProject_toJson {s : PackageSpec} (hs : s.IsReadable) (name : String) :
    ∃ t, readProject path name s.toJson = .ok t := by
  obtain ⟨m, hm, hnamed⟩ := hs.references
  refine exists_readProject_of_parse hm (fun d hd => ?_) (fun g hg => ?_) (fun g hg => ?_) name
  · have hd := hs.dependencies d hd
    exact ⟨_, (VersionRange.parse_eq_reread hd.range hd.comparable).1⟩
  · exact Moniker.not_isBlankText_shortName (hs.targets g hg)
  · exact Moniker.not_isBlankText_shortName (hnamed g hg)

/-- The metadata of a project is read back from its document, with the references that are read for it. -/
theorem readMetadata_toJson {name : String} {m : RestoreMetadata} {s : PackageSpec} (hm : s.restore = some m)
    (hname : m.uniqueName = "" → name = "") (hpath : m.projectPath = "" → name = "")
    (hproject : m.projectName = "" → Path.stem m.projectPath = "") (references : List ReferenceGroup) :
    projectPath name s.toJson = m.projectPath ∧
      readMetadata name s.toJson references = { m with targets := references, sources := distinct m.sources } := by
  have hsection := restoreSection_toJson hm
  have hpath : projectPath name s.toJson = m.projectPath := by
    rw [projectPath, hsection]
    exact filled?_getD rfl hpath
  have hstyle : (m.toJson.textAt? "projectStyle").bind ProjectFormat.ofName? = some m.format := ofName?_name m.format
  have huniqueName : (filled? m.toJson "projectUniqueName").getD name = m.uniqueName :=
    filled?_getD rfl hname
  have hprojectName : (filled? m.toJson "projectName").getD (Path.stem m.projectPath) = m.projectName :=
    filled?_getD rfl hproject
  have houtput : m.toJson.textAt? "outputPath" = some m.outputPath := rfl
  -- an empty path is not written, and is read for one that is missing
  have hjsonPath : (m.toJson.textAt? "projectJsonPath").getD "" = m.projectJsonPath := by
    rw [Json.textAt?, m.get?_toJson_projectJsonPath]
    by_cases hempty : m.projectJsonPath = ""
    · simp [hempty]
    · simp [hempty, Json.text?]
  have hwritten : (((m.toJson.get? "originalTargetFrameworks").map Json.items).getD []).filterMap Json.text? =
      m.writtenFrameworks := texts_ofTexts m.writtenFrameworks
  have hcross : m.toJson.get? "crossTargeting" = some (.bool m.crossTargeting) := rfl
  have hsources : (entries m.toJson "sources").map (·.1) = distinct m.sources := names_namesOnly m.sources
  refine ⟨hpath, ?_⟩
  rw [readMetadata]
  simp only [hsection, hpath, hstyle, huniqueName, hprojectName, houtput, hjsonPath, hwritten, hcross, hsources,
    Option.getD_some]

/-- Runtimes and profiles are read back, each once. -/
theorem readRuntimeGraph_toJson (s : PackageSpec) :
    readRuntimeGraph s.toJson = s.runtimeGraph.map RuntimeGraph.filed := by
  rw [readRuntimeGraph, entries, entries, s.get?_toJson_runtimes, s.get?_toJson_supports]
  cases s.runtimeGraph with
  | none => rfl
  | some r => simp [names_namesOnly, RuntimeGraph.filed]

/-- What is read from the document of a project is what the document keeps of it. -/
theorem readProject_toJson {name : String} {m : RestoreMetadata} {s : PackageSpec} (hs : s.IsExplicit name m) :
    readProject path name s.toJson = .ok s.filed.reread := by
  have htargets : (entries s.toJson "frameworks").mapM (readTarget path) =
      .ok (s.filedTargets.map FrameworkGroup.reread) := by
    rw [entries_frameworks_project, PackageSpec.filedTargets, List.map_map]
    refine Except.mapM_map_eq_ok fun g hg => ?_
    have hg := mem_of_mem_filedUnder hg
    refine readTarget_toJson (hs.targets g hg) fun d hd => ?_
    exact hs.dependencies d (List.mem_append_right _ (List.mem_flatMap.2 ⟨g, hg, hd⟩))
  have hreferences : (entries m.toJson "frameworks").mapM
      (readReferences path (s.filedTargets.map FrameworkGroup.reread)) = .ok (m.filedAmong s.filedTargets).targets := by
    rw [entries_frameworks_restore]
    refine Except.mapM_map_eq_ok fun g hg => ?_
    have hg := mem_of_mem_filedUnder hg
    have hread : readReferences path _ (g.framework.shortName, g.toJson) = _ :=
      readReferences_toJson (hs.references g hg) (hs.paths g hg) (s.filedTargets.map FrameworkGroup.reread)
    -- the references are looked up in the targets that are read again, which have the same frameworks
    rw [ReferenceGroup.filedAmong, declaredFramework_map (f := FrameworkGroup.reread) fun _ => rfl] at hread
    exact hread
  have hds : readDependencies path s.toJson =
      .ok ((filedUnder Dependency.name s.dependencies).map Dependency.reread) :=
    readDependencies_eq (entries_dependencies_project s) fun d hd => hs.dependencies d (List.mem_append_left _ hd)
  obtain ⟨hpath, hmetadata⟩ := readMetadata_toJson hs.restore hs.uniqueName hs.projectPath hs.projectName
    (m.filedAmong s.filedTargets).targets
  have hversion : s.toJson.textAt? "version" = some s.version := rfl
  rw [readProject, readGroups, restoreSection_toJson hs.restore, htargets, hds]
  simp only [bind, Except.bind, hreferences, pure, Except.pure, hpath, hmetadata, hversion,
    readRuntimeGraph_toJson, Option.getD_some]
  -- the name is read from the metadata, where it stands as well
  rw [PackageSpec.filed, hs.restore, hs.name]
  rfl

end DependencyGraph.Document
end PackageGraph
