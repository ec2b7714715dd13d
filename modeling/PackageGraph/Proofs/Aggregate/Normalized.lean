import PackageGraph.Proofs.Aggregate.Consumers
import PackageGraph.Proofs.DependencyGraph.Unambiguous
/-!
# Normalized projects

Whichever description a project has, its specification goes by the path of the project, has references only for
frameworks that it is built for, and asks for ranges that were read and can be written.
-/
namespace PackageGraph

/-! ## Ranges -/

namespace PackageSpec.ProjectJson

variable {path name : String}

/-- A range that is read is well formed. -/
theorem wellFormed_of_range {v : Option Value} {r : VersionRange} (h : range path name v = .ok r) : r.WellFormed := by
  unfold range at h
  split at h
  · obtain rfl := Except.ok.inj h
    exact .inl (VersionRange.plain_all none)
  · obtain rfl := Except.ok.inj h
    exact .inl (VersionRange.plain_all none)
  · rename_i v _
    cases hparse : VersionRange.parse v.plain with
    | error e =>
      rw [hparse] at h
      cases h
    | ok r' =>
      rw [hparse] at h
      obtain rfl := Except.ok.inj h
      exact VersionRange.wellFormed_of_parse hparse

/-- A dependency that is read has a well-formed range. -/
theorem wellFormed_of_dependency {e : String × Value} {d : Dependency} (h : dependency path e = .ok d) :
    d.range.WellFormed := by
  unfold dependency at h
  split at h
  · simp only [detailed, Except.bind_eq_ok_iff, Except.pure_eq_ok_iff] at h
    obtain ⟨included, -, excluded, -, suppressed, -, r, hr, rfl⟩ := h
    exact wellFormed_of_range hr
  · obtain ⟨r, hr, rfl⟩ := Except.map_eq_ok_iff.1 h
    exact wellFormed_of_range hr

/-- So do all dependencies of a section. -/
theorem wellFormed_of_dependencies {section? : Option Value} {ds : List Dependency}
    (h : dependencies path section? = .ok ds) : ∀ d ∈ ds, d.range.WellFormed := by
  intro d hd
  obtain ⟨e, -, he⟩ := Except.exists_of_mem_mapM h hd
  exact wellFormed_of_dependency he

/-- A framework that is read carries its imports, and its dependencies have well-formed ranges. -/
theorem target_eq_ok {e : String × Value} {g : FrameworkGroup} (h : target path e = .ok g) :
    g.framework = .withImports g.framework.moniker g.imports ∧ ∀ d ∈ g.dependencies, d.range.WellFormed := by
  obtain ⟨name, body⟩ := e
  simp only [target] at h
  split at h
  · cases h
  · simp only [Except.bind_eq_ok_iff, Except.pure_eq_ok_iff] at h
    obtain ⟨ds, hds, rfl⟩ := h
    exact ⟨by rw [TargetFramework.moniker_withImports], wellFormed_of_dependencies hds⟩

/-- What the file says about targets and dependencies was read. -/
theorem read_eq_ok {data : Value} {s : PackageSpec} (h : read name path data = .ok s) :
    s.name = name ∧ (∀ g ∈ s.targets, g.framework = .withImports g.framework.moniker g.imports) ∧
      ∀ d ∈ s.allDependencies, d.range.WellFormed := by
  simp only [read, Except.bind_eq_ok_iff, Except.pure_eq_ok_iff] at h
  obtain ⟨targets, htargets, ds, hds, rfl⟩ := h
  have htarget : ∀ g ∈ targets, g.framework = .withImports g.framework.moniker g.imports ∧
      ∀ d ∈ g.dependencies, d.range.WellFormed := by
    intro g hg
    obtain ⟨e, -, he⟩ := Except.exists_of_mem_mapM htargets hg
    exact target_eq_ok he
  refine ⟨rfl, fun g hg => (htarget g hg).1, fun d hd => ?_⟩
  rcases List.mem_append.1 hd with hd | hd
  · exact wellFormed_of_dependencies hds d hd
  · obtain ⟨g, hg, hd⟩ := List.mem_flatMap.1 hd
    exact (htarget g hg).2 d hd

end PackageSpec.ProjectJson

namespace Specification

/-- The range of a package reference is well formed, whatever its metadata say. -/
theorem wellFormed_rangeOf (item : ProjectItem) : (rangeOf item).WellFormed := by
  -- an item without readable version asks for every version
  simp only [rangeOf]
  split
  · exact .inl (VersionRange.plain_all none)
  · cases hparse : VersionRange.parse (item.metadataText "Version") with
    | error e => exact .inl (VersionRange.plain_all none)
    | ok r => exact VersionRange.wellFormed_of_parse hparse

/-! ## The three formats -/

/-- References by path go by their paths. -/
theorem path_eq_of_mem_plainReferences {references : List String} {framework : TargetFramework}
    {r : ProjectReference} (h : r ∈ (plainReferences references framework).references) : r.path = r.uniqueName := by
  obtain ⟨path, -, rfl⟩ := List.mem_map.1 h
  rfl

/-- A target carries the fallbacks that the project imports. -/
theorem framework_targetOf (fallbacks : List Moniker) (items : List ProjectItem) (moniker : Moniker) :
    (targetOf fallbacks items moniker).framework =
      .withImports (targetOf fallbacks items moniker).framework.moniker (targetOf fallbacks items moniker).imports := by
  simp only [targetOf, TargetFramework.moniker_withImports]

variable {project : String} (hne : project ≠ "")

include hne

/-- A project with listed packages has a normalized specification. -/
theorem isNormalized_ofPackagesConfig {references : List String} {p : String → String} {s : PackageSpec}
    (h : (ofPackagesConfig project references).run p = some s) : ∃ m, s.IsNormalized project m := by
  simp only [ofPackagesConfig, Inquiry.run_bind, Inquiry.run_pure] at h
  obtain ⟨moniker, -, rfl⟩ := Option.map_eq_some_iff.1 h
  refine ⟨_, rfl, hne, rfl, rfl, rfl, rfl, rfl, List.Sublist.refl _, ?_, ?_, ?_⟩
  · intro g hg
    obtain rfl := List.mem_singleton.1 hg
    rfl
  · intro g hg r hr
    obtain rfl := List.mem_singleton.1 hg
    exact path_eq_of_mem_plainReferences hr
  · intro d hd
    cases hd

/-- A description in JSON gives a normalized specification, if its frameworks and ranges are as they are read. -/
theorem isNormalized_ofProjectJson (references : List String) {described : PackageSpec}
    (hname : described.name = ProjectDescriptor.displayName project)
    (htargets : ∀ g ∈ described.targets, g.framework = .withImports g.framework.moniker g.imports)
    (hranges : ∀ d ∈ described.allDependencies, d.range.WellFormed ∧ d.range.isPrintable = true) :
    ∃ m, (ofProjectJson project references described).IsNormalized project m := by
  refine ⟨_, rfl, hne, rfl, rfl, hname, rfl, rfl, ?_, htargets, ?_, hranges⟩
  · -- the references are for the frameworks without repetition
    show ((described.frameworks.map (plainReferences references)).map ReferenceGroup.framework).Sublist _
    rw [List.map_map, show ReferenceGroup.framework ∘ plainReferences references = id from rfl, List.map_id]
    exact sublist_distinct _
  · intro g hg r hr
    obtain ⟨framework, -, rfl⟩ := List.mem_map.1 hg
    exact path_eq_of_mem_plainReferences hr

/-- Targets with well-formed ranges that can be written make a normalized specification. -/
theorem isNormalized_withTargets {cwd outputPath : String} {references : List ProjectItem} {runtimes : RuntimeGraph}
    {targets : List FrameworkGroup}
    (htargets : ∀ g ∈ targets, g.framework = .withImports g.framework.moniker g.imports)
    (hranges : ∀ g ∈ targets, ∀ d ∈ g.dependencies, d.range.WellFormed ∧ d.range.isPrintable = true) :
    ∃ m, (withTargets cwd project references outputPath runtimes targets).IsNormalized project m := by
  refine ⟨_, rfl, hne, rfl, rfl, rfl, rfl, rfl, ?_, htargets, ?_, ?_⟩
  · show ((targets.map fun g => (⟨g.framework, _⟩ : ReferenceGroup)).map ReferenceGroup.framework).Sublist _
    rw [List.map_map]
    exact List.Sublist.refl _
  · intro g hg r hr
    obtain ⟨t, -, rfl⟩ := List.mem_map.1 hg
    obtain ⟨item, -, rfl⟩ := List.mem_map.1 hr
    rfl
  · intro d hd
    obtain ⟨g, hg, hd⟩ := List.mem_flatMap.1 hd
    exact hranges g hg d hd

/-- A project with package references has a normalized specification, if its ranges can be written. -/
theorem isNormalized_ofPackageReferences {cwd : String} {data : ProjectData} {p : String → String} {s : PackageSpec}
    (h : (ofPackageReferences cwd project data).run p = some s)
    (hprintable : ∀ d ∈ s.allDependencies, d.range.isPrintable = true) : ∃ m, s.IsNormalized project m := by
  simp only [ofPackageReferences] at h
  split at h
  · cases h
  · simp only [Inquiry.run_bind] at h
    split at h
    · cases h
    · simp only [Inquiry.run_bind, Inquiry.run_pure, Option.some.injEq] at h
      subst h
      -- every target is made from a moniker, with all items as its dependencies
      refine isNormalized_withTargets hne (fun g hg => ?_) (fun g hg d hd => ?_)
      · obtain ⟨moniker, -, rfl⟩ := List.mem_map.1 hg
        exact framework_targetOf _ _ moniker
      · have hprint := hprintable d (List.mem_append_right _ (List.mem_flatMap.2 ⟨g, hg, hd⟩))
        obtain ⟨moniker, -, rfl⟩ := List.mem_map.1 hg
        obtain ⟨item, -, rfl⟩ := List.mem_map.1 hd
        exact ⟨wellFormed_rangeOf item, hprint⟩

end Specification

namespace ProjectOutcome

variable {fs : FileSystem} {provider : ProjectProvider} {project : String} {o : ProjectOutcome}

/-- The ranges of a specification with keys can be written. -/
theorem isPrintable_of_dependencyKeys {s : PackageSpec} {keys : List PackageKey}
    (h : dependencyKeys (some s) = .ok keys) : ∀ d ∈ s.allDependencies, d.range.isPrintable = true := by
  intro d hd
  obtain ⟨key, hkey⟩ := Except.exists_mapM_eq_ok_iff.1 ⟨keys, h⟩ d hd
  unfold PackageKey.ofRange? at hkey
  split at hkey
  · assumption
  · cases hkey

/-- The specification that normalizing a project gives is normalized. -/
theorem isNormalized_of_ofProject (hne : project ≠ "") (h : (ofProject fs provider project).result = .ok o)
    {s : PackageSpec} (hs : o.spec = some s) : ∃ m, s.IsNormalized project m := by
  rcases ofProject_cases h with ⟨-, h⟩ | ⟨-, h | h⟩
  · obtain ⟨-, -, data, -, hspec⟩ := ofPackagesConfig_eq_ok h
    exact Specification.isNormalized_ofPackagesConfig hne (hspec.symm.trans hs)
  · obtain ⟨-, hkeys, hspec⟩ := ofProjectJson_eq_ok h
    obtain ⟨value, described, data, hread, -, rfl⟩ := hspec s hs
    obtain ⟨hname, htargets, hranges⟩ := PackageSpec.ProjectJson.read_eq_ok hread
    rw [hs] at hkeys
    exact Specification.isNormalized_ofProjectJson hne data.references hname htargets fun d hd =>
      ⟨hranges d hd, isPrintable_of_dependencyKeys hkeys d hd⟩
  · obtain ⟨-, hkeys, data, -, hspec⟩ := ofPackageReferences_eq_ok h
    rw [hs] at hkeys
    exact Specification.isNormalized_ofPackageReferences hne (hspec.symm.trans hs)
      (isPrintable_of_dependencyKeys hkeys)

end ProjectOutcome
end PackageGraph
