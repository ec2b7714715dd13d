import PackageGraph.Proofs.DependencyGraph.Writer
/-!
# Projects that are kept whole

A settled project is read back as it is, its ranges being those that their normalized forms are read as: no two of its
entries have one name, and its frameworks are those that their short names stand for.
-/
namespace PackageGraph

open DependencyGraph.Document

/-- The framework is read back from what is written for it. -/
structure FrameworkGroup.IsSettled (g : FrameworkGroup) : Prop where
  framework : g.framework = .withImports g.framework.moniker g.imports
  moniker : Moniker.parse? g.framework.shortName = some g.framework.moniker
  imports : ∀ i ∈ g.imports, Moniker.parse? i.shortName = some i
  dependencies : ∀ d ∈ g.dependencies, d.IsReadable
  names : (g.dependencies.map Dependency.name).Nodup

/-- The references for a framework are read back from what is written for them. -/
structure ReferenceGroup.IsSettled (targets : List FrameworkGroup) (g : ReferenceGroup) : Prop where
  framework : declaredFramework targets g.framework.moniker = g.framework
  moniker : Moniker.parse? g.framework.shortName = some g.framework.moniker
  paths : ∀ r ∈ g.references, r.path = "" → r.uniqueName = ""
  names : (g.references.map ProjectReference.uniqueName).Nodup

/-- The project with this metadata is read back from its document under this key. -/
structure PackageSpec.IsSettled (key : String) (m : RestoreMetadata) (s : PackageSpec) : Prop where
  restore : s.restore = some m
  name : s.name = m.projectName
  filePath : s.filePath = m.projectPath
  uniqueName : m.uniqueName = "" → key = ""
  projectPath : m.projectPath = "" → key = ""
  projectName : m.projectName = "" → Path.stem m.projectPath = ""
  sources : m.sources.Nodup
  targets : ∀ g ∈ s.targets, g.IsSettled
  targetNames : (s.targets.map fun g => g.framework.shortName).Nodup
  references : ∀ g ∈ m.targets, g.IsSettled s.targets
  referenceNames : (m.targets.map fun g => g.framework.shortName).Nodup
  dependencies : ∀ d ∈ s.dependencies, d.IsReadable
  names : (s.dependencies.map Dependency.name).Nodup
  runtimes : ∀ r, s.runtimeGraph = some r → r.runtimes.Nodup ∧ r.supports.Nodup

/-! ## Lists that are kept whole -/

section

variable {α : Type} {xs : List α}

theorem map_eq_self_iff {f : α → α} : xs.map f = xs ↔ ∀ x ∈ xs, f x = x := by
  simpa using List.map_inj_left (f := f) (g := id) (l := xs)

theorem filterMap_eq_self_iff {f : α → Option α} : xs.filterMap f = xs ↔ ∀ x ∈ xs, f x = some x := by
  constructor
  · intro h
    induction xs with
    | nil => simp
    | cons x xs ih =>
      cases hx : f x with
      | none =>
        -- the rest would be as long as the whole
        rw [List.filterMap_cons_none hx] at h
        have hle := List.length_filterMap_le f xs
        rw [h, List.length_cons] at hle
        omega
      | some y =>
        rw [List.filterMap_cons_some hx, List.cons.injEq] at h
        obtain ⟨rfl, hxs⟩ := h
        exact List.forall_mem_cons.2 ⟨hx, ih hxs⟩
  · intro h
    rw [List.filterMap_congr h, List.filterMap_some]

end

/-! ## Settled projects -/

/-- A document keeps a settled target as it is. -/
theorem FrameworkGroup.IsSettled.filed_eq {g : FrameworkGroup} (hg : g.IsSettled) : g.filed = g := by
  rw [filed, filterMap_eq_self_iff.2 hg.imports, hg.moniker, Option.getD_some, ← hg.framework,
    filedUnder_of_nodup hg.names]

/-- A document keeps settled references as they are. -/
theorem ReferenceGroup.IsSettled.filedAmong_eq {targets : List FrameworkGroup} {g : ReferenceGroup}
    (hg : g.IsSettled targets) : g.filedAmong targets = g := by
  rw [filedAmong, hg.moniker, Option.getD_some, hg.framework, filedUnder_of_nodup hg.names]

namespace PackageSpec.IsSettled

variable {key : String} {m : RestoreMetadata} {s : PackageSpec} (hs : s.IsSettled key m)

include hs

/-- A settled project says everything that a reader looks for. -/
theorem isExplicit : s.IsExplicit key m := by
  constructor
  case restore => exact hs.restore
  case name => exact hs.name
  case uniqueName => exact hs.uniqueName
  case projectPath => exact hs.projectPath
  case projectName => exact hs.projectName
  case targets => exact fun g hg => Moniker.exists_parse?_iff.1 ⟨_, (hs.targets g hg).moniker⟩
  case references => exact fun g hg => Moniker.exists_parse?_iff.1 ⟨_, (hs.references g hg).moniker⟩
  case paths => exact fun g hg => (hs.references g hg).paths
  case dependencies =>
    intro d hd
    rcases List.mem_append.1 hd with hd | hd
    · exact hs.dependencies d hd
    · obtain ⟨g, hg, hd⟩ := List.mem_flatMap.1 hd
      exact (hs.targets g hg).dependencies d hd

/-- The document of a settled project keeps all of it. -/
theorem filed_eq : s.filed = s := by
  -- names are distinct, so that filing by them drops nothing
  have htargets : s.filedTargets = s.targets := by
    rw [filedTargets, filedUnder_of_nodup hs.targetNames]
    exact map_eq_self_iff.2 fun g hg => (hs.targets g hg).filed_eq
  have hmetadata : m.filedAmong s.targets = m := by
    rw [RestoreMetadata.filedAmong, filedUnder_of_nodup hs.referenceNames, distinct_of_nodup hs.sources,
      map_eq_self_iff.2 fun g hg => (hs.references g hg).filedAmong_eq]
  have hruntimes : s.runtimeGraph.map RuntimeGraph.filed = s.runtimeGraph := by
    cases hr : s.runtimeGraph with
    | none => rfl
    | some r =>
      obtain ⟨hruntimes, hsupports⟩ := hs.runtimes r hr
      rw [Option.map_some, RuntimeGraph.filed, distinct_of_nodup hruntimes, distinct_of_nodup hsupports]
  rw [filed, htargets, hruntimes, filedUnder_of_nodup hs.names, hs.restore, Option.map_some, Option.map_some,
    hmetadata, Option.getD_some, ← hs.filePath, ← hs.restore]

/-- A settled project is read back from its document. -/
theorem readProject_eq {path : String} : readProject path key s.toJson = .ok s.reread := by
  have hread : readProject path key s.toJson = _ := readProject_toJson hs.isExplicit
  rwa [hs.filed_eq] at hread

end PackageSpec.IsSettled
end PackageGraph
