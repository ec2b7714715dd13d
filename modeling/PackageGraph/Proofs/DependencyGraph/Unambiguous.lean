import Mathlib.Data.List.Nodup
import PackageGraph.Proofs.DependencyGraph.Settled
/-!
# What a document tells apart

What a document keeps of a normalized project is the project itself, but for the path of its description, exactly if
nothing in the project is named twice and its short names stand for its frameworks.
-/
namespace PackageGraph

open DependencyGraph.Document

/-- The short names of the framework and of its imports stand for them, and no two dependencies have one name. -/
structure FrameworkGroup.IsUnambiguous (g : FrameworkGroup) : Prop where
  moniker : Moniker.parse? g.framework.shortName = some g.framework.moniker
  imports : ∀ i ∈ g.imports, Moniker.parse? i.shortName = some i
  names : (g.dependencies.map Dependency.name).Nodup

/-- Nothing in the project is named twice, and the short names in it stand for its frameworks. -/
structure PackageSpec.IsUnambiguous (s : PackageSpec) : Prop where
  targets : ∀ g ∈ s.targets, g.IsUnambiguous
  targetNames : (s.targets.map fun g => g.framework.shortName).Nodup
  dependencies : (s.dependencies.map Dependency.name).Nodup
  references : ∀ m ∈ s.restore, ∀ g ∈ m.targets, (g.references.map ProjectReference.uniqueName).Nodup
  runtimes : ∀ r ∈ s.runtimeGraph, r.runtimes.Nodup ∧ r.supports.Nodup

instance (g : FrameworkGroup) : Decidable g.IsUnambiguous :=
  decidable_of_iff
    (Moniker.parse? g.framework.shortName = some g.framework.moniker ∧
      (∀ i ∈ g.imports, Moniker.parse? i.shortName = some i) ∧ (g.dependencies.map Dependency.name).Nodup)
    ⟨fun ⟨moniker, imports, names⟩ => ⟨moniker, imports, names⟩, fun h => ⟨h.moniker, h.imports, h.names⟩⟩

instance (s : PackageSpec) : Decidable s.IsUnambiguous :=
  decidable_of_iff
    ((∀ g ∈ s.targets, g.IsUnambiguous) ∧ (s.targets.map fun g => g.framework.shortName).Nodup ∧
      (s.dependencies.map Dependency.name).Nodup ∧
      (∀ m ∈ s.restore, ∀ g ∈ m.targets, (g.references.map ProjectReference.uniqueName).Nodup) ∧
      ∀ r ∈ s.runtimeGraph, r.runtimes.Nodup ∧ r.supports.Nodup)
    ⟨fun ⟨targets, targetNames, dependencies, references, runtimes⟩ =>
        ⟨targets, targetNames, dependencies, references, runtimes⟩,
      fun h => ⟨h.targets, h.targetNames, h.dependencies, h.references, h.runtimes⟩⟩

/-- The project described at another path. -/
def PackageSpec.describedAt (s : PackageSpec) (path : String) : PackageSpec := { s with filePath := path }

/-- A project that is described at its own path is itself. -/
theorem PackageSpec.describedAt_of_filePath_eq {s : PackageSpec} {path : String} (h : s.filePath = path) :
    s.describedAt path = s := by
  rw [describedAt, ← h]

/-- A document keeps the path of the project, whatever the path of its description. -/
theorem PackageSpec.filed_describedAt {s : PackageSpec} {m : RestoreMetadata} (hm : s.restore = some m)
    (path : String) : (s.describedAt path).filed = s.filed := by
  have hpath : (s.describedAt path).restore = some m := hm
  rw [filed, filed, hpath, hm]
  rfl

/-- The project has the form that normalizing gives it: it goes by its path, its references are for frameworks that it
is built for, and its ranges were read and can be written. -/
structure PackageSpec.IsNormalized (key : String) (m : RestoreMetadata) (s : PackageSpec) : Prop where
  restore : s.restore = some m
  nonempty : key ≠ ""
  uniqueName : m.uniqueName = key
  projectPath : m.projectPath = key
  projectName : m.projectName = Path.stem key
  name : s.name = m.projectName
  sources : m.sources = []
  frameworks : (m.targets.map ReferenceGroup.framework).Sublist (s.targets.map FrameworkGroup.framework)
  targets : ∀ g ∈ s.targets, g.framework = .withImports g.framework.moniker g.imports
  references : ∀ g ∈ m.targets, ∀ r ∈ g.references, r.path = r.uniqueName
  ranges : ∀ d ∈ s.allDependencies, d.range.WellFormed ∧ d.range.isPrintable = true

/-! ## Equal projects -/

theorem forall₂_of_beq {α : Type} [BEq α] {xs ys : List α} (h : (xs == ys) = true) :
    List.Forall₂ (fun x y => (x == y) = true) xs ys := by
  induction xs generalizing ys with
  | nil =>
    cases ys with
    | nil => exact .nil
    | cons y ys => cases h
  | cons x xs ih =>
    cases ys with
    | nil => cases h
    | cons y ys =>
      rw [List.cons_beq_cons, Bool.and_eq_true] at h
      exact .cons h.1 (ih h.2)

/-- Equal targets are for one framework and have equal dependencies and the same imports. -/
theorem FrameworkGroup.parts_of_beq {g h : FrameworkGroup} (hbeq : (g == h) = true) :
    g.framework = h.framework ∧ (g.dependencies == h.dependencies) = true ∧ g.imports = h.imports := by
  change instBEqFrameworkGroup.beq g h = true at hbeq
  simpa [instBEqFrameworkGroup.beq] using hbeq

/-- Equal projects agree in each of their parts. -/
theorem PackageSpec.parts_of_beq {s t : PackageSpec} (hbeq : (s == t) = true) :
    s.name = t.name ∧ s.filePath = t.filePath ∧ (s.targets == t.targets) = true ∧
      (s.dependencies == t.dependencies) = true ∧ s.runtimeGraph = t.runtimeGraph ∧ s.restore = t.restore ∧
        s.version = t.version := by
  change instBEqPackageSpec.beq s t = true at hbeq
  simpa [instBEqPackageSpec.beq] using hbeq

/-! ## What is kept whole has no ambiguities -/

theorem nodup_of_distinct_eq {names : List String} (h : distinct names = names) : names.Nodup :=
  nodup_of_length_distinct (congrArg List.length h)

/-- Entries of which as many are kept as there were have different names. -/
theorem nodup_of_map_filedUnder_beq {α : Type} [BEq α] {name : α → String} {f : α → α} {xs : List α}
    (h : ((filedUnder name xs).map f == xs) = true) : (xs.map name).Nodup := by
  have hlength := (forall₂_of_beq h).length_eq
  rw [List.length_map] at hlength
  exact nodup_of_length_filedUnder hlength

/-- A target that a document keeps is unambiguous. -/
theorem FrameworkGroup.isUnambiguous_of_filed_beq {g : FrameworkGroup}
    (hname : Text.isBlankText g.framework.shortName = false) (hbeq : (g.filed.reread == g) = true) :
    g.IsUnambiguous := by
  obtain ⟨m, hm⟩ := Moniker.exists_parse? hname
  obtain ⟨hframework, hdependencies, himports⟩ := FrameworkGroup.parts_of_beq hbeq
  constructor
  case moniker =>
    have hmoniker : g.framework.moniker = m := by
      rw [← hframework]
      show (TargetFramework.withImports ((Moniker.parse? g.framework.shortName).getD _) _).moniker = m
      rw [TargetFramework.moniker_withImports, hm, Option.getD_some]
    rw [hmoniker]
    exact hm
  case imports => exact filterMap_eq_self_iff.1 himports
  case names => exact nodup_of_map_filedUnder_beq hdependencies

/-- A project that its document keeps whole, but for the path of its description, has no ambiguities. -/
theorem PackageSpec.isUnambiguous_of_filed_beq {s : PackageSpec} {path : String}
    (hnamed : ∀ g ∈ s.targets, Text.isBlankText g.framework.shortName = false)
    (hbeq : (s.filed.reread == s.describedAt path) = true) : s.IsUnambiguous := by
  obtain ⟨-, -, htargets, hdependencies, hruntimes, hrestore, -⟩ := PackageSpec.parts_of_beq hbeq
  have htargets : ((s.filedTargets.map FrameworkGroup.reread) == s.targets) = true := htargets
  rw [filedTargets, List.map_map] at htargets
  have htargetNames := nodup_of_map_filedUnder_beq htargets
  constructor
  case targets =>
    -- with different short names the targets stay where they are, and each can be compared with itself
    rw [filedUnder_of_nodup htargetNames] at htargets
    intro g hg
    have hsame := forall₂_of_beq htargets
    rw [List.forall₂_map_left_iff, List.forall₂_same] at hsame
    exact FrameworkGroup.isUnambiguous_of_filed_beq (hnamed g hg) (hsame g hg)
  case targetNames => exact htargetNames
  case dependencies => exact nodup_of_map_filedUnder_beq hdependencies
  case references =>
    intro m hm g hg
    have hm : s.restore = some m := hm
    have hrestore : s.restore.map (RestoreMetadata.filedAmong s.filedTargets) = s.restore := hrestore
    rw [hm, Option.map_some, Option.some.injEq] at hrestore
    have htargets := congrArg RestoreMetadata.targets hrestore
    have hnames := nodup_of_map_filedUnder_beq (beq_iff_eq.2 htargets)
    simp only [RestoreMetadata.filedAmong, filedUnder_of_nodup hnames] at htargets
    have hgroup := congrArg ReferenceGroup.references (map_eq_self_iff.1 htargets g hg)
    exact nodup_of_length_filedUnder (congrArg List.length hgroup)
  case runtimes =>
    intro r hr
    have hr : s.runtimeGraph = some r := hr
    have hruntimes : s.runtimeGraph.map RuntimeGraph.filed = s.runtimeGraph := hruntimes
    rw [hr, Option.map_some, Option.some.injEq] at hruntimes
    exact ⟨nodup_of_distinct_eq (congrArg RuntimeGraph.runtimes hruntimes),
      nodup_of_distinct_eq (congrArg RuntimeGraph.supports hruntimes)⟩

namespace DependencyGraph.Document

variable {path : String}

/-! ## What has no ambiguities is kept whole -/

/-- Where no two targets have one short name, the framework of a target is found by its short name. -/
theorem declaredFramework_of_mem {targets : List FrameworkGroup}
    (hnames : (targets.map fun g => g.framework.shortName).Nodup) {g : FrameworkGroup} (hg : g ∈ targets) :
    declaredFramework targets g.framework.moniker = g.framework := by
  rcases declaredFramework_cases targets g.framework.moniker with ⟨h, hh, hframework, hshort⟩ | hplain
  · rw [hframework, List.inj_on_of_nodup_map hnames hh hg hshort]
  · -- the lookup cannot fail, since the target itself has the short name
    unfold declaredFramework at hplain ⊢
    cases hfind : targets.reverse.find? fun h => h.framework.shortName == g.framework.moniker.shortName with
    | none =>
      have hnot := List.find?_eq_none.1 hfind g (List.mem_reverse.2 hg)
      exact absurd (beq_self_eq_true g.framework.shortName) hnot
    | some h =>
      have hfound := List.find?_some hfind
      have hshort : h.framework.shortName = g.framework.shortName := beq_iff_eq.1 hfound
      have hmem := List.mem_reverse.1 (List.mem_of_find?_eq_some hfind)
      rw [List.inj_on_of_nodup_map hnames hmem hg hshort]
      rfl

section

variable {key : String} {m : RestoreMetadata} {s : PackageSpec} (hs : s.IsNormalized key m)

include hs

/-- References are for frameworks of the targets. -/
theorem exists_target_of_mem_references : ∀ g ∈ m.targets, ∃ t ∈ s.targets, t.framework = g.framework := fun _ hg =>
  List.mem_map.1 (hs.frameworks.subset (List.mem_map_of_mem hg))

/-- The document of a normalized project is accepted exactly if its frameworks have names. -/
theorem exists_readProject_iff_named : (∃ t, readProject path key s.toJson = .ok t) ↔
    ∀ g ∈ s.targets, Text.isBlankText g.framework.shortName = false := by
  constructor
  · rintro ⟨t, ht⟩ g hg
    obtain ⟨references, hgroups, -⟩ := readProject_eq_ok ht
    have hread := (readGroups_eq_ok hgroups).1
    rw [entries_frameworks_project, List.mapM_map] at hread
    -- the short name is that of an entry, though perhaps of another target
    have hname : g.framework.shortName ∈
        (filedUnder (fun g => g.framework.shortName) s.targets).map fun g => g.framework.shortName := by
      rw [map_filedUnder, mem_distinct]
      exact List.mem_map_of_mem hg
    obtain ⟨h, hh, hname⟩ := List.mem_map.1 hname
    obtain ⟨h', hh'⟩ := Except.exists_mapM_eq_ok_iff.1 ⟨_, hread⟩ h hh
    obtain ⟨m, hm, -⟩ := readTarget_eq_ok hh'
    rw [← hname]
    exact Moniker.exists_parse?_iff.1 ⟨m, hm⟩
  · intro hnamed
    refine exists_readProject_of_parse hs.restore (fun d hd => ?_) hnamed (fun g hg => ?_) key
    · exact VersionRange.exists_parse_normalized_of_isPrintable (hs.ranges d hd).1 (hs.ranges d hd).2
    · obtain ⟨t, ht, hframework⟩ := exists_target_of_mem_references hs g hg
      rw [← hframework]
      exact hnamed t ht

/-- A normalized project says everything that a reader looks for. -/
theorem isExplicit_of_isNormalized (hnamed : ∀ g ∈ s.targets, Text.isBlankText g.framework.shortName = false)
    (hc : ∀ d ∈ s.allDependencies, d.range.isComparable = true) : s.IsExplicit key m := by
  constructor
  case restore => exact hs.restore
  case name => exact hs.name
  case uniqueName => exact fun h => absurd (hs.uniqueName.symm.trans h) hs.nonempty
  case projectPath => exact fun h => absurd (hs.projectPath.symm.trans h) hs.nonempty
  case projectName => exact fun h => by rw [hs.projectPath, ← hs.projectName, h]
  case targets => exact hnamed
  case references =>
    intro g hg
    obtain ⟨t, ht, hframework⟩ := exists_target_of_mem_references hs g hg
    rw [← hframework]
    exact hnamed t ht
  case paths => exact fun g hg r hr h => (hs.references g hg r hr).symm.trans h
  case dependencies => exact fun d hd => ⟨(hs.ranges d hd).1, hc d hd⟩

/-- What is read of a normalized project is what its document keeps of it. -/
theorem readProject_eq_filed (hnamed : ∀ g ∈ s.targets, Text.isBlankText g.framework.shortName = false)
    (hc : ∀ d ∈ s.allDependencies, d.range.isComparable = true) :
    readProject path key s.toJson = .ok s.filed.reread :=
  readProject_toJson (isExplicit_of_isNormalized hs hnamed hc)

/-- A normalized project without ambiguities is settled but for the path of its description. -/
theorem isSettled_describedAt (hunambiguous : s.IsUnambiguous)
    (hc : ∀ d ∈ s.allDependencies, d.range.isComparable = true) : (s.describedAt key).IsSettled key m := by
  have hnamed : ∀ g ∈ s.targets, Text.isBlankText g.framework.shortName = false := fun g hg =>
    Moniker.exists_parse?_iff.1 ⟨_, (hunambiguous.targets g hg).moniker⟩
  have hexplicit := isExplicit_of_isNormalized hs hnamed hc
  constructor
  case restore => exact hs.restore
  case name => exact hs.name
  case filePath => exact hs.projectPath.symm
  case uniqueName => exact hexplicit.uniqueName
  case projectPath => exact hexplicit.projectPath
  case projectName => exact hexplicit.projectName
  case sources =>
    rw [hs.sources]
    exact List.nodup_nil
  case targets =>
    intro g hg
    have hgroup := hunambiguous.targets g hg
    refine ⟨hs.targets g hg, hgroup.moniker, hgroup.imports, fun d hd => ?_, hgroup.names⟩
    exact hexplicit.dependencies d (List.mem_append_right _ (List.mem_flatMap.2 ⟨g, hg, hd⟩))
  case targetNames => exact hunambiguous.targetNames
  case references =>
    intro g hg
    obtain ⟨t, ht, hframework⟩ := exists_target_of_mem_references hs g hg
    refine ⟨?_, ?_, hexplicit.paths g hg, hunambiguous.references m hs.restore g hg⟩
    · rw [← hframework]
      exact declaredFramework_of_mem hunambiguous.targetNames ht
    · rw [← hframework]
      exact (hunambiguous.targets t ht).moniker
  -- references are by the frameworks of the targets, of which each has its own short name
  case referenceNames =>
    have hnodup := (hs.frameworks.map TargetFramework.shortName).nodup
      (by simpa [Function.comp_def] using hunambiguous.targetNames)
    simpa [Function.comp_def] using hnodup
  case dependencies => exact fun d hd => hexplicit.dependencies d (List.mem_append_left _ hd)
  case names => exact hunambiguous.dependencies
  case runtimes => exact hunambiguous.runtimes

/-- A document keeps all of a normalized project, but for the path of its description, exactly if the project has no
ambiguities. -/
theorem filed_beq_iff (hnamed : ∀ g ∈ s.targets, Text.isBlankText g.framework.shortName = false)
    (hc : ∀ d ∈ s.allDependencies, d.range.isComparable = true) :
    (s.filed.reread == s.describedAt key) = true ↔ s.IsUnambiguous := by
  constructor
  · exact PackageSpec.isUnambiguous_of_filed_beq hnamed
  · intro hunambiguous
    -- the path of the description does not reach the document, so it may be that of the project
    rw [← PackageSpec.filed_describedAt hs.restore key, (isSettled_describedAt hs hunambiguous hc).filed_eq]
    exact PackageSpec.reread_beq fun d hd => (VersionRange.parse_eq_reread (hs.ranges d hd).1 (hc d hd)).2

end

end DependencyGraph.Document
end PackageGraph
