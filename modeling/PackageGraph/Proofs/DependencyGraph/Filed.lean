import PackageGraph.DependencyGraph.Reader
import PackageGraph.Proofs.DependencyGraph.Reread
/-!
# What a document keeps

A document files what a project declares under names: targets under their short names, dependencies, references,
runtimes and profiles under their own. Of entries of one name it keeps the last, in the place of the first, and a
framework is what its short name is read as. The path of the description of a project is not written; the path of the
project takes its place.
-/
namespace PackageGraph

open DependencyGraph.Document

/-- What a document keeps of a target. -/
def FrameworkGroup.filed (g : FrameworkGroup) : FrameworkGroup :=
  let imports := g.imports.filterMap fun i => Moniker.parse? i.shortName
  ⟨.withImports ((Moniker.parse? g.framework.shortName).getD g.framework.moniker) imports,
    filedUnder Dependency.name g.dependencies, imports⟩

/-- What a document keeps of the references for a framework, of which the targets say what it is. -/
def ReferenceGroup.filedAmong (targets : List FrameworkGroup) (g : ReferenceGroup) : ReferenceGroup :=
  ⟨declaredFramework targets ((Moniker.parse? g.framework.shortName).getD g.framework.moniker),
    filedUnder ProjectReference.uniqueName g.references⟩

/-- What a document keeps of runtimes and profiles. -/
def RuntimeGraph.filed (r : RuntimeGraph) : RuntimeGraph := ⟨distinct r.runtimes, distinct r.supports⟩

/-- What a document keeps of restore metadata, given the targets that it keeps. -/
def RestoreMetadata.filedAmong (targets : List FrameworkGroup) (m : RestoreMetadata) :
    RestoreMetadata :=
  { m with
    targets := (filedUnder (fun g => g.framework.shortName) m.targets).map (ReferenceGroup.filedAmong targets)
    sources := distinct m.sources }

namespace PackageSpec

/-- The targets that a document keeps. -/
def filedTargets (s : PackageSpec) : List FrameworkGroup :=
  (filedUnder (fun g => g.framework.shortName) s.targets).map FrameworkGroup.filed

/-- What a document keeps of a project. -/
def filed (s : PackageSpec) : PackageSpec :=
  { s with
    filePath := (s.restore.map RestoreMetadata.projectPath).getD s.filePath
    targets := s.filedTargets
    dependencies := filedUnder Dependency.name s.dependencies
    runtimeGraph := s.runtimeGraph.map RuntimeGraph.filed
    restore := s.restore.map (RestoreMetadata.filedAmong s.filedTargets) }

end PackageSpec
end PackageGraph
