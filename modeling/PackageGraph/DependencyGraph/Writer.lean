import PackageGraph.DependencyGraph.Basic
import PackageGraph.Error
import PackageGraph.Json.Writer
/-!
# Writing graph documents

The document of a graph. Flags are written only where they differ from the default; where two entries of a
section would have one name, the document keeps the place of the first and the content of the last.
-/
namespace PackageGraph

open DependencyGraph

/-- A section of entries under their names. -/
def Json.sectionOf (entries : List (String × Json)) : Json := .object (OrderedMap.ofPairs entries)

/-- A section of names without content. -/
def Json.namesOnly (names : List String) : Json := .sectionOf (names.map (·, .empty))

/-- The entry of a dependency. -/
def Dependency.toJson (d : Dependency) : Json :=
  .object (
    [("target", .text d.kind.name), ("version", .text d.range.normalized)] ++
      (if d.included = .all then [] else [("include", .text d.included.text)]) ++
      if d.suppressParent = .defaultPrivate then [] else [("suppressParent", .text d.suppressParent.text)])

/-- A dependencies section. -/
def Dependency.listToJson (ds : List Dependency) : Json := .sectionOf (ds.map fun d => (d.name, d.toJson))

/-- The entry of a project reference. -/
def ProjectReference.toJson (r : ProjectReference) : Json :=
  .object [("projectPath", .text r.path), ("includeAssets", .text r.includeAssets.text),
    ("excludeAssets", .text r.excludeAssets.text), ("privateAssets", .text r.privateAssets.text)]

/-- The entry of the project references for a framework. -/
def ReferenceGroup.toJson (g : ReferenceGroup) : Json :=
  .object [("projectReferences", .sectionOf (g.references.map fun r => (r.uniqueName, r.toJson)))]

/-- The restore section of a project. -/
def RestoreMetadata.toJson (m : RestoreMetadata) : Json :=
  .object (
    [("projectUniqueName", .text m.uniqueName), ("projectName", .text m.projectName),
      ("projectPath", .text m.projectPath), ("projectStyle", .text m.format.name),
      ("outputPath", .text m.outputPath), ("crossTargeting", .bool m.crossTargeting),
      ("originalTargetFrameworks", .ofTexts m.writtenFrameworks), ("sources", .namesOnly m.sources),
      ("frameworks", .sectionOf (m.targets.map fun g => (g.framework.shortName, g.toJson)))] ++
      if m.projectJsonPath.isEmpty then [] else [("projectJsonPath", .text m.projectJsonPath)])

/-- The entry of a target framework. -/
def FrameworkGroup.toJson (g : FrameworkGroup) : Json :=
  .object (
    [("dependencies", Dependency.listToJson g.dependencies)] ++
      if g.imports.isEmpty then [] else [("imports", .ofTexts (g.imports.map Moniker.shortName))])

/-- The sections of runtimes and profiles. -/
def RuntimeGraph.toMembers (r : RuntimeGraph) : List (String × Json) :=
  [("runtimes", .namesOnly r.runtimes), ("supports", .namesOnly r.supports)]

/-- The entry of a project. -/
def PackageSpec.toJson (s : PackageSpec) : Json :=
  .object (
    [("version", .text s.version)] ++
      ((s.restore.map fun m => [("restore", m.toJson)]).getD []) ++
      (if s.dependencies.isEmpty then [] else [("dependencies", Dependency.listToJson s.dependencies)]) ++
      [("frameworks", .sectionOf (s.targets.map fun g => (g.framework.shortName, g.toJson)))] ++
      (s.runtimeGraph.map RuntimeGraph.toMembers).getD [])

namespace DependencyGraph

/-- The version of the format of graph documents. -/
def formatVersion : Int := 1

/-- The document of a graph. -/
def toJson (g : DependencyGraph) : Json :=
  .object [("format", .int formatVersion), ("restore", .namesOnly g.restore),
    ("projects", .object (g.projects.map fun (name, s) => (name, s.toJson)))]

/-- Whether every range in the graph can be written. -/
def isPrintable (g : DependencyGraph) : Bool :=
  g.projects.all fun (_, s) => s.allDependencies.all fun d => d.range.isPrintable

/-- The document of a graph, if every range in it can be written. -/
def toJson? (g : DependencyGraph) : Except Error Json :=
  if g.isPrintable then .ok g.toJson else .error (.fault .unreadable)

/-- The text of the file of a graph. -/
def fileText (g : DependencyGraph) : String := g.toJson.render

end DependencyGraph
end PackageGraph
