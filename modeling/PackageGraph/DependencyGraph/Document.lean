import PackageGraph.Json.Shape
/-!
# The shape of graph documents

What a dependency-graph document looks like: an object with projects by unique name and the roots to restore.
-/
namespace PackageGraph.DependencyGraph.Document

open Json (Shape)

/-- Dependencies by name: a version, or an object with settings. -/
def dependencies : Shape :=
  .mapOf <| .either .text <| .withFields
    [("target", .text), ("version", .text), ("include", .text), ("exclude", .text), ("suppressParent", .text)]

/-- A reference to another project. -/
def projectReference : Shape :=
  .withFields
    [("projectPath", .text), ("includeAssets", .text), ("excludeAssets", .text), ("privateAssets", .text)]

/-- What is known about restoring a project. -/
def restore : Shape :=
  .withFields [
    ("projectUniqueName", .text), ("projectName", .text), ("projectPath", .text), ("projectJsonPath", .text),
    ("outputPath", .text), ("projectStyle", .text), ("crossTargeting", .scalar .flag),
    ("originalTargetFrameworks", .listOf .text), ("sources", .object),
    ("frameworks", .mapOf <| .withFields [("projectReferences", .mapOf projectReference)])]

/-- A project. -/
def project : Shape :=
  .withFields [
    ("version", .text), ("restore", restore), ("dependencies", dependencies),
    ("frameworks", .mapOf <| .withFields [("dependencies", dependencies), ("imports", .listOf .text)]),
    ("runtimes", .object), ("supports", .object)]

/-- A graph document. -/
def shape : Shape :=
  .record ["projects"]
    [("format", .scalar .whole), ("restore", .object), ("projects", .mapOf project)] .anything

end PackageGraph.DependencyGraph.Document
