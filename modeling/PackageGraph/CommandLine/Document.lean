import PackageGraph.Aggregate.Basic
import PackageGraph.BuildTool.Derivation
import PackageGraph.CommandLine.Command
import PackageGraph.Project.Scan
/-!
# Documents

What each command writes: the content of a description, an aggregate of projects, or a derived graph, as a JSON
document.
-/
namespace PackageGraph

/-- A package of a list as an object. -/
def PackageRecord.toJson (r : PackageRecord) : Json :=
  .object [("package_id", .text r.packageId), ("version", .text r.version),
    ("target_framework", .text r.targetFramework), ("development_dependency", .text r.developmentDependency)]

/-- A package reference as an object. -/
def PackageReferenceRecord.toJson (r : PackageReferenceRecord) : Json :=
  .object [("name", .text r.name), ("version", .text r.version)]

namespace Description

/-- The content of the description; a description that is missing has none. -/
def content : Description → Json
  | .packages records => (records.map fun rs => .list (rs.map PackageRecord.toJson)).getD .null
  | .json data => (data.map Value.toJson).getD .null
  | .references records => (records.map fun rs => .list (rs.map PackageReferenceRecord.toJson)).getD .null

/-- The description as an object that names its format. -/
def toJson (d : Description) : Json := .object [("format", .text d.format.name), ("data", d.content)]

end Description

namespace Aggregate

/-- A project of the aggregate as an object. -/
def descriptorJson (d : ProjectDescriptor) : Json :=
  .object [("name", .text d.name), ("path", .text d.path), ("format", .text d.format.name)]

/-- A package with the projects that ask for it as an object. -/
def consumersJson (key : PackageKey) (projects : List String) : Json :=
  .object [("id", .text key.packageId), ("version", .text key.version), ("projects", .ofTexts projects)]

/-- A reference that leads out of the aggregate as an object. -/
def unresolvedJson (u : UnresolvedReference) : Json :=
  .object [("project", .text u.project), ("reference", .text u.reference)]

/-- The aggregate as an object, together with the package sources that are in effect. -/
def toJson (a : Aggregate) (graph : Json) (sources : List String) : Json :=
  .object [("projects", .list (a.descriptors.map descriptorJson)), ("dependencyGraph", graph),
    ("packageReferences", .list (a.consumers.map fun (key, projects) => consumersJson key projects)),
    ("packageSources", .ofTexts sources), ("unresolvedReferences", .list (a.unresolved.map unresolvedJson))]

end Aggregate

namespace CommandLine

/-- The document of a description. A file whose name tells no format is refused. -/
def scanDocument (fs : FileSystem) (file : String) : Logged Json := do
  match ← Description.scan fs file with
  | some d => return d.toJson
  | none => throw (.usage (.unsupportedFile file))

/-- The document of an aggregate of projects, of which as many are worked on at a time as the settings say. -/
def graphDocument (schedule : Schedule) (fs : FileSystem) (env : Environment) (given : GivenSettings)
    (projects : List String) : Logged Json := do
  let settings ← given.resolve fs env
  let slots ← Logged.ofExcept settings.slots
  let aggregate ← Aggregate.ofProjectsIn schedule slots fs (.ofFiles fs) projects
  let graph ← Logged.ofExcept aggregate.toGraph.toJson?
  return aggregate.toJson graph (← Logged.ofExcept settings.sources)

/-- The document of a graph that the build tool derives. -/
def derivedDocument (tool : BuildTool) (fs : FileSystem) (env : Environment) (given : GivenSettings)
    (stem project : String) : Execution Json :=
  (Execution.ofLogged fs (given.resolve fs env)).andThen fun fs settings =>
    (Derivation.derive tool settings fs stem project none none).andThen fun fs graph =>
      .ofLogged fs (Logged.ofExcept graph.toJson?)

/-- The document that an invocation asks for. -/
def document (schedule : Schedule) (tool : BuildTool) (fs : FileSystem) (env : Environment) (stem : String)
    (i : Invocation) : Execution Json :=
  match i.command with
  | .scan file => .ofLogged fs (scanDocument fs file)
  | .graph projects => .ofLogged fs (graphDocument schedule fs env i.options.settings projects)
  | .derive project => derivedDocument tool fs env i.options.settings stem project

end CommandLine
end PackageGraph
