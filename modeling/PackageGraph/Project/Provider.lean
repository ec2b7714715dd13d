import PackageGraph.Path
import PackageGraph.Project.Document
import PackageGraph.Project.PackageReferences
/-!
# Providers of project data

Where the data of projects come from: a provider says what exists beside a project and gives its properties, its
items and the projects that it refers to. One provider reads project files; the abstract one answers nothing.
-/
namespace PackageGraph

/-- What is known about a project. -/
structure ProjectData where
  /-- The value of a property; the empty text when it is not defined. -/
  property : String → String
  /-- The items of a type. -/
  items : String → List ProjectItem
  /-- The paths of the projects that the project refers to. -/
  references : List String

/-- A source of project data. -/
structure ProjectProvider where
  exists? : String → Except Error Bool
  load : String → Logged ProjectData

namespace ProjectData

/-- The data of a project without a readable file. -/
def empty : ProjectData := ⟨fun _ => "", fun _ => [], []⟩

/-- The data that the file of a project holds. -/
def ofDocument (cwd path : String) (root : Element) : ProjectData :=
  ⟨ProjectDocument.property root, ProjectDocument.items root,
    (ProjectDocument.items root "ProjectReference").map fun item => Path.resolveReference cwd path item.included⟩

end ProjectData

namespace ProjectProvider

/-- The provider that leaves everything to others. -/
def abstract : ProjectProvider := ⟨fun _ => .error .notProvided, fun _ => throw .notProvided⟩

/-- The part of the program that logs. -/
def logSource : String := "graph.filesystem"

/-- The document of a project file; nothing when the file is missing or no document. -/
def document? (fs : FileSystem) (path : String) : Logged (Option Element) := do
  if fs.isFile path then
    match fs.readDocument path with
    | .ok root => return some root
    | .error (.malformed _ _) =>
      Logged.log (PackageReferenceRecord.unreadableLog logSource path)
      return none
    | .error e => throw e
  else return none

/-- What is logged when a project file has been read. -/
def loadedLog (path : String) (root? : Option Element) : LogRecord :=
  .debug logSource "Loaded project data"
    [("event", .text "project_loaded"), ("component", .text "filesystem_provider"), ("target", .text path),
      ("outcome", .text (if root?.isSome then "ok" else "empty"))]

/-- The document of the project file at a path. -/
def loadDocument (fs : FileSystem) (path : String) : Logged (Option Element) := do
  let absolute := Path.absolute fs.workingDirectory path
  let root? ← document? fs absolute
  Logged.log (loadedLog absolute root?)
  return root?

/-- The provider that reads project files. -/
def ofFiles (fs : FileSystem) : ProjectProvider where
  exists? path := .ok (fs.exists? path)
  load path := do
    match ← loadDocument fs path with
    | some root => return ProjectData.ofDocument fs.workingDirectory path root
    | none => return ProjectData.empty

end ProjectProvider
end PackageGraph
