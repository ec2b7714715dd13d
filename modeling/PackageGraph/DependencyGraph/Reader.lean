import PackageGraph.DependencyGraph.Basic
import PackageGraph.DependencyGraph.Document
import PackageGraph.Log
import PackageGraph.Project.JsonFile
import PackageGraph.VersionRange.Parser
/-!
# Reading graph documents

A document that has the shape of a graph document becomes a graph, unless a version in it is unreadable or a
framework has no name. The shape is checked first, so that the conversion finds every member of the kind it
looks for; a missing member stands for its default.
-/
namespace PackageGraph.DependencyGraph

namespace Document

/-- The members of a section of an object. -/
def entries (j : Json) (name : String) : List (String × Json) := ((j.get? name).map Json.members).getD []

/-- The text under a name, unless it is missing or empty. -/
def filled? (j : Json) (name : String) : Option String := (j.textAt? name).filter fun s => !s.isEmpty

/-- The flags under a name. -/
def flags (j : Json) (name : String) (default : AssetFlags) : AssetFlags :=
  AssetFlags.parseOptional (j.textAt? name) default

/-- The settings of a dependency, which may be written as its version alone. -/
def settings : Json → Json
  | .text s => .object [("version", .text s)]
  | j => j

/-- Reads a dependency. -/
def readDependency (path : String) (entry : String × Json) : Except Error Dependency :=
  let (name, j) := entry
  let j := settings j
  match VersionRange.parse ((j.textAt? "version").getD "") with
  | .error e => .error (.malformed path (.dependency name e))
  | .ok range =>
    .ok ⟨name, range, .ofText ((j.textAt? "target").getD "Package"),
      (flags j "include" .all).without (flags j "exclude" .none), flags j "suppressParent" .defaultPrivate⟩

/-- Reads the dependencies of a project or of one of its frameworks. -/
def readDependencies (path : String) (j : Json) : Except Error (List Dependency) :=
  (entries j "dependencies").mapM (readDependency path)

/-- Reads the name of a framework. -/
def readFramework (path name : String) : Except Error Moniker :=
  match Moniker.parse? name with
  | some m => .ok m
  | none => .error (.malformed path (.invalidFramework name))

/-- The frameworks that a framework falls back to. -/
def readImports (j : Json) : List Moniker :=
  ((((j.get? "imports").map Json.items).getD []).filterMap Json.text?).filterMap Moniker.parse?

/-- Reads what a project declares for a framework. -/
def readTarget (path : String) (entry : String × Json) : Except Error FrameworkGroup := do
  let moniker ← readFramework path entry.1
  let imports := readImports entry.2
  let dependencies ← readDependencies path entry.2
  return ⟨.withImports moniker imports, dependencies, imports⟩

/-- The framework of a project with the same short name, or else the framework itself; of several the last. -/
def declaredFramework (targets : List FrameworkGroup) (moniker : Moniker) : TargetFramework :=
  ((targets.reverse.find? fun g => g.framework.shortName == moniker.shortName).map
    FrameworkGroup.framework).getD (.plain moniker)

/-- Reads a reference to another project. -/
def readReference (entry : String × Json) : ProjectReference :=
  let (name, j) := entry
  ⟨name, (filled? j "projectPath").getD name, flags j "includeAssets" .all, flags j "excludeAssets" .none,
    flags j "privateAssets" .defaultPrivate⟩

/-- Reads the project references for a framework. -/
def readReferences (path : String) (targets : List FrameworkGroup) (entry : String × Json) :
    Except Error ReferenceGroup := do
  let moniker ← readFramework path entry.1
  return ⟨declaredFramework targets moniker, (entries entry.2 "projectReferences").map readReference⟩

/-- The restore section of a project. -/
def restoreSection (body : Json) : Json := (body.get? "restore").getD .empty

/-- The path of a project; without one its unique name. -/
def projectPath (name : String) (body : Json) : String :=
  (filled? (restoreSection body) "projectPath").getD name

/-- Reads what is known about restoring a project, given its references. -/
def readMetadata (name : String) (body : Json) (references : List ReferenceGroup) : RestoreMetadata :=
  let j := restoreSection body
  let path := projectPath name body
  { format := ((j.textAt? "projectStyle").bind ProjectFormat.ofName?).getD .packageReference
    uniqueName := (filled? j "projectUniqueName").getD name
    projectPath := path
    projectName := (filled? j "projectName").getD (Path.stem path)
    outputPath := (j.textAt? "outputPath").getD ""
    projectJsonPath := (j.textAt? "projectJsonPath").getD ""
    targets := references
    writtenFrameworks := (((j.get? "originalTargetFrameworks").map Json.items).getD []).filterMap Json.text?
    crossTargeting := match j.get? "crossTargeting" with | some (.bool b) => b | _ => false
    sources := (entries j "sources").map (·.1) }

/-- The runtimes and profiles of a project, if either section is there. -/
def readRuntimeGraph (body : Json) : Option RuntimeGraph :=
  if (body.get? "runtimes").isSome || (body.get? "supports").isSome then
    some ⟨(entries body "runtimes").map (·.1), (entries body "supports").map (·.1)⟩
  else none

/-- Reads what a project declares for its frameworks, and its references for each. -/
def readGroups (path : String) (body : Json) : Except Error (List FrameworkGroup × List ReferenceGroup) := do
  let targets ← (entries body "frameworks").mapM (readTarget path)
  let references ← (entries (restoreSection body) "frameworks").mapM (readReferences path targets)
  return (targets, references)

/-- Reads a project. -/
def readProject (path name : String) (body : Json) : Except Error PackageSpec := do
  let (targets, references) ← readGroups path body
  let dependencies ← readDependencies path body
  let metadata := readMetadata name body references
  return ⟨metadata.projectName, projectPath name body, targets, dependencies, readRuntimeGraph body,
    some metadata, (body.textAt? "version").getD PackageSpec.defaultVersion⟩

/-- Reads an entry of the projects section. -/
def readEntry (path : String) (entry : String × Json) : Except Error (String × PackageSpec) :=
  (readProject path entry.1 entry.2).map (entry.1, ·)

/-- Converts a document of the right shape. -/
def convert (path : String) (j : Json) : Except Error DependencyGraph := do
  let projects ← (entries j "projects").mapM (readEntry path)
  return ⟨projects, (entries j "restore").map (·.1)⟩

/-- Reads a graph document. -/
def read (path : String) (j : Json) : Except Error DependencyGraph :=
  match shape.firstViolation j with
  | some v =>
    .error (.malformed path (.schema (Text.join "/" (v.place.map Json.Step.text)) v.mismatch.message))
  | none => convert path j

/-- What is logged about the style of a project. -/
def styleLog (body : Json) : List LogRecord :=
  match (restoreSection body).textAt? "projectStyle" with
  | none => []
  | some style =>
    if (ProjectFormat.ofName? style).isSome then []
    else
      [.debug "projectmodel.dgspec" ("Unknown projectStyle " ++ style ++ "; treating as PackageReference") []]

/-- What is logged about the projects in order, up to the first that cannot be read. -/
def projectsLog (path : String) : List (String × Json) → List LogRecord
  | [] => []
  | (_, body) :: rest =>
    match readGroups path body with
    | .error _ => []
    | .ok _ => styleLog body ++ if (readDependencies path body).isOk then projectsLog path rest else []

/-- What is logged while a graph document is read. -/
def readLog (path : String) (j : Json) : List LogRecord :=
  if (shape.firstViolation j).isSome then [] else projectsLog path (entries j "projects")

/-- Reads a graph document and logs unknown project styles. -/
def readLogged (path : String) (j : Json) : Logged DependencyGraph := do
  Logged.logAll (readLog path j)
  Logged.ofExcept (read path j)

end Document

/-- Reads the graph in a file. -/
def load (fs : FileSystem) (path : String) : Logged DependencyGraph := do
  Document.readLogged path (← Logged.ofExcept (fs.readJson path))

end PackageGraph.DependencyGraph
