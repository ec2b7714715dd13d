import PackageGraph.AssetFlags
import PackageGraph.Framework.Parser
import PackageGraph.OrderedMap
import PackageGraph.Path
import PackageGraph.VersionRange.Basic
/-!
# Package specifications

The canonical description of a project, whichever way it was written down: its dependencies, for all target
frameworks together and for each of them, and what is known about restoring it.
-/
namespace PackageGraph

/-- The ways in which a project may be described. -/
inductive ProjectFormat where
  | packagesConfig
  | projectJson
  | packageReference
  deriving DecidableEq, Repr

namespace ProjectFormat

/-- The written name. -/
def name : ProjectFormat → String
  | .packagesConfig => "PackagesConfig"
  | .projectJson => "ProjectJson"
  | .packageReference => "PackageReference"

/-- Every format. -/
def all : List ProjectFormat := [.packagesConfig, .projectJson, .packageReference]

/-- The format with this written name. -/
def ofName? (name : String) : Option ProjectFormat := all.find? fun f => f.name == name

end ProjectFormat

/-- What a dependency may resolve to. -/
inductive LibraryKind where
  | package
  | project
  deriving DecidableEq, Repr

namespace LibraryKind

/-- The written name. -/
def name : LibraryKind → String
  | .package => "Package"
  | .project => "Project"

/-- The kind that a text names, without regard to letter case; what names no project names a package. -/
def ofText (text : String) : LibraryKind := if Text.lower text = "project" then .project else .package

end LibraryKind

/-- A library that a project depends on. -/
structure Dependency where
  name : String
  range : VersionRange
  kind : LibraryKind
  included : AssetFlags
  suppressParent : AssetFlags
  deriving BEq

namespace Dependency

/-- A dependency on a package with the default flags. -/
def ofRange (name : String) (range : VersionRange) : Dependency :=
  ⟨name, range, .package, .all, .defaultPrivate⟩

/-- Whether the dependency declares a library of this name, without regard to letter case. -/
def declares (d : Dependency) (name : String) : Bool := Text.lower d.name == Text.lower name

end Dependency

/-- What a project declares for one target framework. -/
structure FrameworkGroup where
  framework : TargetFramework
  dependencies : List Dependency
  imports : List Moniker
  deriving BEq

/-- Runtimes and compatibility profiles that a project supports. -/
structure RuntimeGraph where
  runtimes : List String
  supports : List String
  deriving DecidableEq, Inhabited

/-- A reference to another project. -/
structure ProjectReference where
  uniqueName : String
  path : String
  includeAssets : AssetFlags
  excludeAssets : AssetFlags
  privateAssets : AssetFlags
  deriving DecidableEq, Inhabited

/-- A reference by path with the default flags. -/
def ProjectReference.ofPath (path : String) : ProjectReference := ⟨path, path, .all, .none, .defaultPrivate⟩

/-- The project references for one target framework. -/
structure ReferenceGroup where
  framework : TargetFramework
  references : List ProjectReference
  deriving DecidableEq, Inhabited

/-- What is known about restoring a project. -/
structure RestoreMetadata where
  format : ProjectFormat
  uniqueName : String
  projectPath : String
  projectName : String
  outputPath : String
  projectJsonPath : String
  targets : List ReferenceGroup
  writtenFrameworks : List String
  crossTargeting : Bool
  sources : List String
  deriving DecidableEq

namespace RestoreMetadata

/-- The project references over all target frameworks, the first to each project. -/
def projectReferences (m : RestoreMetadata) : List ProjectReference :=
  (m.targets.flatMap ReferenceGroup.references).foldl
    (fun kept r => if kept.any (·.uniqueName == r.uniqueName) then kept else kept ++ [r]) []

/-- The unique names of the projects that the project refers to. -/
def referenceNames (m : RestoreMetadata) : List String := m.projectReferences.map ProjectReference.uniqueName

end RestoreMetadata

/-- The canonical description of a project. -/
structure PackageSpec where
  name : String
  filePath : String
  targets : List FrameworkGroup
  dependencies : List Dependency
  runtimeGraph : Option RuntimeGraph
  restore : Option RestoreMetadata
  version : String
  deriving BEq, Inhabited

namespace PackageSpec

/-- The version of a project that states none. -/
def defaultVersion : String := "1.0.0"

/-- The name under which other projects refer to the project. -/
def uniqueName (s : PackageSpec) : String :=
  match s.restore with
  | some m => if m.uniqueName.isEmpty then s.filePath else m.uniqueName
  | none => s.filePath

/-- The declared target frameworks, without repetition. -/
def frameworks (s : PackageSpec) : List TargetFramework := distinct (s.targets.map FrameworkGroup.framework)

/-- Every declared dependency: those for all frameworks, then those of each. -/
def allDependencies (s : PackageSpec) : List Dependency :=
  s.dependencies ++ s.targets.flatMap FrameworkGroup.dependencies

/-- The unique names of the projects that the project refers to. -/
def referenceNames (s : PackageSpec) : List String := (s.restore.map RestoreMetadata.referenceNames).getD []

end PackageSpec
end PackageGraph
