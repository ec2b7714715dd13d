import PackageGraph.Aggregate.PackageKey
import PackageGraph.PackageSpec.ProjectJson
import PackageGraph.Project.Descriptor
import PackageGraph.Project.Inquiry
import PackageGraph.Project.Provider
/-!
# Specifications of projects

The specification of a project, from whichever description it has. The target frameworks come from the first
property that says something; a project without target framework has no specification.
-/
namespace PackageGraph.Specification

/-! ## Target frameworks -/

/-- The identifier of frameworks when a project states none. -/
def defaultIdentifier : String := ".NETFramework"

/-- The full name of the framework, or one that is made up of its parts; empty when there is neither. -/
def legacyFramework : Inquiry String := do
  let moniker ← Inquiry.property "TargetFrameworkMoniker"
  if !moniker.isEmpty then return moniker
  let version ← Inquiry.property "TargetFrameworkVersion"
  if version.isEmpty then return ""
  let identifier ← Inquiry.property "TargetFrameworkIdentifier"
  let text := (if identifier.isEmpty then defaultIdentifier else identifier) ++ ",Version=" ++ version
  let profile ← Inquiry.property "TargetFrameworkProfile"
  return if profile.isEmpty then text else text ++ ",Profile=" ++ profile

/-- The target frameworks of a project: the first property that is not empty decides. -/
def targetFrameworks : Inquiry (List Moniker) := do
  let one ← Inquiry.property "TargetFramework"
  if !one.isEmpty then return (Moniker.parse? one).toList
  let many ← Inquiry.property "TargetFrameworks"
  if !many.isEmpty then return Moniker.parseList many
  let named ← Inquiry.property "NuGetTargetFramework"
  if !named.isEmpty then return [Moniker.parseFull named]
  return (Moniker.parse? (← legacyFramework)).toList

/-! ## Parts of a specification -/

/-- The entries between semicolons that are not blank, without white space around them. -/
def entries (text : String) : List String :=
  ((Text.fields ';' text).map Text.trim).filter fun s => !s.isEmpty

/-- The runtimes and profiles that a project supports. -/
def runtimeGraph : Inquiry RuntimeGraph := do
  let single ← Inquiry.property "RuntimeIdentifier"
  let many ← Inquiry.property "RuntimeIdentifiers"
  let supports ← Inquiry.property "RuntimeSupports"
  let first := if single.isEmpty then [] else [Text.trim single]
  return ⟨(entries many).foldl (fun kept r => if kept.contains r then kept else kept ++ [r]) first,
    entries supports⟩

/-- Why the version of an item is unreadable, if it is. -/
def versionError? (item : ProjectItem) : Option VersionError :=
  let text := item.metadataText "Version"
  if text.isEmpty then none
  else
    match VersionRange.parse text with
    | .ok _ => none
    | .error e => some e

/-- The range that an item asks for; without readable version every version will do. -/
def rangeOf (item : ProjectItem) : VersionRange :=
  let text := item.metadataText "Version"
  if text.isEmpty then .all else ((VersionRange.parse text).toOption).getD .all

/-- The dependency that an item declares. -/
def dependencyOf (item : ProjectItem) : Dependency :=
  let (included, suppressParent) := AssetFlags.ofAssets (some (item.metadataText "IncludeAssets"))
    (some (item.metadataText "ExcludeAssets")) (some (item.metadataText "PrivateAssets"))
  ⟨item.included, rangeOf item, .package, included, suppressParent⟩

/-- The project reference that an item declares. -/
def referenceOf (cwd project : String) (item : ProjectItem) : ProjectReference :=
  let path := Path.resolveReference cwd project item.included
  ⟨path, path, .parse (item.metadataText "IncludeAssets") .all, .parse (item.metadataText "ExcludeAssets") .none,
    .parse (item.metadataText "PrivateAssets") .defaultPrivate⟩

/-- Restore metadata with what every format has. -/
def metadata (format : ProjectFormat) (project name : String) (targets : List ReferenceGroup) : RestoreMetadata :=
  ⟨format, project, project, name, "", "", targets, [], false, []⟩

/-- References by path for a framework. -/
def plainReferences (references : List String) (framework : TargetFramework) : ReferenceGroup :=
  ⟨framework, references.map ProjectReference.ofPath⟩

/-! ## The three formats -/

/-- The specification of a project whose packages are listed in a file. -/
def ofPackagesConfig (project : String) (references : List String) : Inquiry (Option PackageSpec) := do
  return (Moniker.parse? (← legacyFramework)).map fun moniker =>
    let framework := TargetFramework.plain moniker
    let name := ProjectDescriptor.displayName project
    { name, filePath := project, targets := [⟨framework, [], []⟩], dependencies := [], runtimeGraph := none
      restore := some (metadata .packagesConfig project name [plainReferences references framework])
      version := PackageSpec.defaultVersion }

/-- The specification of a project that is described in JSON, from the one that its description gives. -/
def ofProjectJson (project : String) (references : List String) (described : PackageSpec) : PackageSpec :=
  { described with
    restore := some { metadata .projectJson project described.name
      (described.frameworks.map (plainReferences references)) with projectJsonPath := described.filePath } }

/-- The framework with its fallbacks and the dependencies that a project declares for it. -/
def targetOf (fallbacks : List Moniker) (items : List ProjectItem) (moniker : Moniker) : FrameworkGroup :=
  ⟨.withImports moniker fallbacks, items.map dependencyOf, fallbacks⟩

/-- The specification of a project with package references for its target frameworks. -/
def withTargets (cwd project : String) (references : List ProjectItem) (outputPath : String)
    (runtimes : RuntimeGraph) (targets : List FrameworkGroup) : PackageSpec :=
  let name := ProjectDescriptor.displayName project
  let shortNames := targets.map fun g => g.framework.shortName
  { name, filePath := project, targets, dependencies := [], runtimeGraph := some runtimes
    restore := some { metadata .packageReference project name
      (targets.map fun g => ⟨g.framework, references.map (referenceOf cwd project)⟩) with
        outputPath, writtenFrameworks := shortNames, crossTargeting := 1 < (distinct shortNames).length }
    version := PackageSpec.defaultVersion }

/-- The specification of a project with package references; nothing without references or frameworks. -/
def ofPackageReferences (cwd project : String) (data : ProjectData) : Inquiry (Option PackageSpec) := do
  let items := data.items "PackageReference"
  if items.isEmpty then return none
  let frameworks ← targetFrameworks
  if frameworks.isEmpty then return none
  let fallbacks := Moniker.parseList (← Inquiry.property "PackageTargetFallback")
  let outputPath ← Inquiry.property "BaseIntermediateOutputPath"
  let runtimes ← runtimeGraph
  return some (withTargets cwd project (data.items "ProjectReference") outputPath runtimes
    (frameworks.map (targetOf fallbacks items)))

/-! ## Log records -/

/-- The part of the program that logs. -/
def logSource : String := "graph.aggregator"

/-- What is logged about the version of an item. -/
def versionLog (project : String) (item : ProjectItem) : List LogRecord :=
  match versionError? item with
  | none => []
  | some e =>
    [.warning logSource (.text ("Ignoring invalid version of " ++ item.included ++ " in " ++ project ++ ": ") ::
      e.inMessage)]

/-- What is logged while the specification of a project with package references is made. -/
def packageReferencesLog (project : String) (data : ProjectData) : List LogRecord :=
  let items := data.items "PackageReference"
  if items.isEmpty then []
  else
    let frameworks := targetFrameworks.run data.property
    if frameworks.isEmpty then [.warning logSource ("No target framework found for " ++ project)]
    else frameworks.flatMap fun _ => items.flatMap (versionLog project)

end PackageGraph.Specification
