import PackageGraph.Aggregate.Specification
import PackageGraph.DependencyGraph.Basic
import PackageGraph.Project.JsonFile
/-!
# Aggregates

The specifications of many projects together, and for each package and version the projects that ask for it. The
description of a project is the first that exists: the file that lists its packages, the one that describes it in
JSON, or else its own package references. Projects are taken in the order given, each path once.

Several projects are at work at a time, and any of them may be the next to be done. The first that fails ends the
whole; what comes of the others is put together in the order of the paths, whichever of them was done first.
-/
namespace PackageGraph

/-- What normalizing one project gives. -/
structure ProjectOutcome where
  descriptor : ProjectDescriptor
  spec : Option PackageSpec
  keys : List PackageKey
  /-- The properties that were asked for, in order. -/
  asked : List String

/-- The specifications of a set of projects and the consumers of each package. -/
structure Aggregate where
  consumers : OrderedMap PackageKey (List String)
  specs : List PackageSpec
  unresolved : List UnresolvedReference
  descriptors : List ProjectDescriptor

/-- Which of the things at work is the next to be done, one number for each turn. When the numbers run out, things are
done in the order in which they wait. -/
abbrev Schedule := List Nat

/-- The order in which things are done of which some number are at work at a time, at least one: those that wait
longest. -/
def Schedule.order {α : Type} (slots : Nat) : Schedule → List α → List α
  | [], waiting => waiting
  | turn :: later, waiting =>
    let next := turn % min (max 1 slots) waiting.length
    match waiting[next]? with
    | some x => x :: order slots later (waiting.eraseIdx next)
    | none => []

namespace ProjectOutcome

/-- The keys of the dependencies of a specification. -/
def dependencyKeys (spec : Option PackageSpec) : Except Error (List PackageKey) :=
  match spec with
  | none => .ok []
  | some s => s.allDependencies.mapM fun d => PackageKey.ofRange? d.name d.range

/-- The path of a file beside a project. -/
def beside (project name : String) : String := Path.append (Path.directory project) name

/-- Normalizes a project whose packages are listed in a file. -/
def ofPackagesConfig (fs : FileSystem) (provider : ProjectProvider) (project config : String) :
    Logged ProjectOutcome := do
  let records := (← PackageRecord.read fs config).getD []
  let data ← provider.load project
  let inquiry := Specification.ofPackagesConfig project data.references
  return ⟨.ofPath project .packagesConfig, inquiry.run data.property,
    records.map fun r => .ofVersionText r.packageId r.version, inquiry.asked data.property⟩

/-- Normalizes a project that is described in JSON. -/
def ofProjectJson (fs : FileSystem) (provider : ProjectProvider) (project description : String) :
    Logged ProjectOutcome := do
  let spec ← match ← ProjectJsonFile.read fs description with
    | none => pure none
    | some value => do
      let described ← Logged.ofExcept
        (PackageSpec.ProjectJson.read (ProjectDescriptor.displayName project) description value)
      let data ← provider.load project
      pure (some (Specification.ofProjectJson project data.references described))
  return ⟨.ofPath project .projectJson, spec, ← Logged.ofExcept (dependencyKeys spec), []⟩

/-- Normalizes a project by its package references. -/
def ofPackageReferences (cwd : String) (provider : ProjectProvider) (project : String) :
    Logged ProjectOutcome := do
  let data ← provider.load project
  let inquiry := Specification.ofPackageReferences cwd project data
  Logged.logAll (Specification.packageReferencesLog project data)
  let spec := inquiry.run data.property
  return ⟨.ofPath project .packageReference, spec, ← Logged.ofExcept (dependencyKeys spec),
    inquiry.asked data.property⟩

/-- Normalizes the project at an absolute path. -/
def ofProject (fs : FileSystem) (provider : ProjectProvider) (project : String) : Logged ProjectOutcome := do
  let config := beside project ProjectDescriptor.packagesConfigName
  let description := beside project ProjectDescriptor.projectJsonName
  if ← Logged.ofExcept (provider.exists? config) then ofPackagesConfig fs provider project config
  else if ← Logged.ofExcept (provider.exists? description) then ofProjectJson fs provider project description
  else ofPackageReferences fs.workingDirectory provider project

end ProjectOutcome

namespace Aggregate

/-- Lists a project as a consumer of each of its keys. -/
def addConsumer (consumers : OrderedMap PackageKey (List String)) (outcome : ProjectOutcome) :
    OrderedMap PackageKey (List String) :=
  (distinct outcome.keys).foldl (fun m key => OrderedMap.update m key [] (· ++ [outcome.descriptor.name]))
    consumers

/-- The graph of specifications in which each is filed under its unique name. -/
def graphOf (specs : List PackageSpec) : DependencyGraph := specs.foldl DependencyGraph.addProject Graph.empty

/-- The aggregate of normalized projects. -/
def ofOutcomes (outcomes : List ProjectOutcome) : Aggregate :=
  let specs := outcomes.filterMap ProjectOutcome.spec
  ⟨outcomes.foldl addConsumer [], specs, (graphOf specs).unresolvedReferences,
    outcomes.map ProjectOutcome.descriptor⟩

/-- The projects that ask for a package in a version. -/
def consumersOf (a : Aggregate) (packageId version : String) : List String :=
  (a.consumers.get? ⟨packageId, version⟩).getD []

/-- The graph with every project of the aggregate as a root. -/
def toGraph (a : Aggregate) : DependencyGraph :=
  a.specs.foldl (fun g s => (g.addProject s).addRestore s.uniqueName) Graph.empty

/-- What is logged about the projects and the references between them. -/
def log (outcomes : List ProjectOutcome) (a : Aggregate) : List LogRecord :=
  let source := Specification.logSource
  ((outcomes.filter fun o => o.spec.isNone).map fun o =>
    .debug source ("No spec produced for " ++ o.descriptor.path) []) ++
  (a.unresolved.map fun u =>
    .warning source ("Project " ++ u.project ++ " references " ++ u.reference ++
      ", which is not part of the graph")) ++
  [.debug source "Aggregated projects"
    [("event", .text "aggregate"), ("component", .text "graph_aggregator"), ("count", .count outcomes.length),
      ("specs", .count a.specs.length)]]

/-- The absolute paths of projects, each once. -/
def projectPaths (cwd : String) (paths : List String) : List String := distinct (paths.map (Path.absolute cwd))

/-- Normalizes the projects at some paths, one after the other. -/
def outcomes (fs : FileSystem) (provider : ProjectProvider) (paths : List String) :
    Logged (List ProjectOutcome) :=
  (projectPaths fs.workingDirectory paths).mapM (ProjectOutcome.ofProject fs provider)

/-- Normalizes the projects at some paths, some number of them at a time, and gives what comes of them in the order of
the paths. -/
def outcomesIn (schedule : Schedule) (slots : Nat) (fs : FileSystem) (provider : ProjectProvider)
    (paths : List String) : Logged (List ProjectOutcome) := do
  let projects := projectPaths fs.workingDirectory paths
  let done ← (schedule.order slots projects).mapM fun project => do
    return (project, ← ProjectOutcome.ofProject fs provider project)
  return projects.filterMap (OrderedMap.get? done)

/-- Puts together what has come of projects. -/
def conclude (outcomes : List ProjectOutcome) : Logged Aggregate := do
  let aggregate := ofOutcomes outcomes
  Logged.logAll (log outcomes aggregate)
  return aggregate

/-- Aggregates the projects at some paths, one after the other. -/
def ofProjects (fs : FileSystem) (provider : ProjectProvider) (paths : List String) : Logged Aggregate := do
  conclude (← outcomes fs provider paths)

/-- Aggregates the projects at some paths, some number of them at a time. -/
def ofProjectsIn (schedule : Schedule) (slots : Nat) (fs : FileSystem) (provider : ProjectProvider)
    (paths : List String) : Logged Aggregate := do
  conclude (← outcomesIn schedule slots fs provider paths)

end Aggregate
end PackageGraph
