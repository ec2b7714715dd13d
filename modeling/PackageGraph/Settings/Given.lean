import PackageGraph.Settings.ConfigFile
/-!
# Settings in effect

The settings of a run come from four layers, each over the one before: the built-in ones, the environment, a
configuration file, and what is given with the command.
-/
namespace PackageGraph

/-- What is given with a command. -/
structure GivenSettings where
  /-- The configuration file. -/
  config : Option String
  toolPath : Value
  verbosity : Value
  timeout : Value
  maxConcurrency : Value
  noRecursion : Bool
  /-- A file with package sources, which take the place of those of the configuration file. -/
  sourcesFile : Option String
  /-- More package sources. -/
  moreSources : List String

namespace GivenSettings

/-- Nothing given. -/
def none : GivenSettings := ⟨.none, .null, .null, .null, .null, false, .none, []⟩

/-- What is given for settings one by one. -/
def plainLayer (g : GivenSettings) : Overrides :=
  [(.toolPath, g.toolPath), (.verbosity, g.verbosity), (.timeout, g.timeout),
    (.maxConcurrency, g.maxConcurrency), (.recursive, if g.noRecursion then .bool false else .null)]

/-- Sources with more of them at the end; those that are there already are left out. -/
def extend (base more : List String) : List String := base ++ more.filter fun s => !base.contains s

/-- The package sources that are given: those of a file, if there are any, or else the configured ones, and more of
them. -/
def givenSources (configured : List String) (fromFile : Option (List String)) (more : List String) : Value :=
  let base := match fromFile with
    | some (s :: rest) => s :: rest
    | _ => configured
  if more.isEmpty then
    match fromFile with
    | some sources => .list (sources.map .text)
    | .none => .null
  else .list ((extend base more).map .text)

/-- The sources in the file that is given. -/
def sourcesFromFile (g : GivenSettings) (fs : FileSystem) : Logged (Option (List String)) :=
  match g.sourcesFile.filter (!·.isEmpty) with
  | some path => some <$> PackageSources.load fs path
  | .none => return .none

/-- The settings in effect. -/
def resolve (g : GivenSettings) (fs : FileSystem) (env : Environment) : Logged Settings := do
  let configured := (Settings.ofEnvironment env).override (← ConfigFile.layer fs env g.config)
  let fromFile ← g.sourcesFromFile fs
  let sources ← Logged.ofExcept configured.sources
  return configured.override ((.packageSources, givenSources sources fromFile g.moreSources) :: g.plainLayer)

end GivenSettings
end PackageGraph
