import PackageGraph.Log
import PackageGraph.Path
import PackageGraph.Value.Text
/-!
# Settings

What can be set for deriving graphs and previewing restores. A setting keeps the value it was given, whatever its
kind; those who use it say what they accept. Settings come in layers, each of which overrides the one below.
-/
namespace PackageGraph

/-- The things that can be set. -/
inductive Setting where
  | toolPath
  | verbosity
  | timeout
  | recursive
  | scratchDirectory
  | disableParallel
  | noCache
  | ignoreFailedSources
  | packageSources
  | maxConcurrency
  deriving DecidableEq, Repr

namespace Setting

/-- The written name. -/
def name : Setting → String
  | .toolPath => "dotnet_path"
  | .verbosity => "msbuild_verbosity"
  | .timeout => "dg_timeout"
  | .recursive => "recursive"
  | .scratchDirectory => "scratch_dir"
  | .disableParallel => "disable_parallel"
  | .noCache => "no_cache"
  | .ignoreFailedSources => "ignore_failed_sources"
  | .packageSources => "package_sources"
  | .maxConcurrency => "max_concurrency"

/-- Every setting. -/
def all : List Setting :=
  [.toolPath, .verbosity, .timeout, .recursive, .scratchDirectory, .disableParallel, .noCache,
    .ignoreFailedSources, .packageSources, .maxConcurrency]

/-- The setting with this written name. -/
def ofName? (name : String) : Option Setting := all.find? fun s => s.name == name

end Setting

/-- What a run finds around it besides files. -/
structure Environment where
  /-- The variables with their values. -/
  bindings : OrderedMap String String
  temporaryDirectory : String
  homeDirectory : String

namespace Environment

/-- The value of a variable; the empty text when it is not defined. -/
def valueOf (env : Environment) (name : String) : String := (OrderedMap.get? env.bindings name).getD ""

/-- A path that begins with `~` as seen from the home directory. Homes of other users stay as they are. -/
def expandHome (env : Environment) (path : String) : String :=
  match path.toList with
  | '~' :: rest =>
    if rest.isEmpty || rest.head? == some '/' then
      let expanded := Text.dropEndWhile (· == '/') env.homeDirectory.toList ++ rest
      if expanded.isEmpty then "/" else .ofList expanded
    else path
  | _ => path

end Environment

/-- The value of every setting. -/
abbrev Settings := Setting → Value

/-- Values for some settings; an absent value sets nothing. -/
abbrev Overrides := OrderedMap Setting Value

namespace Settings

/-- The variable that sets how much the build tool says. -/
def verbosityVariable : String := "NUGET_RESTORE_MSBUILD_VERBOSITY"

/-- How much the build tool says unless something else is set. -/
def defaultVerbosity : String := "q"

/-- The built-in settings. -/
def defaults (env : Environment) : Settings
  | .toolPath => .text "dotnet"
  | .verbosity => .text defaultVerbosity
  | .timeout => .float (.ofInt 5)
  | .recursive => .bool true
  | .scratchDirectory => .text (Path.append env.temporaryDirectory "NuGet-Scratch")
  | .disableParallel => .bool true
  | .noCache => .bool false
  | .ignoreFailedSources => .bool true
  | .packageSources => .list []
  | .maxConcurrency => .int 8

/-- The settings with another layer on top. -/
def override (s : Settings) (layer : Overrides) : Settings := fun setting =>
  match OrderedMap.get? layer setting with
  | none | some .null => s setting
  | some value => value

/-- What the environment sets. -/
def environmentLayer (env : Environment) : Overrides :=
  let verbosity := Text.trim (env.valueOf verbosityVariable)
  if verbosity.isEmpty then [] else [(.verbosity, .text verbosity)]

/-- The settings that hold in an environment. -/
def ofEnvironment (env : Environment) : Settings := (defaults env).override (environmentLayer env)

/-- The names among those given that name no setting. -/
def unknownNames (given : List (String × Value)) : List String :=
  (given.map (·.1)).filter fun name => (Setting.ofName? name).isNone

/-- The values given by name, those for unknown names left out. -/
def namedLayer (given : List (String × Value)) : Overrides :=
  given.filterMap fun (name, value) => (Setting.ofName? name).map (·, value)

/-- The settings with a layer given by name; unknown names are refused, in alphabetical order. -/
def withOverrides (s : Settings) (given : List (String × Value)) : Except Error Settings :=
  if (unknownNames given).isEmpty then .ok (s.override (namedLayer given))
  else .error (.usage (.unknownSettings ((unknownNames given).mergeSort fun a b => !decide (b < a))))

/-- The settings of an environment with a layer given by name; a value for an unknown name is refused. -/
def ofEnvironmentWith (env : Environment) (given : List (String × Value)) : Except Error Settings :=
  let present := given.filter fun (_, value) => match value with | .null => false | _ => true
  if (unknownNames present).isEmpty then .ok ((ofEnvironment env).override (namedLayer present))
  else .error (.fault .unknownName)

/-! ## What is accepted -/

/-- Whether a setting is switched on; every value that is not empty or zero switches it on. -/
def isOn (s : Settings) (setting : Setting) : Bool := !(s setting).isFalsy

/-- A setting that has to be a text. -/
def text (s : Settings) (setting : Setting) : Except Error String :=
  match s setting with
  | .text t => .ok t
  | _ => .error (.fault .wrongKind)

/-- How many projects are worked on at a time. -/
def slots (s : Settings) : Except Error Nat :=
  match s .maxConcurrency with
  | .int n => .ok n.toNat
  | _ => .error (.fault .wrongKind)

/-- The package sources; a text counts as its characters. -/
def sources (s : Settings) : Except Error (List String) :=
  match s .packageSources with
  | .text t => .ok (t.toList.map fun c => .ofList [c])
  | .list items => items.mapM fun
    | .text t => .ok t
    | _ => .error (.fault .wrongKind)
  | _ => .error (.fault .wrongKind)

end Settings

/-- A duration in seconds; an absent value sets no limit. -/
def Value.seconds : Value → Except Error (Option Binary64)
  | .null => .ok none
  | .bool b => .ok (some (.ofInt (if b then 1 else 0)))
  | .int n => .ok (some (.ofInt n))
  | .float x => .ok (some x)
  | _ => .error (.fault .wrongKind)

end PackageGraph
