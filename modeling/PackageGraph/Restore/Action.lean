import PackageGraph.PackageSpec.Edit
/-!
# Package actions

The changes that a preview tries: installing a package, which also updates it, and uninstalling one. Actions are
applied in order, so that the last one for a package decides.
-/
namespace PackageGraph

/-- The kinds of change. -/
inductive ActionKind where
  | install
  | uninstall
  deriving DecidableEq, Repr

/-- The written name. -/
def ActionKind.name : ActionKind → String
  | .install => "install"
  | .uninstall => "uninstall"

/-- A change to the packages of a project. -/
structure PackageAction where
  kind : ActionKind
  packageId : String
  /-- The range that is asked for. -/
  range : VersionRange
  /-- Where the package is to be taken from. -/
  source? : Option String
  /-- The frameworks that the change is meant for, all of them when none is named. -/
  frameworks : List TargetFramework

namespace PackageAction

/-- Adds a package or updates its range. -/
@[match_pattern]
def install (packageId : String) (range : VersionRange) (source : Option String)
    (frameworks : List TargetFramework) : PackageAction :=
  ⟨.install, packageId, range, source, frameworks⟩

/-- Removes a package, whatever its range, from everywhere. -/
def uninstall (packageId : String) : PackageAction := ⟨.uninstall, packageId, .all, none, []⟩

/-- The frameworks that an install selects; no choice when none is named. -/
def selection (frameworks : List TargetFramework) : Option (List TargetFramework) :=
  if frameworks.isEmpty then none else some frameworks

/-- The specification after the change. Only an install asks for a range and selects frameworks. -/
def apply (s : PackageSpec) (a : PackageAction) : PackageSpec :=
  match a.kind with
  | .install => s.setDependency a.packageId a.range (selection a.frameworks)
  | .uninstall => s.removeDependency a.packageId

/-- The specification after every change, in order. -/
def applyAll (s : PackageSpec) (actions : List PackageAction) : PackageSpec := actions.foldl apply s

/-- What is logged when a change is applied. -/
def applyLog (s : PackageSpec) (a : PackageAction) : List LogRecord :=
  match a.kind with
  | .install => s.setDependencyLog a.packageId a.range (selection a.frameworks)
  | .uninstall =>
    if s.hasDependency a.packageId then []
    else [.debug "restore.orchestrator" (a.packageId ++ " is not a dependency of " ++ s.name) []]

/-- What is logged when changes are applied in order. -/
def applyAllLog (s : PackageSpec) : List PackageAction → List LogRecord
  | [] => []
  | a :: rest => applyLog s a ++ applyAllLog (apply s a) rest

/-- Changes count as uninstalling only when there are any and each of them uninstalls. -/
def classify (actions : List PackageAction) : ActionKind :=
  if !actions.isEmpty && actions.all (·.kind == .uninstall) then .uninstall else .install

/-- The sources to consult: those that the changes name, then those configured, without repetition. -/
def consultedSources (actions : List PackageAction) (configured : List String) : List String :=
  distinct ((actions.filterMap source?).filter (!·.isEmpty) ++ configured)

end PackageAction
end PackageGraph
