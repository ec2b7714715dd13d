import PackageGraph.DependencyGraph.Basic
/-!
# Results of a restore

What a resolution engine reports about a project: whether it succeeded, how each target framework fared, and a
lock, which is handed on untouched.
-/
namespace PackageGraph

/-- Whether the packages suit a target framework. -/
structure CompatibilityCheck where
  framework : TargetFramework
  success : Bool
  deriving DecidableEq

/-- The outcome of a restore for one project. -/
structure RestoreResult (β : Type) where
  project : String
  success : Bool
  checks : List CompatibilityCheck
  lock : Option β

namespace RestoreResult

variable {β : Type}

/-- The frameworks with a failed check, one for each short name. -/
def failedFrameworks (r : RestoreResult β) : List TargetFramework :=
  ((r.checks.filter (!·.success)).map CompatibilityCheck.framework).foldl
    (fun kept f => if kept.any (·.shortName == f.shortName) then kept else kept ++ [f]) []

/-- The result for a project: the first that bears its name, or else the only one. -/
def for? (project : String) (results : List (RestoreResult β)) : Option (RestoreResult β) :=
  match results.find? (·.project == project), results with
  | some r, _ => some r
  | none, [r] => some r
  | none, _ => none

end RestoreResult

/-- Target frameworks divided by outcome. -/
structure FrameworkPartition where
  succeeded : List TargetFramework
  failed : List TargetFramework

namespace FrameworkPartition

/-- Whether a framework is among those that failed, by its short name. -/
def isAmong (failed : List TargetFramework) (f : TargetFramework) : Bool :=
  failed.any fun g => g.shortName == f.shortName

/-- Divides frameworks into those that did not fail and those that did. -/
def ofFailed (all failed : List TargetFramework) : FrameworkPartition :=
  ⟨all.filter (!isAmong failed ·), all.filter (isAmong failed)⟩

/-- The short names of the frameworks that succeeded. -/
def succeededNames (p : FrameworkPartition) : List String := p.succeeded.map TargetFramework.shortName

/-- The short names of the frameworks that failed. -/
def failedNames (p : FrameworkPartition) : List String := p.failed.map TargetFramework.shortName

/-- Whether some frameworks succeeded and others failed. -/
def isPartial (p : FrameworkPartition) : Bool := !p.succeeded.isEmpty && !p.failed.isEmpty

end FrameworkPartition
end PackageGraph
