import PackageGraph.Log
import PackageGraph.PackageSpec.Basic
/-!
# Editing dependencies

Adding, updating and removing the declarations of a package. A package that is declared for all frameworks is
updated there; otherwise it is set in each framework that is asked for. Names are compared without regard to
letter case, and an update keeps everything but the range.
-/
namespace PackageGraph

/-- Sets the range of every declaration of a package in a list. -/
def Dependency.updateAll (name : String) (range : VersionRange) (ds : List Dependency) : List Dependency :=
  ds.map fun d => if d.declares name then { d with range := range } else d

/-- Sets the range of a package in a list, where it is added if it is not there. -/
def Dependency.setIn (name : String) (range : VersionRange) (ds : List Dependency) : List Dependency :=
  if ds.any (·.declares name) then updateAll name range ds else ds ++ [ofRange name range]

/-- The list without the declarations of a package. -/
def Dependency.removeFrom (name : String) (ds : List Dependency) : List Dependency :=
  ds.filter fun d => !d.declares name

/-- Whether a list without the declarations of a package is shorter. -/
def Dependency.removalShortens (name : String) (ds : List Dependency) : Bool :=
  (removeFrom name ds).length != ds.length

namespace FrameworkGroup

/-- Whether the group is one of those asked for; without a choice every group is. -/
def isSelected (frameworks : Option (List TargetFramework)) (g : FrameworkGroup) : Bool :=
  match frameworks with
  | none => true
  | some chosen => chosen.any fun f => f.shortName == g.framework.shortName

end FrameworkGroup

namespace PackageSpec

/-- Whether a package is declared anywhere in the project. -/
def hasDependency (s : PackageSpec) (name : String) : Bool := s.allDependencies.any (·.declares name)

/-- Whether a package is declared for all frameworks together. -/
def declaresForAll (s : PackageSpec) (name : String) : Bool := s.dependencies.any (·.declares name)

/-- Adds a package or updates its range. -/
def setDependency (s : PackageSpec) (name : String) (range : VersionRange)
    (frameworks : Option (List TargetFramework)) : PackageSpec :=
  if s.declaresForAll name then { s with dependencies := Dependency.updateAll name range s.dependencies }
  else
    { s with
      targets := s.targets.map fun g =>
        if g.isSelected frameworks then { g with dependencies := Dependency.setIn name range g.dependencies }
        else g }

/-- Removes every declaration of a package. -/
def removeDependency (s : PackageSpec) (name : String) : PackageSpec :=
  { s with
    dependencies := Dependency.removeFrom name s.dependencies
    targets := s.targets.map fun g => { g with dependencies := Dependency.removeFrom name g.dependencies } }

/-- What the removal of a package reports: whether one of the lists gets shorter. -/
def removalShortens (s : PackageSpec) (name : String) : Bool :=
  Dependency.removalShortens name s.dependencies ||
    s.targets.any fun g => Dependency.removalShortens name g.dependencies

/-- What is logged when a package is added or updated. -/
def setDependencyLog (s : PackageSpec) (name : String) (range : VersionRange)
    (frameworks : Option (List TargetFramework)) : List LogRecord :=
  let source := "projectmodel.operations"
  if s.declaresForAll name then
    [.debug source ("Updated framework-independent dependency " ++ name ++ " to " ++ range.normalized) []]
  else
    (s.targets.filter (FrameworkGroup.isSelected frameworks)).map fun g =>
      .debug source ("Set " ++ name ++ " " ++ range.normalized ++ " for " ++ g.framework.shortName) []

end PackageSpec
end PackageGraph
