import PackageGraph.DependencyGraph.Basic
import PackageGraph.Error
import PackageGraph.PackageSpec.Edit
/-!
# Workspaces

Specifications and graphs under names. A specification lives in a cell, and names and graphs refer to cells: what
is taken from a graph or put into one is the same specification, so that an edit shows wherever it is referred to.
A copy has a cell of its own.
-/
namespace PackageGraph

/-- Named specifications and graphs. -/
structure Workspace where
  cells : List PackageSpec
  /-- The cell that a name stands for; a name may stand for an absent specification. -/
  specs : OrderedMap String (Option Nat)
  graphs : OrderedMap String (Graph Nat)

/-- Why an operation on a workspace fails. -/
inductive WorkspaceError where
  /-- The name stands for nothing. -/
  | unset
  /-- The name stands for an absent specification. -/
  | absent
  | failed (e : Error)

namespace Workspace

/-- The workspace without names. -/
def empty : Workspace := ⟨[], [], []⟩

/-- What a name of a specification stands for. -/
def cell (w : Workspace) (name : String) : Except WorkspaceError (Option Nat) :=
  match w.specs.get? name with
  | some c => .ok c
  | none => .error .unset

/-- The cell of a specification that is present. -/
def presentCell (w : Workspace) (name : String) : Except WorkspaceError Nat := do
  match ← w.cell name with
  | some c => .ok c
  | none => .error .absent

/-- The specification that a name stands for, if it is present. -/
def spec? (w : Workspace) (name : String) : Except WorkspaceError (Option PackageSpec) :=
  (w.cell name).map fun c => c.bind fun i => w.cells[i]?

/-- The specification that a name stands for. -/
def spec (w : Workspace) (name : String) : Except WorkspaceError PackageSpec := do
  match ← w.spec? name with
  | some s => .ok s
  | none => .error .absent

/-- The graph that a name stands for. -/
def graph (w : Workspace) (name : String) : Except WorkspaceError (Graph Nat) :=
  match w.graphs.get? name with
  | some g => .ok g
  | none => .error .unset

/-- The specifications in a graph of cells. -/
def contents (w : Workspace) (g : Graph Nat) : DependencyGraph :=
  ⟨g.projects.filterMap fun (name, c) => (w.cells[c]?).map (name, ·), g.restore⟩

/-- Puts a specification into a new cell under a name. -/
def nameNew (w : Workspace) (name : String) (s : PackageSpec) : Workspace :=
  { w with cells := w.cells ++ [s], specs := OrderedMap.put w.specs name (some w.cells.length) }

/-- Lets a name stand for a graph. -/
def nameGraph (w : Workspace) (name : String) (g : Graph Nat) : Workspace :=
  { w with graphs := OrderedMap.put w.graphs name g }

/-- Puts the specifications of a graph into new cells and lets a name stand for the graph. -/
def nameGraphOf (w : Workspace) (name : String) (g : DependencyGraph) : Workspace :=
  let cellsOf := g.projects.zipIdx.map fun ((key, _), i) => (key, w.cells.length + i)
  ({ w with cells := w.cells ++ g.projects.map (·.2) } : Workspace).nameGraph name ⟨cellsOf, g.restore⟩

/-- Lets a name stand for the project of a graph with a unique name, which may be absent. -/
def nameProject (w : Workspace) (name graph unique : String) : Except WorkspaceError Workspace :=
  (w.graph graph).map fun g => { w with specs := OrderedMap.put w.specs name (g.find? unique) }

/-- Lets a name stand for a copy of a specification. -/
def nameCopy (w : Workspace) (name source : String) : Except WorkspaceError Workspace :=
  (w.spec source).map (w.nameNew name)

/-- Edits a specification wherever it is referred to. -/
def edit (w : Workspace) (name : String) (f : PackageSpec → PackageSpec) : Except WorkspaceError Workspace :=
  (w.presentCell name).map fun c => { w with cells := w.cells.modify c f }

/-- The unique name of the specification in a cell. -/
def uniqueName (w : Workspace) (cell : Nat) : String := ((w.cells[cell]?).map PackageSpec.uniqueName).getD ""

/-- Files a specification in a graph unless its name is taken. -/
def addProject (w : Workspace) (graph spec : String) : Except WorkspaceError Workspace := do
  let g ← w.graph graph
  let c ← w.presentCell spec
  return w.nameGraph graph (g.addUnder (w.uniqueName c) c)

/-- Lets a name stand for a graph in which a specification stands in place of the one with its name. -/
def nameWithProject (w : Workspace) (name graph spec : String) : Except WorkspaceError Workspace := do
  let g ← w.graph graph
  let c ← w.presentCell spec
  return w.nameGraph name (g.replaceUnder (w.uniqueName c) c)

/-- Adds a root to a graph. -/
def addRestore (w : Workspace) (graph unique : String) : Except WorkspaceError Workspace :=
  (w.graph graph).map fun g => w.nameGraph graph (g.addRestore unique)

/-- Lets a name stand for a graph with other roots. -/
def nameWithRestore (w : Workspace) (name graph : String) (roots : List String) :
    Except WorkspaceError Workspace :=
  (w.graph graph).map fun g => w.nameGraph name (g.withRestore roots)

end Workspace
end PackageGraph
