import PackageGraph.PackageSpec.Basic
/-!
# Dependency graphs

A graph files projects under their unique names and lists the roots to restore. `Graph` leaves open what stands
for a project; in a `DependencyGraph` it is the specification itself.
-/
namespace PackageGraph

/-- Projects by unique name, and the projects to restore. -/
structure Graph (σ : Type) where
  projects : OrderedMap String σ
  restore : List String
  deriving Inhabited

/-- A graph of package specifications. -/
abbrev DependencyGraph := Graph PackageSpec

namespace Graph

variable {σ τ : Type}

/-- The graph without projects and roots. -/
def empty : Graph σ := ⟨[], []⟩

/-- The unique names of the projects, in order. -/
def names (g : Graph σ) : List String := g.projects.map (·.1)

/-- The project under a unique name. -/
def find? (g : Graph σ) (name : String) : Option σ := OrderedMap.get? g.projects name

/-- Files a project unless its name is taken. -/
def addUnder (g : Graph σ) (name : String) (project : σ) : Graph σ :=
  { g with projects := OrderedMap.putNew g.projects name project }

/-- Files a project in place of the one with its name, or at the end. -/
def replaceUnder (g : Graph σ) (name : String) (project : σ) : Graph σ :=
  { g with projects := OrderedMap.put g.projects name project }

/-- Adds a root unless it is one. -/
def addRestore (g : Graph σ) (name : String) : Graph σ :=
  if g.restore.contains name then g else { g with restore := g.restore ++ [name] }

/-- The same projects with other roots. -/
def withRestore (g : Graph σ) (roots : List String) : Graph σ := { g with restore := roots }

/-- What stands for each project replaced. -/
def map (f : σ → τ) (g : Graph σ) : Graph τ := ⟨OrderedMap.mapValues f g.projects, g.restore⟩

/-- The names without one of them. -/
def leave (name : String) (names : List String) : List String := names.filter (· != name)

/-- A visit leaves fewer names open. -/
theorem length_leave_lt {name : String} {names : List String} (h : name ∈ names) :
    (leave name names).length < names.length :=
  List.length_filter_lt_length_iff_exists.2 ⟨name, h, by simp⟩

/-- Visits the names in the queue in order, each once, and puts the successors of a visited name at the end. A
visited name leaves the names still open, which bounds the search. -/
def visit (successors : String → Option (List String)) :
    (openNames : List String) → (queue : List String) → List String
  | _, [] => []
  | openNames, name :: queue =>
    if _h : name ∈ openNames then
      match successors name with
      | none => visit successors openNames queue
      | some next => name :: visit successors (leave name openNames) (queue ++ next)
    else visit successors openNames queue
termination_by openNames queue => (openNames.length, queue.length)
decreasing_by
  · exact Prod.Lex.right _ (Nat.lt_succ_self _)
  · exact Prod.Lex.left _ _ (length_leave_lt _h)
  · exact Prod.Lex.right _ (Nat.lt_succ_self _)

end Graph

namespace DependencyGraph

/-- Files a specification under its own name unless the name is taken. -/
def addProject (g : DependencyGraph) (s : PackageSpec) : DependencyGraph := g.addUnder s.uniqueName s

/-- The graph in which a specification stands in place of the one with its name. -/
def withProject (g : DependencyGraph) (s : PackageSpec) : DependencyGraph := g.replaceUnder s.uniqueName s

/-- The names that the project under a name refers to. -/
def successors (g : DependencyGraph) (name : String) : Option (List String) :=
  (g.find? name).map PackageSpec.referenceNames

/-- The names of a project and of every project reachable from it by references, breadth first. Names without a
project are passed over. -/
def closureNames (g : DependencyGraph) (name : String) : List String := Graph.visit g.successors g.names [name]

/-- The projects reachable from a project by references, beginning with it. -/
def closure (g : DependencyGraph) (name : String) : List PackageSpec := (g.closureNames name).filterMap g.find?

/-- Whether two graphs hold the same projects, in whatever order, and list the same roots in the same order. -/
def same (g h : DependencyGraph) : Bool :=
  g.restore == h.restore && g.projects.length == h.projects.length &&
    g.projects.all fun (name, s) => h.find? name == some s

end DependencyGraph

/-- A reference to a project that the graph does not hold. -/
structure UnresolvedReference where
  project : String
  reference : String
  deriving DecidableEq

namespace DependencyGraph

/-- The references to projects that the graph does not hold, in the order of the projects. -/
def unresolvedReferences (g : DependencyGraph) : List UnresolvedReference :=
  g.projects.flatMap fun (name, s) =>
    (s.referenceNames.filter fun r => !OrderedMap.contains g.projects r).map fun r => ⟨name, r⟩

end DependencyGraph
end PackageGraph
