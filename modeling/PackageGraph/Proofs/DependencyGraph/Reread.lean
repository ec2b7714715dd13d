import PackageGraph.DependencyGraph.Basic
import PackageGraph.Proofs.OrderedMap
import PackageGraph.Proofs.VersionRange.Notation
/-!
# Graphs that are read again

The graph whose ranges are those that their normalized forms are read as. It is equal to the graph itself if each of
these ranges is equal to the one that it was written for, since everything else is kept.
-/
namespace PackageGraph

/-- The dependency with the range that is read again. -/
def Dependency.reread (d : Dependency) : Dependency := { d with range := d.range.reread }

/-- The framework with the dependencies that are read again. -/
def FrameworkGroup.reread (g : FrameworkGroup) : FrameworkGroup :=
  { g with dependencies := g.dependencies.map Dependency.reread }

/-- The project with the dependencies that are read again. -/
def PackageSpec.reread (s : PackageSpec) : PackageSpec :=
  { s with targets := s.targets.map FrameworkGroup.reread, dependencies := s.dependencies.map Dependency.reread }

/-- The graph with the projects that are read again. -/
def DependencyGraph.reread (g : DependencyGraph) : DependencyGraph := g.map PackageSpec.reread

/-! ## Equality -/

theorem beq_map_of_forall {α : Type} [BEq α] {f : α → α} {xs : List α} (h : ∀ x ∈ xs, (f x == x) = true) :
    (xs.map f == xs) = true := by
  induction xs with
  | nil => rfl
  | cons x xs ih =>
    rw [List.map_cons, List.cons_beq_cons, h x List.mem_cons_self, ih fun y hy => h y (List.mem_cons_of_mem _ hy)]
    rfl

/-- A dependency is equal to itself as it is read again, if its range is. -/
theorem Dependency.reread_beq {d : Dependency} (h : (d.range.reread == d.range) = true) : (d.reread == d) = true := by
  show instBEqDependency.beq d.reread d = true
  simp [instBEqDependency.beq, reread, h]

/-- So is a target, if the ranges of its dependencies are. -/
theorem FrameworkGroup.reread_beq {g : FrameworkGroup}
    (h : ∀ d ∈ g.dependencies, (d.range.reread == d.range) = true) : (g.reread == g) = true := by
  have hdependencies : (g.dependencies.map Dependency.reread == g.dependencies) = true :=
    beq_map_of_forall fun d hd => Dependency.reread_beq (h d hd)
  show instBEqFrameworkGroup.beq g.reread g = true
  simp [instBEqFrameworkGroup.beq, reread, hdependencies]

/-- So is a project, if all its ranges are. -/
theorem PackageSpec.reread_beq {s : PackageSpec}
    (h : ∀ d ∈ s.allDependencies, (d.range.reread == d.range) = true) : (s.reread == s) = true := by
  have hdependencies : (s.dependencies.map Dependency.reread == s.dependencies) = true :=
    beq_map_of_forall fun d hd => Dependency.reread_beq (h d (List.mem_append_left _ hd))
  have htargets : (s.targets.map FrameworkGroup.reread == s.targets) = true := by
    refine beq_map_of_forall fun g hg => FrameworkGroup.reread_beq fun d hd => ?_
    exact h d (List.mem_append_right _ (List.mem_flatMap.2 ⟨g, hg, hd⟩))
  show instBEqPackageSpec.beq s.reread s = true
  simp [instBEqPackageSpec.beq, reread, hdependencies, htargets]

/-- A graph is equal to the one that is read again if its ranges are. -/
theorem DependencyGraph.same_reread {g : DependencyGraph} (hnames : g.names.Nodup)
    (h : ∀ e ∈ g.projects, ∀ d ∈ e.2.allDependencies, (d.range.reread == d.range) = true) :
    g.same g.reread = true := by
  have hprojects : ∀ e ∈ g.projects, (g.reread.find? e.1 == some e.2) = true := by
    intro e he
    have hfind : g.reread.find? e.1 = some e.2.reread := by
      show OrderedMap.get? (OrderedMap.mapValues PackageSpec.reread g.projects) e.1 = _
      rw [OrderedMap.get?_mapValues, OrderedMap.get?_of_mem hnames he]
      rfl
    rw [hfind]
    exact PackageSpec.reread_beq (h e he)
  have hlength : g.projects.length = g.reread.projects.length := by
    simp [reread, Graph.map, OrderedMap.mapValues]
  have hrestore : g.reread.restore = g.restore := rfl
  simp only [same, hrestore, ← hlength, beq_self_eq_true, Bool.true_and, List.all_eq_true]
  exact hprojects

end PackageGraph
