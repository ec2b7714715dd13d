import PackageGraph.Proofs.Aggregate.RoundTrip
import PackageGraph.Proofs.DependencyGraph.Unresolved
import PackageGraph.Proofs.Path
/-!
# The graph of an aggregate

The graph has each specification of the aggregate once, in order, as a project and as a root. Filing the roots with
the projects does not change what is unresolved, so the references that the aggregate reports are those of its graph.
-/
namespace PackageGraph.Aggregate

variable {fs : FileSystem} {provider : ProjectProvider} {paths : List String} {a : Aggregate}

/-- The projects of a graph do not depend on whether roots are added with them. -/
theorem projects_foldl_addProject (specs : List PackageSpec) {g g' : DependencyGraph}
    (h : g.projects = g'.projects) :
    (specs.foldl DependencyGraph.addProject g).projects =
      (specs.foldl (fun g s => (g.addProject s).addRestore s.uniqueName) g').projects := by
  induction specs generalizing g g' with
  | nil => exact h
  | cons s specs ih =>
    rw [List.foldl_cons, List.foldl_cons]
    apply ih
    have hadd : ((g'.addProject s).addRestore s.uniqueName).projects = (g'.addProject s).projects := by
      rw [Graph.addRestore]
      split
      · rfl
      · rfl
    rw [hadd, DependencyGraph.addProject, DependencyGraph.addProject, Graph.addUnder, Graph.addUnder, h]

/-- An aggregate reports what its graph leaves unresolved. -/
theorem unresolved_eq (h : (ofProjects fs provider paths).result = .ok a) :
    a.unresolved = a.toGraph.unresolvedReferences := by
  obtain ⟨outcomes, -, rfl⟩ := ofProjects_eq_ok_iff.1 h
  have hprojects := projects_foldl_addProject (outcomes.filterMap ProjectOutcome.spec)
    (rfl : (Graph.empty : DependencyGraph).projects = Graph.empty.projects)
  show DependencyGraph.unresolvedReferences _ = _
  rw [DependencyGraph.unresolvedReferences, graphOf, hprojects]
  rfl

/-- The graph of an aggregate has exactly the specifications, under their names and in order, and exactly these names
as roots; each is one of the absolute paths of the projects, and none stands there twice. A reference of a
specification to a name leads to a project of the graph or is reported once, and nothing else is reported. -/
theorem toGraph_exact (h : (ofProjects fs provider paths).result = .ok a) :
    a.toGraph.projects = a.specs.map (fun s => (s.uniqueName, s)) ∧
      a.toGraph.restore = a.specs.map PackageSpec.uniqueName ∧ a.toGraph.restore.Nodup ∧
      a.toGraph.restore.Sublist (projectPaths fs.workingDirectory paths) ∧
      (∀ s ∈ a.specs, Path.isAbsolute s.uniqueName = true) ∧
      a.unresolved = a.toGraph.unresolvedReferences ∧
      (∀ s ∈ a.specs, ∀ reference, s.RefersTo reference →
        a.unresolved.count ⟨s.uniqueName, reference⟩ = if reference ∈ a.toGraph.names then 0 else 1) ∧
      ∀ u ∈ a.unresolved, u.reference ∉ a.toGraph.names ∧
        ∃ s ∈ a.specs, s.uniqueName = u.project ∧ s.RefersTo u.reference := by
  have hsublist := uniqueNames_sublist h
  have hnodup : (a.specs.map PackageSpec.uniqueName).Nodup := (specs_of_ofProjects h).2
  have hgraph := toGraph_eq h
  have hnames : a.toGraph.names = a.specs.map PackageSpec.uniqueName := by
    rw [hgraph, Graph.names, List.map_map]
    rfl
  have hunresolved := unresolved_eq h
  refine ⟨by rw [hgraph], by rw [hgraph], by rw [hgraph]; exact hnodup, by rw [hgraph]; exact hsublist, ?_,
    hunresolved, ?_, ?_⟩
  · intro s hs
    have hpath := hsublist.subset (List.mem_map_of_mem hs)
    obtain ⟨path, -, hpath⟩ := List.mem_map.1 (mem_distinct.1 hpath)
    rw [← hpath]
    exact Path.isAbsolute_absolute fs.isAbsolute_workingDirectory path
  · intro s hs reference hrefers
    -- names are distinct, so that the count does not depend on where the project stands
    have hmem : (s.uniqueName, s) ∈ a.toGraph.projects := by
      rw [hgraph]
      exact List.mem_map_of_mem hs
    rw [hunresolved]
    exact DependencyGraph.count_unresolvedReferences (hnames ▸ hnodup) hmem hrefers
  · intro u hu
    rw [hunresolved, DependencyGraph.mem_unresolvedReferences_iff] at hu
    obtain ⟨hnew, s, hs, hrefers⟩ := hu
    rw [hgraph] at hs
    obtain ⟨t, ht, heq⟩ := List.mem_map.1 hs
    obtain ⟨hname, rfl⟩ := Prod.mk.inj heq
    exact ⟨hnew, t, ht, hname, hrefers⟩

/-- A provider of two projects with package references for two target frameworks. One refers to the other and to a
project that has no specification, the other twice to one that is not there. -/
def pairProvider : ProjectProvider where
  exists? _ := .ok false
  load path := pure <|
    let included := if path == "/src/App/App.csproj" then ["..\\Lib\\Lib.csproj", "..\\Web\\Web.csproj"]
      else if path == "/src/Lib/Lib.csproj" then ["..\\Old\\Old.csproj", "..\\Lib\\..\\Old\\Old.csproj"] else []
    { property := fun p => if p == "TargetFrameworks" then "net48;net6.0" else ""
      items := fun type =>
        if type == "ProjectReference" then included.map fun path => ⟨path, []⟩
        else if path == "/src/Web/Web.csproj" then [] else [⟨"A", [("Version", "1.0")]⟩]
      references := [] }

def pairPaths : List String :=
  ["/src/App/App.csproj", "/src/Web/Web.csproj", "/src/App/../App/App.csproj", "/src/Lib/Lib.csproj"]

/-- Two projects that refer to each other and to one outside each. -/
theorem toGraph_exact_pairProvider :
    ∃ a, (ofProjects ⟨[], []⟩ pairProvider pairPaths).result = .ok a ∧
      a.specs.map PackageSpec.uniqueName = ["/src/App/App.csproj", "/src/Lib/Lib.csproj"] ∧
      a.toGraph.restore = ["/src/App/App.csproj", "/src/Lib/Lib.csproj"] ∧
      a.unresolved = [⟨"/src/App/App.csproj", "/src/Web/Web.csproj"⟩, ⟨"/src/Lib/Lib.csproj", "/src/Old/Old.csproj"⟩] ∧
      a.toGraph.unresolvedReferences = a.unresolved := by
  have hdata : (ofProjects ⟨[], []⟩ pairProvider pairPaths).result.map
      (fun a => (a.specs.map PackageSpec.uniqueName, a.unresolved)) =
        .ok (["/src/App/App.csproj", "/src/Lib/Lib.csproj"],
          [⟨"/src/App/App.csproj", "/src/Web/Web.csproj"⟩, ⟨"/src/Lib/Lib.csproj", "/src/Old/Old.csproj"⟩]) := by
    decide +kernel
  obtain ⟨a, ha, hdata⟩ := Except.map_eq_ok_iff.1 hdata
  obtain ⟨hnames, hreported⟩ := Prod.mk.inj hdata
  obtain ⟨-, hrestore, -, -, -, hunresolved, -⟩ := toGraph_exact ha
  exact ⟨a, ha, hnames, hrestore.trans hnames, hreported, hunresolved.symm⟩

end PackageGraph.Aggregate
