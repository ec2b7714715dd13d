import PackageGraph.DependencyGraph.Document
import PackageGraph.DependencyGraph.Writer
import PackageGraph.Proofs.Json.Shape
import PackageGraph.Proofs.OrderedMap
/-!
# Written documents have the shape of graph documents
-/
namespace PackageGraph

namespace Json.Shape

/-- A section conforms if its entries do, also where entries of one name replace each other. -/
theorem conforms_sectionOf {s : Shape} {pairs : List (String × Json)}
    (h : ∀ p ∈ pairs, s.conforms p.2 = true) : (mapOf s).conforms (.sectionOf pairs) = true :=
  conforms_mapOf_iff.2 fun m hm => h m (OrderedMap.mem_of_mem_ofPairs hm)

theorem conforms_object (members : List (String × Json)) : Shape.object.conforms (.object members) = true := by
  simp [Shape.object, conforms, fieldsConform]

theorem conforms_text (s : String) : Shape.text.conforms (.text s) = true := rfl

theorem conforms_ofTexts (texts : List String) : (Shape.listOf .text).conforms (.ofTexts texts) = true := by
  simp [ofTexts, conforms, conforms_text]

end Json.Shape

namespace DependencyGraph.Document

open Json Json.Shape

/-- A dependency is written as an object with settings. -/
theorem conforms_dependency (d : Dependency) :
    (Shape.either .text <| .withFields [("target", .text), ("version", .text), ("include", .text),
      ("exclude", .text), ("suppressParent", .text)]).conforms d.toJson = true := by
  unfold Dependency.toJson
  split <;> split <;> rfl

/-- Dependencies are written under their names. -/
theorem conforms_dependencies (ds : List Dependency) : dependencies.conforms (Dependency.listToJson ds) = true := by
  refine conforms_sectionOf fun p hp => ?_
  obtain ⟨d, -, rfl⟩ := List.mem_map.1 hp
  exact conforms_dependency d

theorem conforms_projectReference (r : ProjectReference) : projectReference.conforms r.toJson = true := rfl

/-- References are written by project, under their framework. -/
theorem conforms_references (g : ReferenceGroup) :
    (Shape.withFields [("projectReferences", .mapOf projectReference)]).conforms g.toJson = true := by
  have hsection : (mapOf projectReference).conforms
      (.sectionOf (g.references.map fun r => (r.uniqueName, r.toJson))) = true := by
    refine conforms_sectionOf fun p hp => ?_
    obtain ⟨r, -, rfl⟩ := List.mem_map.1 hp
    exact conforms_projectReference r
  refine conforms_withFields_iff.2 fun m hm f hf _ => ?_
  rw [List.mem_singleton.1 hm, List.mem_singleton.1 hf]
  exact hsection

/-- What is known about restoring a project has the shape of that section. -/
theorem conforms_restore (m : RestoreMetadata) : restore.conforms m.toJson = true := by
  have hframeworks : (mapOf (Shape.withFields [("projectReferences", .mapOf projectReference)])).conforms
      (.sectionOf (m.targets.map fun g => (g.framework.shortName, g.toJson))) = true := by
    refine conforms_sectionOf fun p hp => ?_
    obtain ⟨g, -, rfl⟩ := List.mem_map.1 hp
    exact conforms_references g
  have htexts := conforms_ofTexts m.writtenFrameworks
  have hsources : Shape.object.conforms (.namesOnly m.sources) = true := conforms_object _
  unfold RestoreMetadata.toJson
  refine conforms_withFields_iff.2 ?_
  split <;> simp [hframeworks, htexts, hsources, conforms_text, conforms, isOf]

/-- A target is written with its dependencies, and with its imports if it has any. -/
theorem conforms_target (g : FrameworkGroup) :
    (Shape.withFields [("dependencies", dependencies), ("imports", .listOf .text)]).conforms g.toJson = true := by
  have hdependencies := conforms_dependencies g.dependencies
  have himports := conforms_ofTexts (g.imports.map Moniker.shortName)
  unfold FrameworkGroup.toJson
  refine conforms_withFields_iff.2 ?_
  split <;> simp [hdependencies, himports]

/-- A project is written in the shape of one, whatever it leaves out. -/
theorem conforms_project (s : PackageSpec) : project.conforms s.toJson = true := by
  have hdependencies := conforms_dependencies s.dependencies
  have htargets : (mapOf (Shape.withFields [("dependencies", dependencies), ("imports", .listOf .text)])).conforms
      (.sectionOf (s.targets.map fun g => (g.framework.shortName, g.toJson))) = true := by
    refine conforms_sectionOf fun p hp => ?_
    obtain ⟨g, -, rfl⟩ := List.mem_map.1 hp
    exact conforms_target g
  have hnames (names : List String) : Shape.object.conforms (.namesOnly names) = true := conforms_object _
  unfold PackageSpec.toJson
  refine conforms_withFields_iff.2 ?_
  -- what is known about restoring and the runtimes are written only if there are any
  cases s.restore with
  | none =>
    cases s.runtimeGraph with
    | none => split <;> simp [hdependencies, htargets, conforms_text]
    | some r => split <;> simp [hdependencies, htargets, hnames, conforms_text, RuntimeGraph.toMembers]
  | some m =>
    have hrestore := conforms_restore m
    cases s.runtimeGraph with
    | none => split <;> simp [hdependencies, htargets, hrestore, conforms_text]
    | some r => split <;> simp [hdependencies, htargets, hrestore, hnames, conforms_text, RuntimeGraph.toMembers]

/-- The document of a graph has the shape of graph documents. -/
theorem conforms_toJson (g : DependencyGraph) : shape.conforms g.toJson = true := by
  have hprojects : (mapOf project).conforms (.object (g.projects.map fun e => (e.1, e.2.toJson))) = true := by
    refine conforms_mapOf_iff.2 fun m hm => ?_
    obtain ⟨e, -, rfl⟩ := List.mem_map.1 hm
    exact conforms_project e.2
  have hrestore : Shape.object.conforms (.namesOnly g.restore) = true := conforms_object _
  have hjson : g.toJson = .object [("format", .int formatVersion), ("restore", .namesOnly g.restore),
      ("projects", .object (g.projects.map fun e => (e.1, e.2.toJson)))] := rfl
  simp [shape, hjson, conforms, fieldsConform, OrderedMap.contains, isOf, hprojects, hrestore]

end DependencyGraph.Document
end PackageGraph
