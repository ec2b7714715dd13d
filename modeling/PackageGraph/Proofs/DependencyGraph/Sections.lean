import PackageGraph.DependencyGraph.Reader
import PackageGraph.DependencyGraph.Writer
import PackageGraph.Proofs.OrderedMap
/-!
# The sections of written documents

What a reader finds under each name of a document that was written.
-/
namespace PackageGraph

open DependencyGraph.Document

/-! ## Sections -/

/-- A section of what is written for each element under its name. -/
theorem members_sectionOf {α : Type} (name : α → String) (write : α → Json) (xs : List α) :
    (Json.sectionOf (xs.map fun x => (name x, write x))).members =
      (filedUnder name xs).map fun x => (name x, write x) :=
  ofPairs_map name xs write

/-- A section of names has each of them once. -/
theorem names_namesOnly (names : List String) : (Json.namesOnly names).members.map (·.1) = distinct names := by
  have hkeys := OrderedMap.keys_ofPairs (names.map fun n => (n, Json.empty))
  rw [List.map_map] at hkeys
  exact hkeys.trans (congrArg distinct (List.map_id names))

/-- The texts of a list are read back. -/
theorem texts_ofTexts (texts : List String) : (Json.ofTexts texts).items.filterMap Json.text? = texts := by
  simp [Json.ofTexts, Json.items, List.filterMap_map, Function.comp_def, Json.text?]

/-! ## Dependencies -/

namespace Dependency

variable (d : Dependency)

/-- What a dependency includes is written unless it is everything. -/
theorem get?_toJson_include :
    d.toJson.get? "include" = if d.included = .all then none else some (.text d.included.text) := by
  unfold toJson
  split <;> split <;> rfl

theorem get?_toJson_exclude : d.toJson.get? "exclude" = none := by
  unfold toJson
  split <;> split <;> rfl

theorem get?_toJson_suppressParent : d.toJson.get? "suppressParent" =
    if d.suppressParent = .defaultPrivate then none else some (.text d.suppressParent.text) := by
  unfold toJson
  split <;> split <;> rfl

end Dependency

/-! ## Frameworks -/

namespace FrameworkGroup

variable (g : FrameworkGroup)

/-- The imports of a target are written if there are any. -/
theorem get?_toJson_imports : g.toJson.get? "imports" =
    if g.imports.isEmpty then none else some (.ofTexts (g.imports.map Moniker.shortName)) := by
  unfold toJson
  split <;> rfl

end FrameworkGroup

/-! ## Restore sections -/

namespace RestoreMetadata

variable (m : RestoreMetadata)

theorem get?_toJson_projectJsonPath : m.toJson.get? "projectJsonPath" =
    if m.projectJsonPath.isEmpty then none else some (.text m.projectJsonPath) := by
  unfold toJson
  split <;> rfl

end RestoreMetadata

/-! ## Projects -/

namespace PackageSpec

variable (s : PackageSpec)

/-- What is known about restoring a project is written if something is. -/
theorem get?_toJson_restore : s.toJson.get? "restore" = s.restore.map RestoreMetadata.toJson := by
  unfold toJson
  cases s.restore <;> cases s.runtimeGraph <;> split <;> rfl

theorem get?_toJson_dependencies : s.toJson.get? "dependencies" =
    if s.dependencies.isEmpty then none else some (Dependency.listToJson s.dependencies) := by
  unfold toJson
  cases s.restore <;> cases s.runtimeGraph <;> split <;> rfl

theorem get?_toJson_frameworks : s.toJson.get? "frameworks" =
    some (.sectionOf (s.targets.map fun g => (g.framework.shortName, g.toJson))) := by
  unfold toJson
  cases s.restore <;> cases s.runtimeGraph <;> split <;> rfl

theorem get?_toJson_runtimes :
    s.toJson.get? "runtimes" = s.runtimeGraph.map fun r => Json.namesOnly r.runtimes := by
  unfold toJson
  cases s.restore <;> cases s.runtimeGraph <;> split <;> rfl

theorem get?_toJson_supports :
    s.toJson.get? "supports" = s.runtimeGraph.map fun r => Json.namesOnly r.supports := by
  unfold toJson
  cases s.restore <;> cases s.runtimeGraph <;> split <;> rfl

end PackageSpec
end PackageGraph
