import PackageGraph.DependencyGraph.Basic
import PackageGraph.Proofs.OrderedMap
/-!
# Graphs whose projects stand under their own names

In such a graph an edited project takes the place of the project that was edited, and no other place.
-/
namespace PackageGraph.DependencyGraph

/-- Every project stands under its own unique name. -/
def IsKeyed (g : DependencyGraph) : Prop := ∀ e ∈ g.projects, e.2.uniqueName = e.1

variable {g : DependencyGraph} {name : String} {s t : PackageSpec}

/-- A project that is found has the name under which it is found. -/
theorem IsKeyed.uniqueName_eq (hg : g.IsKeyed) (hs : g.find? name = some s) : s.uniqueName = name :=
  hg _ (OrderedMap.mem_of_get? hs)

/-- The project that is put in is found under its name. -/
theorem find?_withProject (ht : t.uniqueName = name) : (g.withProject t).find? name = some t := by
  rw [← ht]
  exact OrderedMap.get?_put_self _ _ _

/-- Under every other name nothing changes. -/
theorem find?_withProject_of_ne {other : String} (ht : t.uniqueName = name) (h : other ≠ name) :
    (g.withProject t).find? other = g.find? other :=
  OrderedMap.get?_put_of_ne _ _ (by rwa [ht])

/-- A project that takes the place of another adds no name. -/
theorem names_withProject (ht : t.uniqueName = name) (hs : g.find? name = some s) :
    (g.withProject t).names = g.names := by
  subst ht
  exact OrderedMap.keys_put_of_mem _ (OrderedMap.mem_keys_of_get? hs)

end PackageGraph.DependencyGraph
