import Mathlib.Data.List.Nodup
import PackageGraph.DependencyGraph.Basic
import PackageGraph.Proofs.OrderedMap
/-!
# References that lead nowhere

A project refers to another whichever framework the reference is for, and however often. In a graph whose names are
distinct such a reference is unresolved exactly if the graph has no project of that name, and it is listed once.
-/
namespace PackageGraph

/-- Of the elements of one name the first is kept, so the names that are kept are the distinct ones. -/
theorem map_keep_first {α κ : Type} [BEq κ] [LawfulBEq κ] (name : α → κ) (xs : List α) :
    (xs.foldl (fun kept x => if kept.any (name · == name x) then kept else kept ++ [x]) []).map name =
      distinct (xs.map name) := by
  -- the last element is the one that is kept or not, so the induction goes from the end
  induction xs using List.reverseRecOn with
  | nil => rfl
  | append_singleton xs x ih =>
    have hcontains : ∀ kept : List α, (kept.map name).contains (name x) = kept.any (name · == name x) := by
      intro kept
      rw [← List.any_beq', List.any_map]
      rfl
    rw [List.map_append, List.map_singleton, distinct_append_singleton, ← ih, hcontains, List.foldl_append,
      List.foldl_cons, List.foldl_nil]
    split
    · rfl
    · rw [List.map_append, List.map_singleton]

/-! ## The projects that a project refers to -/

/-- The references of a project, for whichever framework, as they were written down. -/
def PackageSpec.writtenReferences (s : PackageSpec) : List ProjectReference :=
  s.restore.toList.flatMap fun m => m.targets.flatMap ReferenceGroup.references

/-- The project has a reference to a name. -/
def PackageSpec.RefersTo (s : PackageSpec) (name : String) : Prop :=
  ∃ r ∈ s.writtenReferences, r.uniqueName = name

theorem RestoreMetadata.referenceNames_eq (m : RestoreMetadata) :
    m.referenceNames = distinct ((m.targets.flatMap ReferenceGroup.references).map ProjectReference.uniqueName) :=
  map_keep_first ProjectReference.uniqueName _

namespace PackageSpec

/-- A project refers to each name once, however often it is written. -/
theorem referenceNames_eq (s : PackageSpec) :
    s.referenceNames = distinct (s.writtenReferences.map ProjectReference.uniqueName) := by
  unfold referenceNames writtenReferences
  cases s.restore with
  | none => rfl
  | some m => simpa using m.referenceNames_eq

/-- So the names that it refers to are distinct. -/
theorem nodup_referenceNames (s : PackageSpec) : s.referenceNames.Nodup := by
  rw [referenceNames_eq]
  exact nodup_distinct _

/-- Every name that a project refers to is among its references, and no other. -/
theorem mem_referenceNames_iff {s : PackageSpec} {name : String} : name ∈ s.referenceNames ↔ s.RefersTo name := by
  rw [referenceNames_eq, mem_distinct, List.mem_map]
  rfl

end PackageSpec

/-! ## Unresolved references -/

namespace DependencyGraph

variable {g : DependencyGraph}

/-- A graph holds a project exactly if it names it. -/
theorem contains_projects_iff {name : String} : OrderedMap.contains g.projects name = true ↔ name ∈ g.names := by
  rw [OrderedMap.contains_eq_any_keys, List.any_beq', List.contains_iff_mem]
  rfl

/-- Exactly the references of projects of the graph to names that it does not have are unresolved. -/
theorem mem_unresolvedReferences_iff {u : UnresolvedReference} : u ∈ g.unresolvedReferences ↔
    u.reference ∉ g.names ∧ ∃ s, (u.project, s) ∈ g.projects ∧ s.RefersTo u.reference := by
  have hmissing : ∀ name, (!OrderedMap.contains g.projects name) = true ↔ name ∉ g.names := by
    intro name
    rw [Bool.not_eq_true', ← Bool.not_eq_true, contains_projects_iff]
  rw [unresolvedReferences, List.mem_flatMap]
  constructor
  · rintro ⟨⟨name, s⟩, hs, hu⟩
    obtain ⟨r, hr, rfl⟩ := List.mem_map.1 hu
    obtain ⟨hr, hnew⟩ := List.mem_filter.1 hr
    exact ⟨(hmissing r).1 hnew, s, hs, PackageSpec.mem_referenceNames_iff.1 hr⟩
  · rintro ⟨hnew, s, hs, hrefers⟩
    have hr : u.reference ∈ s.referenceNames := PackageSpec.mem_referenceNames_iff.2 hrefers
    exact ⟨(u.project, s), hs, List.mem_map.2 ⟨u.reference, List.mem_filter.2 ⟨hr, (hmissing _).2 hnew⟩, rfl⟩⟩

/-- In a graph with distinct names no unresolved reference is listed twice. -/
theorem nodup_unresolvedReferences (h : g.names.Nodup) : g.unresolvedReferences.Nodup := by
  rw [unresolvedReferences, List.nodup_flatMap]
  constructor
  · rintro ⟨name, s⟩ -
    refine (s.nodup_referenceNames.filter _).map fun r r' hr => ?_
    exact congrArg UnresolvedReference.reference hr
  · -- what two projects report differs in the project
    refine (List.pairwise_map.1 h).imp fun {e e'} hne => ?_
    intro u hu hu'
    obtain ⟨r, -, rfl⟩ := List.mem_map.1 hu
    obtain ⟨r', -, hr'⟩ := List.mem_map.1 hu'
    exact hne (congrArg UnresolvedReference.project hr').symm

/-- A reference of a project of the graph is resolved, or listed once as unresolved. -/
theorem count_unresolvedReferences (h : g.names.Nodup) {name : String} {s : PackageSpec} (hs : (name, s) ∈ g.projects)
    {reference : String} (hrefers : s.RefersTo reference) :
    g.unresolvedReferences.count ⟨name, reference⟩ = if reference ∈ g.names then 0 else 1 := by
  split
  · rename_i hmem
    exact List.count_eq_zero.2 fun hu => (mem_unresolvedReferences_iff.1 hu).1 hmem
  · rename_i hnew
    exact List.count_eq_one_of_mem (nodup_unresolvedReferences h)
      (mem_unresolvedReferences_iff.2 ⟨hnew, s, hs, hrefers⟩)

end DependencyGraph
end PackageGraph
