import Mathlib.Data.List.Forall2
import Mathlib.Data.List.Nodup
import PackageGraph.Proofs.PackageSpec.Edit
/-!
# Declarations of packages

A specification declares packages in several lists: one for all frameworks together and one for each target framework.
An edit of a package goes through the lists in turn, and in each it leaves what other packages are declared with, in the
order in which they stand. A package that stands in one place only does so after the edit.
-/
namespace PackageGraph

/-! ## Lists side by side -/

theorem exists_mem_of_forall₂ {α β : Type} {R : α → β → Prop} {xs : List α} {ys : List β}
    (h : List.Forall₂ R xs ys) {y : β} (hy : y ∈ ys) : ∃ x ∈ xs, R x y := by
  induction h with
  | nil => cases hy
  | cons hR _ ih =>
    rcases List.mem_cons.1 hy with rfl | hy
    · exact ⟨_, List.mem_cons_self, hR⟩
    · obtain ⟨x, hx, hR⟩ := ih hy
      exact ⟨x, List.mem_cons_of_mem _ hx, hR⟩

theorem forall₂_trans {α : Type} {R : α → α → Prop} (hR : ∀ x y z, R x y → R y z → R x z) {xs ys zs : List α}
    (hxy : List.Forall₂ R xs ys) (hyz : List.Forall₂ R ys zs) : List.Forall₂ R xs zs := by
  induction hxy generalizing zs with
  | nil => exact hyz
  | cons hx _ ih =>
    cases hyz with
    | cons hy hyz => exact .cons (hR _ _ _ hx hy) (ih hyz)

namespace Dependency

/-- The declared name without regard to letter case. -/
def key (d : Dependency) : String := Text.lower d.name

/-- The dependency apart from its range. -/
def exceptRange (d : Dependency) : Dependency := { d with range := .all }

variable {name other : String} {range : VersionRange} {ds es : List Dependency} {d : Dependency}

/-- A dependency declares a package when their names agree but for letter case. -/
theorem declares_iff : d.declares name = true ↔ d.key = Text.lower name := beq_iff_eq

/-- Which names differ in letter case alone makes no difference to what is declared. -/
theorem declares_congr (h : Text.lower name = Text.lower other) (d : Dependency) :
    d.declares name = d.declares other := by
  rw [declares, declares, h]

@[simp] theorem key_exceptRange : d.exceptRange.key = d.key := rfl

@[simp] theorem key_ofRange : (ofRange name range).key = Text.lower name := rfl

theorem any_declares_iff : ds.any (·.declares name) = true ↔ Text.lower name ∈ ds.map key := by
  simp [declares_iff]

@[simp] theorem map_exceptRange_updateAll (name : String) (range : VersionRange) (ds : List Dependency) :
    (updateAll name range ds).map exceptRange = ds.map exceptRange := by
  simp only [updateAll, List.map_map]
  refine List.map_congr_left fun d _ => ?_
  simp only [Function.comp_apply]
  split <;> rfl

/-- An update changes no name. -/
@[simp] theorem map_key_updateAll (name : String) (range : VersionRange) (ds : List Dependency) :
    (updateAll name range ds).map key = ds.map key := by
  have h := congrArg (List.map key) (map_exceptRange_updateAll name range ds)
  simpa only [List.map_map, Function.comp_def, key_exceptRange] using h

/-- Removing a package takes its name out of the names and leaves the others in order. -/
theorem map_key_removeFrom (name : String) (ds : List Dependency) :
    (removeFrom name ds).map key = (ds.map key).filter (· != Text.lower name) := by
  rw [removeFrom, List.filter_map]
  rfl

/-- Setting a range passes over a package of another name. -/
theorem filter_updateAll {p : String → Bool} (hp : p (Text.lower name) = false) (range : VersionRange)
    (ds : List Dependency) :
    (updateAll name range ds).filter (fun d => p d.key) = ds.filter (fun d => p d.key) := by
  induction ds with
  | nil => rfl
  | cons d ds ih =>
    rw [updateAll, List.map_cons, ← updateAll]
    by_cases hd : d.declares name = true
    · have hdrop : p d.key = false := by rw [declares_iff.1 hd, hp]
      have hdrop' : p { d with range := range }.key = false := hdrop
      rw [if_pos hd, List.filter_cons_of_neg (by simp [hdrop']), List.filter_cons_of_neg (by simp [hdrop]), ih]
    · rw [if_neg hd, List.filter_cons, List.filter_cons, ih]

/-! ## What an edit does to a list -/

/-- What setting a package may do to a list: nothing, give the package its range, or add the package at the end of a
list that is without it. -/
inductive MaySet (name : String) (range : VersionRange) (ds : List Dependency) : List Dependency → Prop
  | kept : MaySet name range ds ds
  | updated : MaySet name range ds (updateAll name range ds)
  | added (h : ds.any (·.declares name) = false) : MaySet name range ds (ds ++ [ofRange name range])

/-- Setting a range in a list updates the declarations there, or adds one at the end. -/
theorem maySet_setIn (name : String) (range : VersionRange) (ds : List Dependency) :
    MaySet name range ds (setIn name range ds) := by
  unfold setIn
  split
  · exact .updated
  · exact .added (Bool.eq_false_iff.2 ‹_›)

namespace MaySet

/-- Packages of other names stay as they are. -/
theorem filter_eq (h : MaySet name range ds es) {p : String → Bool} (hp : p (Text.lower name) = false) :
    es.filter (fun d => p d.key) = ds.filter (fun d => p d.key) := by
  cases h with
  | kept => rfl
  | updated => exact filter_updateAll hp range ds
  | added _ => simp [hp]

/-- Whatever is declared keeps its place and everything but its range. -/
theorem isPrefix (h : MaySet name range ds es) : ds.map exceptRange <+: es.map exceptRange := by
  cases h with
  | kept => exact List.prefix_rfl
  | updated => exact (map_exceptRange_updateAll name range ds).symm ▸ List.prefix_rfl
  | added _ => exact (List.prefix_append ds _).map _

/-- A list gains no other name. -/
theorem mem_keys (h : MaySet name range ds es) {k : String} (hk : k ∈ es.map key) :
    k ∈ ds.map key ∨ k = Text.lower name := by
  cases h with
  | kept => exact .inl hk
  | updated => exact .inl (map_key_updateAll name range ds ▸ hk)
  | added _ => simpa using hk

/-- No name comes to be declared twice. -/
theorem nodup (h : MaySet name range ds es) (hds : (ds.map key).Nodup) : (es.map key).Nodup := by
  cases h with
  | kept => exact hds
  | updated => rwa [map_key_updateAll]
  | added hnew =>
    have hout : Text.lower name ∉ ds.map key := by
      rw [← any_declares_iff, hnew]
      exact Bool.false_ne_true
    rw [List.map_append]
    exact List.nodup_append.2 ⟨hds, List.nodup_singleton _, by simpa using hout⟩

end MaySet

/-- After an update every declaration of the package has the new range. -/
theorem range_of_mem_updateAll (hd : d ∈ updateAll name range ds) (hname : d.declares name = true) :
    d.range = range := by
  obtain ⟨e, -, rfl⟩ := List.mem_map.1 hd
  split at hname
  · rw [if_pos ‹_›]
  · exact absurd hname ‹_›

/-- In a list in which a package was set, it has the range. -/
theorem range_of_mem_setIn (hd : d ∈ setIn name range ds) (hname : d.declares name = true) : d.range = range := by
  unfold setIn at hd
  split at hd
  · exact range_of_mem_updateAll hd hname
  · rename_i hnone
    rcases List.mem_append.1 hd with hd | hd
    · exact absurd (List.any_eq_true.2 ⟨d, hd, hname⟩) hnone
    · rw [List.mem_singleton.1 hd]
      rfl

end Dependency

namespace PackageSpec

open Dependency

/-- The lists in which a specification declares packages. -/
def sections (s : PackageSpec) : List (List Dependency) :=
  s.dependencies :: s.targets.map FrameworkGroup.dependencies

/-- The declarations of a package, wherever they stand. -/
def declarations (s : PackageSpec) (name : String) : List Dependency :=
  s.allDependencies.filter (·.declares name)

/-- The specification apart from what it declares. -/
def withoutDependencies (s : PackageSpec) : PackageSpec :=
  { s with
    dependencies := []
    targets := s.targets.map fun g => { g with dependencies := [] } }

/-- No list declares a package twice, and no package is declared both for all frameworks and for one of them. -/
structure DeclaresOnce (s : PackageSpec) : Prop where
  sections : ∀ ds ∈ s.sections, (ds.map key).Nodup
  apart : ∀ g ∈ s.targets, ∀ k ∈ s.dependencies.map key, k ∉ g.dependencies.map key

variable {s : PackageSpec} {name : String} {range : VersionRange}

theorem allDependencies_eq_flatten (s : PackageSpec) : s.allDependencies = s.sections.flatten := by
  rw [allDependencies, sections, List.flatten_cons, List.flatMap_def]

/-- The declarations of a package are found section by section. -/
theorem declarations_eq_flatten (s : PackageSpec) (name : String) :
    s.declarations name = (s.sections.map (List.filter (·.declares name))).flatten := by
  rw [declarations, allDependencies_eq_flatten, List.filter_flatten]

/-- The declarations of a package do not depend on the letter case of its name. -/
theorem declarations_congr {other : String} (h : Text.lower name = Text.lower other) (s : PackageSpec) :
    s.declarations name = s.declarations other :=
  List.filter_congr fun d _ => declares_congr h d

theorem declaresForAll_iff : s.declaresForAll name = true ↔ Text.lower name ∈ s.dependencies.map key :=
  any_declares_iff

/-! ## Edits of a specification -/

@[simp] theorem withoutDependencies_setDependency (s : PackageSpec) (name : String) (range : VersionRange)
    (frameworks : Option (List TargetFramework)) :
    (s.setDependency name range frameworks).withoutDependencies = s.withoutDependencies := by
  unfold setDependency
  split
  · rfl
  · simp only [withoutDependencies, List.map_map]
    congr 1
    refine List.map_congr_left fun g _ => ?_
    simp only [Function.comp_apply]
    split <;> rfl

@[simp] theorem withoutDependencies_removeDependency (s : PackageSpec) (name : String) :
    (s.removeDependency name).withoutDependencies = s.withoutDependencies := by
  simp [withoutDependencies, removeDependency]

/-- A target that is not selected keeps its dependencies, and one that is has the range set in them. -/
theorem maySet_group (name : String) (range : VersionRange) (frameworks : Option (List TargetFramework))
    (g : FrameworkGroup) :
    MaySet name range g.dependencies
      (if g.isSelected frameworks then { g with dependencies := setIn name range g.dependencies }
      else g).dependencies := by
  split
  · exact maySet_setIn ..
  · exact .kept

/-- Setting a package sets it in every list or leaves the list as it is. -/
theorem sections_setDependency (s : PackageSpec) (name : String) (range : VersionRange)
    (frameworks : Option (List TargetFramework)) :
    List.Forall₂ (MaySet name range) s.sections (s.setDependency name range frameworks).sections := by
  unfold setDependency
  split
  · -- declared for all frameworks together, so the lists of the frameworks stay as they are
    exact .cons .updated (List.forall₂_same.2 fun _ _ => .kept)
  · refine .cons .kept ?_
    simp only [List.map_map, List.forall₂_map_left_iff, List.forall₂_map_right_iff, List.forall₂_same]
    exact fun g _ => maySet_group ..

/-- Removal goes over every section of the specification. -/
theorem sections_removeDependency (s : PackageSpec) (name : String) :
    (s.removeDependency name).sections = s.sections.map (removeFrom name) := by
  simp [sections, removeDependency]

/-- Removal declares no package twice. -/
theorem DeclaresOnce.removeDependency (hs : s.DeclaresOnce) (name : String) :
    (s.removeDependency name).DeclaresOnce where
  sections := by
    simp only [sections_removeDependency, List.forall_mem_map, map_key_removeFrom]
    exact fun ds hds => (hs.sections ds hds).filter _
  apart := by
    simp only [PackageSpec.removeDependency, List.forall_mem_map, map_key_removeFrom, List.mem_filter]
    exact fun g hg k hk h => hs.apart g hg k hk.1 h.1

/-- Setting a range declares no package twice, neither in a section nor for all and in a target at once. -/
theorem DeclaresOnce.setDependency (hs : s.DeclaresOnce) (name : String) (range : VersionRange)
    (frameworks : Option (List TargetFramework)) : (s.setDependency name range frameworks).DeclaresOnce where
  sections := by
    intro es hes
    obtain ⟨ds, hds, hset⟩ := exists_mem_of_forall₂ (sections_setDependency s name range frameworks) hes
    exact hset.nodup (hs.sections ds hds)
  apart := by
    unfold PackageSpec.setDependency
    split
    · rw [map_key_updateAll]
      exact hs.apart
    · -- a name that a framework gains is that of the package, which is not declared for all
      rename_i hnone
      intro g' hg' k hk hk'
      obtain ⟨g, hg, rfl⟩ := List.mem_map.1 hg'
      rcases (maySet_group name range frameworks g).mem_keys hk' with hold | rfl
      · exact hs.apart g hg k hk hold
      · exact hnone (declaresForAll_iff.2 hk)

/-! ## The declarations of the package that is edited -/

/-- Nothing declares a package that has been removed. -/
theorem declarations_removeDependency (s : PackageSpec) (name : String) :
    (s.removeDependency name).declarations name = [] := by
  simp [declarations_eq_flatten, sections_removeDependency, removeFrom, Function.comp_def]

/-- A package is found when any declaration has its name. -/
theorem hasDependency_iff : s.hasDependency name = true ↔ ∃ d ∈ s.allDependencies, d.declares name = true :=
  List.any_eq_true

/-- A package is found exactly when its declarations are not empty. -/
theorem declarations_ne_nil_iff : s.declarations name ≠ [] ↔ s.hasDependency name = true := by
  rw [hasDependency_iff, declarations, ne_eq, List.filter_eq_nil_iff]
  simp

/-- A declaration of a package that was set in every framework has the range, unless the package was set for all
frameworks together and the declaration is one of a framework. -/
theorem range_eq_or_mem_target {d : Dependency} (hd : d ∈ (s.setDependency name range none).allDependencies)
    (hname : d.declares name = true) :
    d.range = range ∨ (s.declaresForAll name = true ∧ ∃ g ∈ s.targets, d ∈ g.dependencies) := by
  rw [allDependencies, PackageSpec.setDependency] at hd
  split at hd
  · rename_i hall
    rcases List.mem_append.1 hd with hd | hd
    · exact .inl (range_of_mem_updateAll hd hname)
    · exact .inr ⟨hall, List.mem_flatMap.1 hd⟩
  · rename_i hnone
    rcases List.mem_append.1 hd with hd | hd
    · exact absurd (List.any_eq_true.2 ⟨d, hd, hname⟩) hnone
    · -- without a choice every framework is one in which the package was set
      obtain ⟨g, hg, hd⟩ := List.mem_flatMap.1 hd
      obtain ⟨g, -, rfl⟩ := List.mem_map.1 hg
      exact .inl (range_of_mem_setIn hd hname)

/-- Where a package that is set stands once, every declaration of it has the range. -/
theorem DeclaresOnce.range_of_mem_declarations (hs : s.DeclaresOnce) :
    ∀ d ∈ (s.setDependency name range none).declarations name, d.range = range := by
  intro d hd
  obtain ⟨hd, hname⟩ := List.mem_filter.1 hd
  rcases range_eq_or_mem_target hd hname with hrange | ⟨hall, g, hg, hd⟩
  · exact hrange
  · -- a target framework does not declare what all declare together
    have hkey : Text.lower name ∈ g.dependencies.map key := List.mem_map.2 ⟨d, hd, declares_iff.1 hname⟩
    exact absurd hkey (hs.apart g hg _ (declaresForAll_iff.1 hall))

/-- A package that is set in every framework is declared exactly if it is declared for all of them or there is one. -/
theorem hasDependency_setDependency_iff :
    (s.setDependency name range none).hasDependency name = true ↔ s.declaresForAll name = true ∨ s.targets ≠ [] := by
  -- declared for all it is only updated; otherwise it goes into the targets, of which there must be one
  cases hall : s.declaresForAll name with
  | true =>
    rw [← declaresForAll_setDependency s name range none] at hall
    obtain ⟨d, hd, hname⟩ := List.any_eq_true.1 hall
    simpa using hasDependency_iff.2 ⟨d, List.mem_append_left _ hd, hname⟩
  | false =>
    have hset : (s.setDependency name range none).targets =
        s.targets.map fun g => { g with dependencies := setIn name range g.dependencies } := by
      simp [PackageSpec.setDependency, hall, FrameworkGroup.isSelected]
    have hnone : (s.setDependency name range none).declaresForAll name = false := by
      rw [declaresForAll_setDependency, hall]
    have hin : ∀ ds, (setIn name range ds).any (·.declares name) = true := any_declares_setIn name range
    rw [hasDependency, allDependencies, List.any_append, ← declaresForAll, hnone, hset, List.any_flatMap, List.any_map]
    simp [Function.comp_def, hin, List.eq_nil_iff_forall_not_mem]

/-- A package that is set is declared, if there is a target framework. -/
theorem declarations_setDependency_ne_nil (htargets : s.targets ≠ []) :
    (s.setDependency name range none).declarations name ≠ [] :=
  declarations_ne_nil_iff.2 (hasDependency_setDependency_iff.2 (.inr htargets))

end PackageSpec
end PackageGraph
