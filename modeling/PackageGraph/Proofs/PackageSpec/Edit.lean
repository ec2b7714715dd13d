import PackageGraph.PackageSpec.Edit
import PackageGraph.Proofs.OrderedMap
/-!
# What edits change and what they leave alone

Setting and removing a package changes dependencies only: the names, the restore metadata and the target
frameworks of a specification stay as they are. A package that is set becomes declared in the frameworks that were
asked for, and in no other.
-/
namespace PackageGraph

namespace Dependency

variable (name : String) (range : VersionRange) (ds : List Dependency)

/-- Setting the range of a package leaves the names that are declared as they are. -/
theorem any_declares_updateAll (other : String) :
    (updateAll name range ds).any (·.declares other) = ds.any (·.declares other) := by
  have hd : ∀ d : Dependency, (if d.declares name then { d with range := range } else d).declares other =
      d.declares other := by
    intro d
    split <;> rfl
  simp only [updateAll, List.any_map, Function.comp_def, hd]

theorem declares_ofRange : (ofRange name range).declares name = true := by
  simp [declares, ofRange]

/-- A package that is set in a list is declared there. -/
theorem any_declares_setIn : (setIn name range ds).any (·.declares name) = true := by
  unfold setIn
  split
  · rw [any_declares_updateAll]
    assumption
  · simp [declares_ofRange]

end Dependency

namespace PackageSpec

variable (s : PackageSpec) (name : String) (range : VersionRange) (frameworks : Option (List TargetFramework))

@[simp] theorem restore_setDependency : (s.setDependency name range frameworks).restore = s.restore := by
  unfold setDependency
  split <;> rfl

@[simp] theorem filePath_setDependency : (s.setDependency name range frameworks).filePath = s.filePath := by
  unfold setDependency
  split <;> rfl

@[simp] theorem uniqueName_setDependency :
    (s.setDependency name range frameworks).uniqueName = s.uniqueName := by
  simp [uniqueName]

@[simp] theorem uniqueName_removeDependency : (s.removeDependency name).uniqueName = s.uniqueName := rfl

@[simp] theorem frameworks_setDependency :
    (s.setDependency name range frameworks).frameworks = s.frameworks := by
  unfold PackageSpec.frameworks setDependency
  split
  · rfl
  · simp only [List.map_map]
    congr 2
    funext g
    simp only [Function.comp_apply]
    split <;> rfl

/-- Setting a package does not declare it for all frameworks together, unless it is declared so already. -/
@[simp] theorem declaresForAll_setDependency :
    (s.setDependency name range frameworks).declaresForAll name = s.declaresForAll name := by
  unfold setDependency
  split
  · exact Dependency.any_declares_updateAll ..
  · rfl

/-- The package is declared for a target framework. -/
def DeclaresIn (s : PackageSpec) (name : String) (f : TargetFramework) : Prop :=
  ∃ g ∈ s.targets, g.framework = f ∧ g.dependencies.any (·.declares name) = true

variable {s name}

/-- The frameworks of a specification are those of its targets. -/
theorem mem_frameworks {f : TargetFramework} : f ∈ s.frameworks ↔ ∃ g ∈ s.targets, g.framework = f := by
  simp [frameworks, mem_distinct]

/-- A package without any declaration is declared neither for all frameworks nor for one. -/
theorem not_declares_of_absent (h : ∀ d ∈ s.allDependencies, Text.lower d.name ≠ Text.lower name) :
    s.declaresForAll name = false ∧ ∀ f, ¬ s.DeclaresIn name f := by
  have hnone : ∀ d ∈ s.allDependencies, d.declares name = false := fun d hd => by
    simpa [Dependency.declares] using h d hd
  refine ⟨?_, ?_⟩
  · rw [declaresForAll, List.any_eq_false]
    exact fun d hd => by simp [hnone d (List.mem_append_left _ hd)]
  · rintro f ⟨g, hg, -, hany⟩
    obtain ⟨d, hd, hdeclares⟩ := List.any_eq_true.1 hany
    have hmem : d ∈ s.allDependencies := List.mem_append_right _ (List.mem_flatMap.2 ⟨g, hg, hd⟩)
    rw [hnone d hmem] at hdeclares
    cases hdeclares

/-- A package that is set in chosen frameworks is declared where it was, and in the frameworks with a chosen short
name. -/
theorem declaresIn_setDependency_iff (hs : s.declaresForAll name = false) (chosen : List TargetFramework)
    (f : TargetFramework) :
    (s.setDependency name range (some chosen)).DeclaresIn name f ↔
      s.DeclaresIn name f ∨ (f ∈ s.frameworks ∧ ∃ c ∈ chosen, c.shortName = f.shortName) := by
  -- a target is selected by the short name of its framework
  have hselected : ∀ g : FrameworkGroup, g.isSelected (some chosen) = true ↔
      ∃ c ∈ chosen, c.shortName = g.framework.shortName := by
    simp [FrameworkGroup.isSelected]
  simp only [DeclaresIn, setDependency, hs, Bool.false_eq_true, if_false, List.mem_map, mem_frameworks]
  constructor
  · -- a target that declares the package was chosen, or is as it was
    rintro ⟨_, ⟨g, hg, rfl⟩, hf, hany⟩
    by_cases hsel : g.isSelected (some chosen) = true
    · rw [if_pos hsel] at hf
      exact .inr ⟨⟨g, hg, hf⟩, hf ▸ (hselected g).1 hsel⟩
    · rw [if_neg hsel] at hf hany
      exact .inl ⟨g, hg, hf, hany⟩
  · rintro (⟨g, hg, hf, hany⟩ | ⟨⟨g, hg, hf⟩, hc⟩)
    · refine ⟨_, ⟨g, hg, rfl⟩, ?_⟩
      by_cases hsel : g.isSelected (some chosen) = true
      · rw [if_pos hsel]
        exact ⟨hf, Dependency.any_declares_setIn ..⟩
      · rw [if_neg hsel]
        exact ⟨hf, hany⟩
    · refine ⟨_, ⟨g, hg, rfl⟩, ?_⟩
      rw [if_pos ((hselected g).2 (hf ▸ hc))]
      exact ⟨hf, Dependency.any_declares_setIn ..⟩

/-- A package that is declared for all frameworks together is updated there, so no framework gains it. -/
theorem declaresIn_setDependency_of_forAll (hs : s.declaresForAll name = true) (f : TargetFramework) :
    (s.setDependency name range frameworks).DeclaresIn name f ↔ s.DeclaresIn name f := by
  simp only [DeclaresIn, setDependency, hs, if_true]

end PackageSpec
end PackageGraph
