import PackageGraph.Aggregate.Specification
import PackageGraph.DependencyGraph.Reader
import PackageGraph.Proofs.Framework.Identity
import PackageGraph.Proofs.Restore.Partition
/-!
# Frameworks that are taken for each other

Failed checks, edits, the mark of a project that is built for several frameworks, and the frameworks of a document all
find a framework by its short name. What is told of one framework therefore reaches another exactly if the two share a
short name.
-/
namespace PackageGraph

open FrameworkPartition

/-- The checks that failed are those of one framework. -/
structure RestoreResult.FailsOnly {β : Type} (r : RestoreResult β) (f : TargetFramework) : Prop where
  failed : ∃ c ∈ r.checks, c.success = false
  only : ∀ c ∈ r.checks, c.success = false → c.framework = f

namespace TargetFramework

variable {f g : TargetFramework}

/-- Frameworks fail by their short names. -/
theorem fails_iff_of_failsOnly {β : Type} {r : RestoreResult β} (h : r.FailsOnly f) :
    r.Fails g ↔ f.shortName = g.shortName := by
  constructor
  · rintro ⟨c, hc, hfailed, hshort⟩
    rwa [h.only c hc hfailed] at hshort
  · intro hshort
    obtain ⟨c, hc, hfailed⟩ := h.failed
    exact ⟨c, hc, hfailed, by rw [h.only c hc hfailed, hshort]⟩

/-- A failed check on one framework marks another as failed if their short names are equal. -/
theorem mem_failed_iff_of_failsOnly {β : Type} {r : RestoreResult β} {all : List TargetFramework} (h : r.FailsOnly f)
    (hg : g ∈ all) : g ∈ (ofFailed all r.failedFrameworks).failed ↔ f.shortName = g.shortName := by
  rw [mem_failed_ofFailed hg, isAmong_failedFrameworks, fails_iff_of_failsOnly h]

/-- An edit meant for one framework reaches another if their short names are equal. -/
theorem declaresIn_setDependency_singleton_iff {spec : PackageSpec} {name : String} (range : VersionRange)
    (hs : spec.declaresForAll name = false) (hg : g ∈ spec.frameworks) (hnew : ¬ spec.DeclaresIn name g) :
    (spec.setDependency name range (some [f])).DeclaresIn name g ↔ f.shortName = g.shortName := by
  rw [PackageSpec.declaresIn_setDependency_iff range hs]
  simp [hg, hnew]

theorem length_distinct_pair (x y : String) : (distinct [x, y]).length = if x = y then 1 else 2 := by
  by_cases h : x = y
  · simp [distinct, h]
  · simp [distinct, h, Ne.symm h]

/-- A project for two frameworks is one for several unless their short names are equal. -/
theorem crossTargeting_pair_iff (cwd project : String) (references : List ProjectItem) (outputPath : String)
    (runtimes : RuntimeGraph) {a b : FrameworkGroup} (ha : a.framework = f) (hb : b.framework = g) :
    (Specification.withTargets cwd project references outputPath runtimes [a, b]).restore.map (·.crossTargeting) =
      some false ↔ f.shortName = g.shortName := by
  have hcross : (Specification.withTargets cwd project references outputPath runtimes [a, b]).restore.map
      (·.crossTargeting) = some (decide (1 < (distinct [f.shortName, g.shortName]).length)) := by
    rw [← ha, ← hb]
    rfl
  rw [hcross, length_distinct_pair]
  by_cases h : f.shortName = g.shortName <;> simp [h]

/-- A framework of a document is found among the targets if the short names are equal. -/
theorem declaredFramework_singleton_iff {a : FrameworkGroup} (ha : a.framework = f) :
    DependencyGraph.Document.declaredFramework [a] g.moniker = f ↔ f.shortName = g.shortName := by
  rw [DependencyGraph.Document.declaredFramework, List.reverse_singleton, List.find?_singleton, ha]
  by_cases h : f.shortName = g.shortName
  · have hfound : (f.shortName == g.moniker.shortName) = true := beq_iff_eq.2 h
    rw [if_pos hfound]
    exact iff_of_true ha h
  · have hfound : ¬ (f.shortName == g.moniker.shortName) = true := fun hshort => h (beq_iff_eq.1 hshort)
    rw [if_neg hfound]
    refine iff_of_false (fun hplain => h ?_) h
    -- a framework that is not found stands for itself
    have hf : plain g.moniker = f := hplain
    rw [← hf]
    rfl

/-- What is told of the one framework by short name reaches the other exactly if the two share a short name. -/
structure KeyedByShortName (f g : TargetFramework) : Prop where
  shortName : f.shortName = g.shortName ↔ f.moniker.SharesShortName g.moniker
  failed : ∀ {β : Type} (r : RestoreResult β) (all : List TargetFramework), r.FailsOnly f → g ∈ all →
    (g ∈ (ofFailed all r.failedFrameworks).failed ↔ f.moniker.SharesShortName g.moniker)
  edited : ∀ (spec : PackageSpec) (name : String) (range : VersionRange), spec.declaresForAll name = false →
    g ∈ spec.frameworks → ¬ spec.DeclaresIn name g →
      ((spec.setDependency name range (some [f])).DeclaresIn name g ↔ f.moniker.SharesShortName g.moniker)
  crossTargeting : ∀ (cwd project : String) (references : List ProjectItem) (outputPath : String)
    (runtimes : RuntimeGraph) (a b : FrameworkGroup), a.framework = f → b.framework = g →
      ((Specification.withTargets cwd project references outputPath runtimes [a, b]).restore.map (·.crossTargeting) =
        some false ↔ f.moniker.SharesShortName g.moniker)
  declared : ∀ a : FrameworkGroup, a.framework = f →
    (DependencyGraph.Document.declaredFramework [a] g.moniker = f ↔ f.moniker.SharesShortName g.moniker)

/-- Frameworks that were read are taken for each other exactly if they come to one short name in one of the ways. -/
theorem keyedByShortName_of_parse? {s t : String} {f g : TargetFramework} (hf : Moniker.parse? s = some f.moniker)
    (hg : Moniker.parse? t = some g.moniker) : KeyedByShortName f g := by
  have hshort : f.shortName = g.shortName ↔ f.moniker.SharesShortName g.moniker :=
    Moniker.shortName_eq_iff (Moniker.wellFormed_of_parse? hf) (Moniker.wellFormed_of_parse? hg)
  exact
    { shortName := hshort
      failed := fun _ _ hr hmem => (mem_failed_iff_of_failsOnly hr hmem).trans hshort
      edited := fun _ _ range hs hmem hnew => (declaresIn_setDependency_singleton_iff range hs hmem hnew).trans hshort
      crossTargeting := fun cwd project references outputPath runtimes _ _ ha hb =>
        (crossTargeting_pair_iff cwd project references outputPath runtimes ha hb).trans hshort
      declared := fun _ ha => (declaredFramework_singleton_iff ha).trans hshort }

/-- Two versions of one portable profile. -/
theorem keyedByShortName_portable :
    Moniker.parse? ".NETPortable,Version=v4.5,Profile=Profile7" = some ⟨".NETPortable", [4, 5], "Profile7", ""⟩ ∧
      Moniker.parse? ".NETPortable,Version=v4.6,Profile=Profile7" = some ⟨".NETPortable", [4, 6], "Profile7", ""⟩ ∧
        KeyedByShortName (plain ⟨".NETPortable", [4, 5], "Profile7", ""⟩)
          (plain ⟨".NETPortable", [4, 6], "Profile7", ""⟩) := by
  have hold : Moniker.parse? ".NETPortable,Version=v4.5,Profile=Profile7" =
      some ⟨".NETPortable", [4, 5], "Profile7", ""⟩ := by decide
  have hnew : Moniker.parse? ".NETPortable,Version=v4.6,Profile=Profile7" =
      some ⟨".NETPortable", [4, 6], "Profile7", ""⟩ := by decide
  exact ⟨hold, hnew, keyedByShortName_of_parse? hold hnew⟩

/-- Frameworks that differ may share a short name. -/
theorem not_shortName_ne_of_ne :
    ¬ ∀ (s t : String) (f g : Moniker), Moniker.parse? s = some f → Moniker.parse? t = some g → f ≠ g →
      f.shortName ≠ g.shortName := by
  intro h
  refine h ".NETPortable,Version=v4.5,Profile=Profile7" ".NETPortable,Version=v4.6,Profile=Profile7"
    ⟨".NETPortable", [4, 5], "Profile7", ""⟩ ⟨".NETPortable", [4, 6], "Profile7", ""⟩ ?_ ?_ ?_ ?_
  · decide
  · decide
  · decide
  · decide

end TargetFramework
end PackageGraph
