import PackageGraph.DependencyGraph.Reader
import PackageGraph.Proofs.Except
import PackageGraph.Proofs.Framework.ShortName
import PackageGraph.Proofs.VersionRange.Notation
/-!
# What was read from a document

The steps of the reader taken apart: where each field of a project that was read comes from.
-/
namespace PackageGraph

/-- Imports do not change what a framework is. -/
theorem TargetFramework.moniker_withImports (m : Moniker) (imports : List Moniker) :
    (withImports m imports).moniker = m := by
  unfold withImports
  split <;> rfl

theorem TargetFramework.shortName_withImports (m : Moniker) (imports : List Moniker) :
    (withImports m imports).shortName = m.shortName := by
  rw [shortName, moniker_withImports]

namespace DependencyGraph.Document

variable {path : String}

/-! ## Dependencies -/

/-- A dependency that is read has the name of its entry and a well-formed range. -/
theorem readDependency_eq_ok {e : String × Json} {d : Dependency} (h : readDependency path e = .ok d) :
    d.name = e.1 ∧ d.range.WellFormed := by
  obtain ⟨name, j⟩ := e
  simp only [readDependency] at h
  split at h
  · cases h
  · rename_i range hrange
    obtain rfl := Except.ok.inj h
    exact ⟨rfl, VersionRange.wellFormed_of_parse hrange⟩

/-- The dependencies of a section have the names of its entries, in order. -/
theorem readDependencies_eq_ok {j : Json} {ds : List Dependency} (h : readDependencies path j = .ok ds) :
    ds.map Dependency.name = (entries j "dependencies").map (·.1) ∧ ∀ d ∈ ds, d.range.WellFormed := by
  refine ⟨Except.map_eq_of_mapM_eq_ok h fun e d hd => (readDependency_eq_ok hd).1, fun d hd => ?_⟩
  obtain ⟨e, -, he⟩ := Except.exists_of_mem_mapM h hd
  exact (readDependency_eq_ok he).2

/-! ## Frameworks -/

/-- The framework of an entry is what its name is read as. -/
theorem readFramework_eq_ok_iff {name : String} {m : Moniker} :
    readFramework path name = .ok m ↔ Moniker.parse? name = some m := by
  unfold readFramework
  split <;> simp_all

/-- The moniker, the imports and the dependencies of a framework that was read. -/
theorem readTarget_eq_ok {e : String × Json} {g : FrameworkGroup} (h : readTarget path e = .ok g) :
    ∃ m, Moniker.parse? e.1 = some m ∧ g.framework = .withImports m g.imports ∧ g.imports = readImports e.2 ∧
      readDependencies path e.2 = .ok g.dependencies := by
  unfold readTarget at h
  obtain ⟨m, hm, h⟩ := Except.bind_eq_ok_iff.1 h
  obtain ⟨ds, hds, h⟩ := Except.bind_eq_ok_iff.1 h
  obtain rfl := Except.pure_eq_ok_iff.1 h
  exact ⟨m, readFramework_eq_ok_iff.1 hm, rfl, rfl, hds⟩

/-- References by framework are the references of the entry, for the framework that the targets declare. -/
theorem readReferences_eq_ok {targets : List FrameworkGroup} {e : String × Json} {g : ReferenceGroup}
    (h : readReferences path targets e = .ok g) :
    ∃ m, Moniker.parse? e.1 = some m ∧
      g = ⟨declaredFramework targets m, (entries e.2 "projectReferences").map readReference⟩ := by
  unfold readReferences at h
  obtain ⟨m, hm, h⟩ := Except.bind_eq_ok_iff.1 h
  exact ⟨m, readFramework_eq_ok_iff.1 hm, (Except.pure_eq_ok_iff.1 h).symm⟩

/-- The declared framework is one of the targets, or the framework itself when no target has its short name. -/
theorem declaredFramework_cases (targets : List FrameworkGroup) (m : Moniker) :
    (∃ g ∈ targets, declaredFramework targets m = g.framework ∧ g.framework.shortName = m.shortName) ∨
      declaredFramework targets m = .plain m := by
  unfold declaredFramework
  cases hfind : targets.reverse.find? fun g => g.framework.shortName == m.shortName with
  | none => exact .inr rfl
  | some g =>
    have hmem := List.mem_of_find?_eq_some hfind
    have hname := List.find?_some hfind
    exact .inl ⟨g, List.mem_reverse.1 hmem, rfl, beq_iff_eq.1 hname⟩

/-- A framework that is declared with imports has the same short name. -/
theorem shortName_declaredFramework (targets : List FrameworkGroup) (m : Moniker) :
    (declaredFramework targets m).shortName = m.shortName := by
  rcases declaredFramework_cases targets m with ⟨g, -, hg, hname⟩ | hplain
  · rw [hg, hname]
  · rw [hplain]
    rfl

/-- Looking a declared framework up again finds the same. -/
theorem declaredFramework_declaredFramework (targets : List FrameworkGroup) (m : Moniker) :
    declaredFramework targets (declaredFramework targets m).moniker = declaredFramework targets m := by
  -- The lookup goes by short names, and a declared framework has the short name that it was looked up by.
  unfold declaredFramework
  cases hfind : targets.reverse.find? fun g => g.framework.shortName == m.shortName with
  | none =>
    simp only [Option.map_none, Option.getD_none, TargetFramework.plain]
    rw [hfind]
    rfl
  | some g =>
    have hfound := List.find?_some hfind
    have hname : g.framework.moniker.shortName = m.shortName := beq_iff_eq.1 hfound
    simp only [Option.map_some, Option.getD_some]
    rw [hname, hfind]
    rfl

/-- Only the frameworks of the targets count. -/
theorem declaredFramework_map {f : FrameworkGroup → FrameworkGroup} (hf : ∀ g, (f g).framework = g.framework)
    (targets : List FrameworkGroup) (m : Moniker) :
    declaredFramework (targets.map f) m = declaredFramework targets m := by
  unfold declaredFramework
  rw [← List.map_reverse, List.find?_map, Option.map_map]
  simp only [Function.comp_def, hf]

/-! ## Projects -/

/-- The two sections by framework are read one after the other. -/
theorem readGroups_eq_ok {body : Json} {targets : List FrameworkGroup} {references : List ReferenceGroup}
    (h : readGroups path body = .ok (targets, references)) :
    (entries body "frameworks").mapM (readTarget path) = .ok targets ∧
      (entries (restoreSection body) "frameworks").mapM (readReferences path targets) = .ok references := by
  unfold readGroups at h
  obtain ⟨ts, hts, h⟩ := Except.bind_eq_ok_iff.1 h
  obtain ⟨rs, hrs, h⟩ := Except.bind_eq_ok_iff.1 h
  cases Except.pure_eq_ok_iff.1 h
  exact ⟨hts, hrs⟩

/-- What a project that is read is made of. -/
theorem readProject_eq_ok {name : String} {body : Json} {s : PackageSpec} (h : readProject path name body = .ok s) :
    ∃ references, readGroups path body = .ok (s.targets, references) ∧
      readDependencies path body = .ok s.dependencies ∧
      s = ⟨(readMetadata name body references).projectName, projectPath name body, s.targets, s.dependencies,
        readRuntimeGraph body, some (readMetadata name body references),
        (body.textAt? "version").getD PackageSpec.defaultVersion⟩ := by
  unfold readProject at h
  obtain ⟨⟨ts, rs⟩, hgroups, h⟩ := Except.bind_eq_ok_iff.1 h
  obtain ⟨ds, hds, h⟩ := Except.bind_eq_ok_iff.1 h
  obtain rfl := Except.pure_eq_ok_iff.1 h
  exact ⟨rs, hgroups, hds, rfl⟩

/-- A graph that is read holds a project for each entry, and the names that are to be restored. -/
theorem convert_eq_ok {j : Json} {g : DependencyGraph} (h : convert path j = .ok g) :
    (entries j "projects").mapM (readEntry path) = .ok g.projects ∧ g.restore = (entries j "restore").map (·.1) := by
  unfold convert at h
  obtain ⟨projects, hprojects, h⟩ := Except.bind_eq_ok_iff.1 h
  obtain rfl := Except.pure_eq_ok_iff.1 h
  exact ⟨hprojects, rfl⟩

/-- A document is read by converting it if it has the shape. -/
theorem read_eq_ok_iff {j : Json} {g : DependencyGraph} :
    read path j = .ok g ↔ shape.firstViolation j = none ∧ convert path j = .ok g := by
  unfold read
  split <;> simp_all

end DependencyGraph.Document
end PackageGraph
