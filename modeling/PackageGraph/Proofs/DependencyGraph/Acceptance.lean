import PackageGraph.Proofs.DependencyGraph.RoundTrip
import PackageGraph.Proofs.DependencyGraph.Strict
/-!
# Which documents are read

A document is read exactly if it has the shape of graph documents, its versions can be read and its frameworks have
names. Every other document is refused as a malformed descriptor, and no value of a wrong kind is come across on the
way.
-/
namespace PackageGraph

namespace DependencyGraph.Document

variable {path name : String} {e : String × Json} {j body : Json}

/-! ## Errors -/

/-- The error says that the descriptor at the path is malformed. -/
def IsRefusal (path : String) (e : Error) : Prop := ∃ defect, e = .malformed path defect

open Except (FailsOnlyWith)

/-- A dependency is refused for its range alone. -/
theorem readDependency_failsOnlyWith (e : String × Json) : FailsOnlyWith (IsRefusal path) (readDependency path e) := by
  simp only [readDependency]
  split
  · exact .error ⟨_, rfl⟩
  · exact .ok _

theorem readDependencies_failsOnlyWith (j : Json) : FailsOnlyWith (IsRefusal path) (readDependencies path j) :=
  .mapM _ readDependency_failsOnlyWith

/-- A framework is refused for a name that is blank. -/
theorem readFramework_failsOnlyWith (name : String) : FailsOnlyWith (IsRefusal path) (readFramework path name) := by
  unfold readFramework
  split
  · exact .ok _
  · exact .error ⟨_, rfl⟩

theorem readTarget_failsOnlyWith (e : String × Json) : FailsOnlyWith (IsRefusal path) (readTarget path e) :=
  (readFramework_failsOnlyWith e.1).bind fun _ => (readDependencies_failsOnlyWith e.2).bind fun _ => .ok _

theorem readReferences_failsOnlyWith (targets : List FrameworkGroup) (e : String × Json) :
    FailsOnlyWith (IsRefusal path) (readReferences path targets e) :=
  (readFramework_failsOnlyWith e.1).bind fun _ => .ok _

theorem readGroups_failsOnlyWith (body : Json) : FailsOnlyWith (IsRefusal path) (readGroups path body) :=
  (FailsOnlyWith.mapM _ readTarget_failsOnlyWith).bind fun targets =>
    (FailsOnlyWith.mapM _ (readReferences_failsOnlyWith targets)).bind fun _ => .ok _

/-- So is every part of a document up to the whole: what is refused is malformed, and the path of the document is
named. -/
theorem readProject_failsOnlyWith (name : String) (body : Json) :
    FailsOnlyWith (IsRefusal path) (readProject path name body) :=
  (readGroups_failsOnlyWith body).bind fun _ => (readDependencies_failsOnlyWith body).bind fun _ => .ok _

theorem readEntry_failsOnlyWith (e : String × Json) : FailsOnlyWith (IsRefusal path) (readEntry path e) :=
  (readProject_failsOnlyWith e.1 e.2).map _

/-- A document of the right shape is read or malformed. -/
theorem convert_failsOnlyWith (j : Json) : FailsOnlyWith (IsRefusal path) (convert path j) :=
  (FailsOnlyWith.mapM _ readEntry_failsOnlyWith).bind fun _ => .ok _

/-- A document that is not read is refused. -/
theorem read_failsOnlyWith (path : String) (j : Json) : FailsOnlyWith (IsRefusal path) (read path j) := by
  unfold read
  split
  · exact .error ⟨_, rfl⟩
  · exact convert_failsOnlyWith j

/-! ## Documents that are read -/

/-- The version of a dependency; the empty text without one. -/
def versionText : Json → String
  | .text s => s
  | j => (j.textAt? "version").getD ""

/-- Every version in the dependencies of a project or of one of its frameworks is a range. -/
def HasRanges (j : Json) : Prop :=
  ∀ e ∈ entries j "dependencies", ∃ range, VersionRange.parse (versionText e.2) = .ok range

/-- The versions of a project are ranges, and its frameworks have names. -/
structure IsLegible (body : Json) : Prop where
  ranges : ∀ j ∈ body :: (entries body "frameworks").map (·.2), HasRanges j
  names : ∀ name ∈ targetNames body ++ referenceNames body, Text.isBlankText name = false

/-- A dependency is read exactly if its version is a range. -/
theorem exists_readDependency_iff :
    (∃ d, readDependency path e = .ok d) ↔ ∃ range, VersionRange.parse (versionText e.2) = .ok range := by
  have hversion : ((settings e.2).textAt? "version").getD "" = versionText e.2 := by
    cases e.2 <;> rfl
  simp only [readDependency, hversion]
  cases VersionRange.parse (versionText e.2) <;> simp

/-- The dependencies of a section are read exactly if each of them is. -/
theorem exists_readDependencies_iff : (∃ ds, readDependencies path j = .ok ds) ↔ HasRanges j := by
  simp only [readDependencies, Except.exists_mapM_eq_ok_iff, exists_readDependency_iff, HasRanges]

/-- Every name but a blank one names a framework. -/
theorem exists_readFramework_iff : (∃ m, readFramework path name = .ok m) ↔ Text.isBlankText name = false := by
  simp only [readFramework_eq_ok_iff, Moniker.exists_parse?_iff]

/-- A target needs a name, and ranges for its dependencies. -/
theorem exists_readTarget_iff :
    (∃ g, readTarget path e = .ok g) ↔ Text.isBlankText e.1 = false ∧ HasRanges e.2 := by
  rw [readTarget, Except.exists_bind_eq_ok_iff fun _ => Except.exists_bind_eq_ok_iff fun _ =>
    Except.exists_pure_eq_ok_iff, exists_readFramework_iff, exists_readDependencies_iff, and_true]

/-- References by framework need a name for it, and nothing else. -/
theorem exists_readReferences_iff {targets : List FrameworkGroup} :
    (∃ g, readReferences path targets e = .ok g) ↔ Text.isBlankText e.1 = false := by
  rw [readReferences, Except.exists_bind_eq_ok_iff fun _ => Except.exists_pure_eq_ok_iff, exists_readFramework_iff,
    and_true]

/-- Both sections by framework are read exactly if their frameworks have names and their dependencies ranges. -/
theorem exists_readGroups_iff : (∃ groups, readGroups path body = .ok groups) ↔
    (∀ e ∈ entries body "frameworks", Text.isBlankText e.1 = false ∧ HasRanges e.2) ∧
      ∀ e ∈ entries (restoreSection body) "frameworks", Text.isBlankText e.1 = false := by
  have hreferences : ∀ targets, (∃ references,
      (entries (restoreSection body) "frameworks").mapM (readReferences path targets) = .ok references) ↔
      ∀ e ∈ entries (restoreSection body) "frameworks", Text.isBlankText e.1 = false := by
    simp only [Except.exists_mapM_eq_ok_iff, exists_readReferences_iff, implies_true]
  rw [readGroups, Except.exists_bind_eq_ok_iff fun targets => (Except.exists_bind_eq_ok_iff fun _ =>
    Except.exists_pure_eq_ok_iff).trans (and_congr_left fun _ => hreferences targets)]
  simp only [Except.exists_mapM_eq_ok_iff, exists_readTarget_iff, and_true]

/-- What makes a project legible, in the order in which it is read. -/
theorem isLegible_iff : IsLegible body ↔
    ((∀ e ∈ entries body "frameworks", Text.isBlankText e.1 = false ∧ HasRanges e.2) ∧
      ∀ e ∈ entries (restoreSection body) "frameworks", Text.isBlankText e.1 = false) ∧ HasRanges body := by
  constructor
  · intro h
    have hranges := List.forall_mem_cons.1 h.ranges
    have hnames := List.forall_mem_append.1 h.names
    refine ⟨⟨fun e he => ⟨?_, ?_⟩, fun e he => ?_⟩, hranges.1⟩
    · exact hnames.1 e.1 (List.mem_map_of_mem he)
    · exact hranges.2 e.2 (List.mem_map_of_mem he)
    · exact hnames.2 e.1 (List.mem_map_of_mem he)
  · rintro ⟨⟨htargets, hreferences⟩, hranges⟩
    constructor
    · exact List.forall_mem_cons.2 ⟨hranges, List.forall_mem_map.2 fun e he => (htargets e he).2⟩
    · exact List.forall_mem_append.2
        ⟨List.forall_mem_map.2 fun e he => (htargets e he).1, List.forall_mem_map.2 hreferences⟩

/-- A project is read exactly if it is legible. -/
theorem exists_readProject_iff : (∃ s, readProject path name body = .ok s) ↔ IsLegible body := by
  rw [readProject, Except.exists_bind_eq_ok_iff fun _ => Except.exists_bind_eq_ok_iff fun _ =>
    Except.exists_pure_eq_ok_iff, exists_readGroups_iff, exists_readDependencies_iff, and_true, isLegible_iff]

/-- A document of the right shape is read exactly if each of its projects is legible. -/
theorem exists_convert_iff : (∃ g, convert path j = .ok g) ↔ ∀ e ∈ entries j "projects", IsLegible e.2 := by
  have hentry : ∀ e, (∃ p, readEntry path e = .ok p) ↔ IsLegible e.2 := fun e =>
    Except.exists_map_eq_ok_iff.trans exists_readProject_iff
  rw [convert, Except.exists_bind_eq_ok_iff fun _ => Except.exists_pure_eq_ok_iff, and_true]
  simp only [Except.exists_mapM_eq_ok_iff, hentry]

/-- A graph document is read exactly if it has the shape, its versions can be read and its frameworks have names;
otherwise it is refused as malformed. -/
theorem read_iff_legible (path : String) (j : Json) :
    strictRead path j = read path j ∧
    ((∃ g, read path j = .ok g) ∨ ∃ defect, read path j = .error (.malformed path defect)) ∧
    ((∃ g, read path j = .ok g) ↔ shape.conforms j = true ∧ ∀ e ∈ entries j "projects", IsLegible e.2) := by
  refine ⟨strictRead_eq path j, ?_, ?_⟩
  · cases h : read path j with
    | ok g => exact .inl ⟨g, rfl⟩
    | error e =>
      obtain ⟨defect, rfl⟩ := read_failsOnlyWith path j e h
      exact .inr ⟨defect, rfl⟩
  · simp only [read_eq_ok_iff, Json.Shape.firstViolation_eq_none_iff, exists_and_left, exists_convert_iff]

end DependencyGraph.Document
end PackageGraph
