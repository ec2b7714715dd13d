import PackageGraph.Proofs.DependencyGraph.Shape
import PackageGraph.Proofs.DependencyGraph.Settled
import PackageGraph.Proofs.Json.Names
/-!
# Graph documents there and back

The document of a graph that was read is accepted again. If moreover every framework name is that of a framework
that its short name stands for, and no two frameworks of one section have the same short name, then what is read is
the graph itself, its ranges being those that their normalized forms are read as. A document is taken to name no
member of an object twice, as every document does that was read from a text (`Json.hasDistinctNames_of_parse`).
-/
namespace PackageGraph

/-- The text names no framework, or one that its short name stands for. -/
def Moniker.IsStable (text : String) : Prop := ∀ m ∈ parse? text, parse? m.shortName = some m

instance (text : String) : Decidable (Moniker.IsStable text) :=
  inferInstanceAs (Decidable (∀ m ∈ Moniker.parse? text, Moniker.parse? m.shortName = some m))

/-- The short name of the framework that a text names. -/
def Moniker.shortNameOf? (text : String) : Option String := (parse? text).map shortName

namespace DependencyGraph.Document

variable {path : String}

/-! ## Names of frameworks in a document -/

/-- The names of the frameworks that a project is built for. -/
def targetNames (body : Json) : List String := (entries body "frameworks").map (·.1)

/-- The names of the frameworks that a project has references for. -/
def referenceNames (body : Json) : List String := (entries (restoreSection body) "frameworks").map (·.1)

/-- The texts of the imports of a framework. -/
def importTexts (target : Json) : List String :=
  (((target.get? "imports").map Json.items).getD []).filterMap Json.text?

/-- The names of the frameworks that a project falls back to. -/
def importNames (body : Json) : List String := (entries body "frameworks").flatMap fun e => importTexts e.2

/-- The frameworks of a project are those that their short names stand for, and no section has two of one short
name. -/
structure HasStableFrameworks (body : Json) : Prop where
  names : ∀ t ∈ targetNames body ++ referenceNames body ++ importNames body, Moniker.IsStable t
  targets : ((targetNames body).filterMap Moniker.shortNameOf?).Nodup
  references : ((referenceNames body).filterMap Moniker.shortNameOf?).Nodup

instance (body : Json) : Decidable (HasStableFrameworks body) :=
  decidable_of_iff
    ((∀ t ∈ targetNames body ++ referenceNames body ++ importNames body, Moniker.IsStable t) ∧
      ((targetNames body).filterMap Moniker.shortNameOf?).Nodup ∧
      ((referenceNames body).filterMap Moniker.shortNameOf?).Nodup)
    ⟨fun ⟨names, targets, references⟩ => ⟨names, targets, references⟩,
      fun h => ⟨h.names, h.targets, h.references⟩⟩

/-! ## Sections without repeated names -/

/-- Where names are distinct, so are the names of the entries of a section. -/
theorem nodup_entries {j : Json} (hj : j.hasDistinctNames = true) (name : String) :
    ((entries j name).map (·.1)).Nodup := by
  unfold entries
  cases hk : j.get? name with
  | none => exact List.nodup_nil
  | some k => exact Json.nodup_members (Json.hasDistinctNames_of_get? hj hk)

/-- They are distinct inside each entry as well. -/
theorem hasDistinctNames_of_mem_entries {j : Json} (hj : j.hasDistinctNames = true) {name : String}
    {e : String × Json} (he : e ∈ entries j name) : e.2.hasDistinctNames = true := by
  unfold entries at he
  cases hk : j.get? name with
  | none => simp [hk] at he
  | some k =>
    rw [hk] at he
    exact Json.hasDistinctNames_of_mem_members (Json.hasDistinctNames_of_get? hj hk) he

/-- They are distinct in what is said about restoring, also if nothing is. -/
theorem hasDistinctNames_restoreSection {body : Json} (hbody : body.hasDistinctNames = true) :
    (restoreSection body).hasDistinctNames = true := by
  unfold restoreSection
  cases hk : body.get? "restore" with
  | none => rfl
  | some k => exact Json.hasDistinctNames_of_get? hbody hk

/-- A text that was filled in is empty only if its default is. -/
theorem eq_empty_of_filled?_getD {j : Json} {name default : String} (h : (filled? j name).getD default = "") :
    default = "" := by
  cases hs : filled? j name with
  | none => simpa [hs] using h
  | some s =>
    have hne : s ≠ "" := by simpa using (Option.filter_eq_some_iff.1 hs).2
    rw [hs] at h
    exact absurd h hne

theorem filterMap_eq_of_map_some {names texts : List String} {f : String → Option String}
    (h : names.map some = texts.map f) : texts.filterMap f = names := by
  have hid : (texts.map f).filterMap id = texts.filterMap f := by rw [List.filterMap_map, Function.id_comp]
  rw [← hid, ← h, List.filterMap_map, Function.id_comp, List.filterMap_some]

/-! ## Projects that were read -/

section Project

variable {name : String} {body : Json} {s : PackageSpec} (hread : readProject path name body = .ok s)

include hread

/-- The ranges of a project that is read are well formed. -/
theorem wellFormed_of_readProject : ∀ d ∈ s.allDependencies, d.range.WellFormed := by
  obtain ⟨references, hgroups, hdependencies, -⟩ := readProject_eq_ok hread
  intro d hd
  rcases List.mem_append.1 hd with hd | hd
  · exact (readDependencies_eq_ok hdependencies).2 d hd
  · obtain ⟨g, hg, hd⟩ := List.mem_flatMap.1 hd
    obtain ⟨e, -, he⟩ := Except.exists_of_mem_mapM (readGroups_eq_ok hgroups).1 hg
    obtain ⟨m, -, -, -, hds⟩ := readTarget_eq_ok he
    exact (readDependencies_eq_ok hds).2 d hd

/-- The frameworks of a project that is read have names. -/
theorem isNamed_of_mem_targets : ∀ g ∈ s.targets, g.framework.moniker.IsNamed := by
  obtain ⟨references, hgroups, -, -⟩ := readProject_eq_ok hread
  intro g hg
  obtain ⟨e, -, he⟩ := Except.exists_of_mem_mapM (readGroups_eq_ok hgroups).1 hg
  obtain ⟨m, hm, hframework, -, -⟩ := readTarget_eq_ok he
  rw [hframework, TargetFramework.moniker_withImports]
  exact Moniker.isNamed_of_parse? hm

/-- A project that was read is readable if its ranges can be compared. -/
theorem isReadable_of_readProject (hc : ∀ d ∈ s.allDependencies, d.range.isComparable = true) : s.IsReadable := by
  have htargets := isNamed_of_mem_targets hread
  have hranges := wellFormed_of_readProject hread
  obtain ⟨references, hgroups, -, hs⟩ := readProject_eq_ok hread
  refine ⟨fun d hd => ⟨hranges d hd, hc d hd⟩, htargets, readMetadata name body references, by rw [hs], ?_⟩
  intro g hg
  obtain ⟨e, -, he⟩ := Except.exists_of_mem_mapM (readGroups_eq_ok hgroups).2 hg
  obtain ⟨m, hm, rfl⟩ := readReferences_eq_ok he
  -- references are for a framework of the targets, or for one without imports
  rcases declaredFramework_cases s.targets m with ⟨t, ht, hframework, -⟩ | hplain
  · show (declaredFramework s.targets m).moniker.IsNamed
    rw [hframework]
    exact htargets t ht
  · show (declaredFramework s.targets m).moniker.IsNamed
    rw [hplain]
    exact Moniker.isNamed_of_parse? hm

variable (hbody : body.hasDistinctNames = true) (hstable : HasStableFrameworks body)
  (hc : ∀ d ∈ s.allDependencies, d.range.isComparable = true)

include hbody hstable hc

/-- The targets of a project that is read are what is read again of their document. -/
theorem isSettled_of_mem_targets : ∀ g ∈ s.targets, g.IsSettled := by
  have hranges := wellFormed_of_readProject hread
  obtain ⟨references, hgroups, -, -⟩ := readProject_eq_ok hread
  intro g hg
  obtain ⟨e, hmem, he⟩ := Except.exists_of_mem_mapM (readGroups_eq_ok hgroups).1 hg
  obtain ⟨m, hm, hframework, himports, hds⟩ := readTarget_eq_ok he
  have hmoniker : g.framework.moniker = m := by rw [hframework, TargetFramework.moniker_withImports]
  have hnames := hstable.names
  simp only [List.mem_append] at hnames
  -- the name of the framework is stable, and so are the names of its imports
  refine ⟨hmoniker ▸ hframework, ?_, ?_, ?_, ?_⟩
  · rw [TargetFramework.shortName, hmoniker]
    exact hnames e.1 (.inl (.inl (List.mem_map_of_mem hmem))) m hm
  · intro i hi
    rw [himports] at hi
    obtain ⟨t, ht, hparse⟩ := List.mem_filterMap.1 hi
    exact hnames t (.inr (List.mem_flatMap.2 ⟨e, hmem, ht⟩)) i hparse
  · intro d hd
    have hall : d ∈ s.allDependencies := List.mem_append_right _ (List.mem_flatMap.2 ⟨g, hg, hd⟩)
    exact ⟨hranges d hall, hc d hall⟩
  · rw [(readDependencies_eq_ok hds).1]
    exact nodup_entries (hasDistinctNames_of_mem_entries hbody hmem) "dependencies"

/-- So are its references by framework. -/
theorem isSettled_of_mem_references {references : List ReferenceGroup}
    (hgroups : readGroups path body = .ok (s.targets, references)) :
    ∀ g ∈ references, g.IsSettled s.targets := by
  have htargets := isSettled_of_mem_targets hread hbody hstable hc
  intro g hg
  obtain ⟨e, hmem, he⟩ := Except.exists_of_mem_mapM (readGroups_eq_ok hgroups).2 hg
  obtain ⟨m, hm, rfl⟩ := readReferences_eq_ok he
  have hsection := hasDistinctNames_of_mem_entries (hasDistinctNames_restoreSection hbody) hmem
  refine ⟨declaredFramework_declaredFramework s.targets m, ?_, ?_, ?_⟩
  · -- The framework is a target's, which is settled, or the one that the document names.
    rcases declaredFramework_cases s.targets m with ⟨t, ht, hframework, -⟩ | hplain
    · rw [hframework]
      exact (htargets t ht).moniker
    · have hmem' : e.1 ∈ referenceNames body := List.mem_map_of_mem hmem
      rw [hplain]
      exact hstable.names e.1 (List.mem_append_left _ (List.mem_append_right _ hmem')) m hm
  · intro r hr hpath
    obtain ⟨e', -, rfl⟩ := List.mem_map.1 hr
    exact eq_empty_of_filled?_getD hpath
  · rw [List.map_map]
    exact nodup_entries hsection "projectReferences"

/-- A project that was read from a document with stable frameworks is settled. -/
theorem isSettled_of_readProject : ∃ m, s.IsSettled name m := by
  have hranges := wellFormed_of_readProject hread
  have htargets := isSettled_of_mem_targets hread hbody hstable hc
  obtain ⟨references, hgroups, hdependencies, hs⟩ := readProject_eq_ok hread
  have hreferences := isSettled_of_mem_references hread hbody hstable hc hgroups
  have hrestore := hasDistinctNames_restoreSection hbody
  -- the short names of the two sections are those that the document gives, in its order
  have htargetNames : (s.targets.map fun g => g.framework.shortName).map some =
      (targetNames body).map Moniker.shortNameOf? := by
    rw [targetNames, List.map_map, List.map_map]
    refine Except.map_eq_of_mapM_eq_ok (readGroups_eq_ok hgroups).1 fun e g he => ?_
    obtain ⟨m, hm, hframework, -, -⟩ := readTarget_eq_ok he
    simp only [Function.comp_apply, Moniker.shortNameOf?, hm, hframework, TargetFramework.shortName_withImports,
      Option.map_some]
  have hreferenceNames : (references.map fun g => g.framework.shortName).map some =
      (referenceNames body).map Moniker.shortNameOf? := by
    rw [referenceNames, List.map_map, List.map_map]
    refine Except.map_eq_of_mapM_eq_ok (readGroups_eq_ok hgroups).2 fun e g he => ?_
    obtain ⟨m, hm, rfl⟩ := readReferences_eq_ok he
    simp only [Function.comp_apply, Moniker.shortNameOf?, hm, shortName_declaredFramework, Option.map_some]
  refine ⟨readMetadata name body references, ?_⟩
  constructor
  case restore => rw [hs]
  case name => rw [hs]
  case filePath => rw [hs]; rfl
  case uniqueName => exact eq_empty_of_filled?_getD
  case projectPath => exact eq_empty_of_filled?_getD
  case projectName => exact eq_empty_of_filled?_getD
  case sources => exact nodup_entries hrestore "sources"
  case targets => exact htargets
  case targetNames => exact filterMap_eq_of_map_some htargetNames ▸ hstable.targets
  case references => exact hreferences
  case referenceNames => exact filterMap_eq_of_map_some hreferenceNames ▸ hstable.references
  case dependencies =>
    intro d hd
    exact ⟨hranges d (List.mem_append_left _ hd), hc d (List.mem_append_left _ hd)⟩
  case names =>
    rw [(readDependencies_eq_ok hdependencies).1]
    exact nodup_entries hbody "dependencies"
  case runtimes =>
    intro r hr
    rw [hs] at hr
    simp only [readRuntimeGraph] at hr
    split at hr
    · cases hr
      exact ⟨nodup_entries hbody "runtimes", nodup_entries hbody "supports"⟩
    · cases hr

end Project

/-! ## Graphs -/

/-- The document of a graph is read as the graph of its projects as each of them is read again. -/
theorem convert_toJson_eq_ok {g : DependencyGraph} (hrestore : g.restore.Nodup)
    (hprojects : ∀ e ∈ g.projects, readProject path e.1 e.2.toJson = .ok e.2.reread) :
    convert path g.toJson = .ok g.reread := by
  have hentries : entries g.toJson "projects" = g.projects.map fun e => (e.1, e.2.toJson) := rfl
  have hread : ∀ e ∈ g.projects, readEntry path (e.1, e.2.toJson) = .ok (e.1, e.2.reread) := by
    intro e he
    rw [readEntry, hprojects e he]
    rfl
  have hnames : (entries g.toJson "restore").map (·.1) = g.restore :=
    (names_namesOnly g.restore).trans (distinct_of_nodup hrestore)
  rw [convert, hentries, Except.mapM_map_eq_ok hread, hnames]
  rfl

/-- It is read at all if each of its projects is. -/
theorem exists_convert_toJson {g : DependencyGraph}
    (hprojects : ∀ e ∈ g.projects, ∃ s, readProject path e.1 e.2.toJson = .ok s) :
    ∃ h, convert path g.toJson = .ok h := by
  have hentries : entries g.toJson "projects" = g.projects.map fun e => (e.1, e.2.toJson) := rfl
  have hread : ∃ projects, (entries g.toJson "projects").mapM (readEntry path) = .ok projects := by
    rw [hentries]
    refine Except.exists_mapM_eq_ok fun p hp => ?_
    obtain ⟨e, he, rfl⟩ := List.mem_map.1 hp
    obtain ⟨s, hs⟩ := hprojects e he
    exact ⟨(e.1, s), by rw [readEntry, hs]; rfl⟩
  obtain ⟨projects, hprojects⟩ := hread
  refine ⟨⟨projects, (entries g.toJson "restore").map (·.1)⟩, ?_⟩
  rw [convert, hprojects]
  rfl

/-- The document of a graph that was read is accepted, and gives the graph back if the frameworks are stable. -/
theorem read_toJson {path' : String} {j : Json} {g : DependencyGraph} (hj : j.hasDistinctNames = true)
    (hread : read path j = .ok g)
    (hc : ∀ e ∈ g.projects, ∀ d ∈ e.2.allDependencies, d.range.isComparable = true) :
    (g.toJson? = .ok g.toJson ∧ ∃ h, read path' g.toJson = .ok h) ∧
      ((∀ e ∈ entries j "projects", HasStableFrameworks e.2) →
        read path' g.toJson = .ok g.reread ∧ g.same g.reread = true ∧
          ∀ e ∈ g.projects, ∀ d ∈ e.2.allDependencies, (d.range.reread == d.range) = true) := by
  obtain ⟨-, hconvert⟩ := read_eq_ok_iff.1 hread
  obtain ⟨hprojects, hrestore⟩ := convert_eq_ok hconvert
  have hshape : shape.firstViolation g.toJson = none :=
    Json.Shape.firstViolation_eq_none_iff.2 (conforms_toJson g)
  -- every project of the graph comes from an entry of the document with its name
  have hsource : ∀ e ∈ g.projects, ∃ body, (e.1, body) ∈ entries j "projects" ∧
      readProject path e.1 body = .ok e.2 := by
    intro e he
    obtain ⟨p, hp, hentry⟩ := Except.exists_of_mem_mapM hprojects he
    obtain ⟨s, hs, rfl⟩ := Except.map_eq_ok_iff.1 hentry
    exact ⟨p.2, hp, hs⟩
  have hreadable : ∀ e ∈ g.projects, e.2.IsReadable := by
    intro e he
    obtain ⟨body, -, hbody⟩ := hsource e he
    exact isReadable_of_readProject hbody (hc e he)
  have hprintable : g.isPrintable = true := by
    rw [isPrintable, List.all_eq_true]
    intro e he
    rw [List.all_eq_true]
    exact fun d hd => VersionRange.isPrintable_of_isComparable (hc e he d hd)
  have hequal : ∀ e ∈ g.projects, ∀ d ∈ e.2.allDependencies, (d.range.reread == d.range) = true := by
    intro e he d hd
    have hd := (hreadable e he).dependencies d hd
    exact (VersionRange.parse_eq_reread hd.range hd.comparable).2
  have hnames : g.names = (entries j "projects").map (·.1) := by
    refine Except.map_eq_of_mapM_eq_ok hprojects fun p e hentry => ?_
    obtain ⟨s, -, rfl⟩ := Except.map_eq_ok_iff.1 hentry
    rfl
  refine ⟨⟨?_, ?_⟩, fun hstable => ⟨?_, ?_, hequal⟩⟩
  · rw [toJson?, if_pos hprintable]
  · obtain ⟨h, hh⟩ := exists_convert_toJson fun e he => exists_readProject_toJson (hreadable e he) e.1
    exact ⟨h, read_eq_ok_iff.2 ⟨hshape, hh⟩⟩
  · have hroots : g.restore.Nodup := hrestore ▸ nodup_entries hj "restore"
    refine read_eq_ok_iff.2 ⟨hshape, convert_toJson_eq_ok hroots fun e he => ?_⟩
    obtain ⟨body, hmem, hbody⟩ := hsource e he
    obtain ⟨m, hm⟩ := isSettled_of_readProject hbody (hasDistinctNames_of_mem_entries hj hmem)
      (hstable _ hmem) (hc e he)
    exact hm.readProject_eq
  · exact same_reread (hnames ▸ nodup_entries hj "projects") hequal

/-- A project with an import, a pattern, a bound with metadata, flags and a reference. -/
def sampleDocument : Json :=
  .object [
    ("restore", .object [("App", .empty)]),
    ("projects", .object [("App", .object [
      ("restore", .object [
        ("projectPath", .text "/src/App.csproj"),
        ("frameworks", .object [(".NETFramework,Version=v4.8", .object [
          ("projectReferences", .object [("Lib", .object [("privateAssets", .text "none")])])])])]),
      ("dependencies", .object [("A", .text "[1.0-rc+build, 2.0)")]),
      ("frameworks", .object [("net48", .object [
        ("dependencies", .object [("B", .object [("version", .text "1.*"), ("exclude", .text "Build, native")])]),
        ("imports", .list [.text "net45", .text " "])])]),
      ("supports", .object [])])])]

/-- The graph of the document. -/
def sampleGraph : DependencyGraph :=
  (read "" sampleDocument).toOption.getD .empty

/-- A document of one project with imports, runtimes and a reference. -/
theorem read_toJson_sampleDocument : read "" sampleDocument = .ok sampleGraph ∧ sampleGraph.names = ["App"] ∧
    sampleGraph.toJson? = .ok sampleGraph.toJson ∧ read "" sampleGraph.toJson = .ok sampleGraph.reread ∧
      sampleGraph.same sampleGraph.reread = true := by
  have hread : read "" sampleDocument = .ok sampleGraph := by rfl
  have hc : ∀ e ∈ sampleGraph.projects, ∀ d ∈ e.2.allDependencies, d.range.isComparable = true := by
    decide +kernel
  have hstable : ∀ e ∈ entries sampleDocument "projects", HasStableFrameworks e.2 := by
    decide +kernel
  obtain ⟨⟨hwritten, -⟩, hreread⟩ := read_toJson (by rfl) hread hc
  exact ⟨hread, by rfl, hwritten, (hreread hstable).1, (hreread hstable).2.1⟩

end DependencyGraph.Document
end PackageGraph
