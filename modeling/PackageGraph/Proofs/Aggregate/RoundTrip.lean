import PackageGraph.Proofs.Aggregate.Normalized
import PackageGraph.Proofs.DependencyGraph.Acceptance
import PackageGraph.Proofs.Path
/-!
# Aggregates written and read

The document of the graph of an aggregate has every project and every root of the graph, in order. Of a project it
keeps what it can file under names. So the graph is read back exactly if no project names anything twice, every short
name in it stands for its framework, and every project is described at its own path.

`toGraph_eq` says what the graph of an aggregate is, `find?_of_read` what is read back under the name of a project.
-/
namespace PackageGraph

open DependencyGraph.Document

namespace PackageSpec

variable {key : String} {m : RestoreMetadata} {s : PackageSpec}

/-- A normalized specification is named by its path. -/
theorem IsNormalized.uniqueName_eq (hs : s.IsNormalized key m) : s.uniqueName = key := by
  simp [PackageSpec.uniqueName, hs.restore, hs.uniqueName, hs.nonempty]

/-- A document keeps no dependency that was not declared. -/
theorem allDependencies_filed_subset (s : PackageSpec) : s.filed.allDependencies ⊆ s.allDependencies := by
  intro d hd
  rcases List.mem_append.1 hd with hd | hd
  · exact List.mem_append_left _ (mem_of_mem_filedUnder hd)
  · obtain ⟨g, hg, hd⟩ := List.mem_flatMap.1 hd
    obtain ⟨h, hh, rfl⟩ := List.mem_map.1 hg
    exact List.mem_append_right _
      (List.mem_flatMap.2 ⟨h, mem_of_mem_filedUnder hh, mem_of_mem_filedUnder hd⟩)

end PackageSpec

namespace Aggregate

variable {fs : FileSystem} {provider : ProjectProvider} {paths : List String} {a : Aggregate}

/-! ## The graph of an aggregate -/

/-- The names of the specifications are those of projects, in order, if each goes by the path of its project. -/
theorem sublist_uniqueNames {R : String → ProjectOutcome → Prop} {projects : List String}
    {outcomes : List ProjectOutcome} (h : List.Forall₂ R projects outcomes)
    (hname : ∀ p o, R p o → ∀ s ∈ o.spec, s.uniqueName = p) :
    ((outcomes.filterMap ProjectOutcome.spec).map PackageSpec.uniqueName).Sublist projects := by
  induction h with
  | nil => exact .slnil
  | @cons p o projects outcomes ho _ ih =>
    cases hs : o.spec with
    | none =>
      rw [List.filterMap_cons_none hs]
      exact ih.cons _
    | some s =>
      rw [List.filterMap_cons_some hs, List.map_cons, hname p o ho s hs]
      exact ih.cons_cons _

/-- Specifications with different names are filed one after the other. -/
theorem foldl_add_eq {specs : List PackageSpec} (hnodup : (specs.map PackageSpec.uniqueName).Nodup) :
    specs.foldl (fun (g : DependencyGraph) s => (g.addProject s).addRestore s.uniqueName) Graph.empty =
      ⟨specs.map fun s => (s.uniqueName, s), specs.map PackageSpec.uniqueName⟩ := by
  -- from the end, where the last specification is the one that is added
  induction specs using List.reverseRecOn with
  | nil => rfl
  | append_singleton specs s ih =>
    rw [List.map_append, List.nodup_append] at hnodup
    have hnew : s.uniqueName ∉ specs.map PackageSpec.uniqueName := fun hmem =>
      hnodup.2.2 _ hmem _ (by simp) rfl
    have hcontains : OrderedMap.contains (specs.map fun s => (s.uniqueName, s)) s.uniqueName = false := by
      simpa [OrderedMap.contains] using hnew
    rw [List.foldl_append, ih hnodup.1, List.foldl_cons, List.foldl_nil, List.map_append, List.map_append]
    simp [DependencyGraph.addProject, Graph.addUnder, OrderedMap.putNew, hcontains, Graph.addRestore, hnew]

/-- The specification of a project at an absolute path goes by the path, which is not empty. -/
theorem isNormalized_of_mem_projectPaths {cwd p : String} (hp : p ∈ projectPaths cwd paths) {o : ProjectOutcome}
    (ho : (ProjectOutcome.ofProject fs provider p).result = .ok o) {s : PackageSpec} (hs : o.spec = some s) :
    ∃ m, s.IsNormalized p m := by
  obtain ⟨path, -, rfl⟩ := List.mem_map.1 (mem_distinct.1 hp)
  exact ProjectOutcome.isNormalized_of_ofProject (Path.absolute_ne_empty _ _) ho hs

section

variable (h : (ofProjects fs provider paths).result = .ok a)

include h

/-- Each specification of an aggregate is that of the project that it goes by. -/
theorem exists_spec_of_mem {s : PackageSpec} (hs : s ∈ a.specs) :
    ∃ o, (ProjectOutcome.ofProject fs provider s.uniqueName).result = .ok o ∧ o.spec = some s ∧
      ∃ m, s.IsNormalized s.uniqueName m := by
  obtain ⟨outcomes, houtcomes, rfl⟩ := ofProjects_eq_ok_iff.1 h
  obtain ⟨o, ho, hs⟩ := List.mem_filterMap.1 hs
  obtain ⟨p, hp, hpo⟩ := Except.exists_of_mem_mapM houtcomes ho
  obtain ⟨m, hm⟩ := isNormalized_of_mem_projectPaths hp hpo hs
  rw [hm.uniqueName_eq]
  exact ⟨o, hpo, hs, m, hm⟩

/-- The names of the specifications are some of the paths, in order. -/
theorem uniqueNames_sublist :
    (a.specs.map PackageSpec.uniqueName).Sublist (projectPaths fs.workingDirectory paths) := by
  obtain ⟨outcomes, houtcomes, rfl⟩ := ofProjects_eq_ok_iff.1 h
  have hall := Except.mapM_eq_ok_iff.1 houtcomes
  refine sublist_uniqueNames ((List.forall₂_and_left _ _).2 ⟨fun p hp => hp, hall⟩) fun p o hpo s hs => ?_
  obtain ⟨m, hm⟩ := isNormalized_of_mem_projectPaths hpo.1 hpo.2 hs
  exact hm.uniqueName_eq

/-- The specifications of an aggregate are normalized, and no two of them have one name. -/
theorem specs_of_ofProjects : (∀ s ∈ a.specs, ∃ m, s.IsNormalized s.uniqueName m) ∧
    (a.specs.map PackageSpec.uniqueName).Nodup := by
  constructor
  · intro s hs
    obtain ⟨o, -, -, hm⟩ := exists_spec_of_mem h hs
    exact hm
  · -- of the paths each is taken once
    exact (uniqueNames_sublist h).nodup (nodup_distinct _)

/-- The graph has the specifications under their names, all of them as roots. -/
theorem toGraph_eq : a.toGraph =
    ⟨a.specs.map fun s => (s.uniqueName, s), a.specs.map PackageSpec.uniqueName⟩ :=
  foldl_add_eq (specs_of_ofProjects h).2

/-- The document of the graph can be written. -/
theorem toJson?_toGraph : a.toGraph.toJson? = .ok a.toGraph.toJson := by
  have hprintable : a.toGraph.isPrintable = true := by
    rw [toGraph_eq h, DependencyGraph.isPrintable, List.all_map, List.all_eq_true]
    intro s hs
    obtain ⟨m, hm⟩ := (specs_of_ofProjects h).1 s hs
    exact List.all_eq_true.2 fun d hd => (hm.ranges d hd).2
  rw [DependencyGraph.toJson?, if_pos hprintable]

/-! ## What is read back -/

/-- The document of an aggregate files each specification under its unique name. -/
theorem entries_projects_toGraph :
    entries a.toGraph.toJson "projects" = a.specs.map fun s => (s.uniqueName, s.toJson) := by
  rw [toGraph_eq h]
  exact List.map_map ..

/-- The document of the graph is accepted exactly if every target framework has a name. -/
theorem exists_read_toGraph_iff {path : String} : (∃ g, read path a.toGraph.toJson = .ok g) ↔
    ∀ s ∈ a.specs, ∀ t ∈ s.targets, Text.isBlankText t.framework.shortName = false := by
  -- every document that was written has the shape, so that only its texts can be refused
  have hshape : shape.firstViolation a.toGraph.toJson = none :=
    Json.Shape.firstViolation_eq_none_iff.2 (conforms_toJson a.toGraph)
  have hlegible : ∀ s ∈ a.specs,
      (IsLegible s.toJson ↔ ∀ t ∈ s.targets, Text.isBlankText t.framework.shortName = false) := by
    intro s hs
    obtain ⟨m, hm⟩ := (specs_of_ofProjects h).1 s hs
    have hnamed : (∃ t, readProject path s.uniqueName s.toJson = .ok t) ↔ _ := exists_readProject_iff_named hm
    rw [← hnamed, exists_readProject_iff]
  calc (∃ g, read path a.toGraph.toJson = .ok g)
      ↔ ∃ g, convert path a.toGraph.toJson = .ok g := by simp only [read_eq_ok_iff, hshape, true_and]
    _ ↔ ∀ s ∈ a.specs, IsLegible s.toJson := by
        rw [exists_convert_iff, entries_projects_toGraph h, List.forall_mem_map]
    _ ↔ _ := forall₂_congr hlegible

variable {path : String} {g : DependencyGraph} (hread : read path a.toGraph.toJson = .ok g)

include hread

/-- The projects and the roots that are read back. -/
theorem names_of_read : g.names = a.toGraph.names ∧ g.restore = a.toGraph.restore := by
  obtain ⟨hprojects, hrestore⟩ := convert_eq_ok (read_eq_ok_iff.1 hread).2
  constructor
  -- reading keeps the keys of the projects
  · have hentry : ∀ e e', readEntry path e = .ok e' → e'.1 = e.1 := by
      intro e e' he
      obtain ⟨s, -, rfl⟩ := Except.map_eq_ok_iff.1 he
      rfl
    rw [Graph.names, Except.map_eq_of_mapM_eq_ok hprojects hentry, entries_projects_toGraph h, toGraph_eq h,
      Graph.names, List.map_map, List.map_map]
    rfl
  -- roots are distinct, so that none of them is dropped
  · have hnodup : a.toGraph.restore.Nodup := by
      rw [toGraph_eq h]
      exact (specs_of_ofProjects h).2
    rw [hrestore, ← distinct_of_nodup hnodup]
    exact names_namesOnly a.toGraph.restore

/-- Under the name of a project stands what is read for it. -/
theorem find?_of_read {s : PackageSpec} (hs : s ∈ a.specs) :
    ∃ t, g.find? s.uniqueName = some t ∧ readProject path s.uniqueName s.toJson = .ok t := by
  have hprojects := (convert_eq_ok (read_eq_ok_iff.1 hread).2).1
  rw [entries_projects_toGraph h] at hprojects
  obtain ⟨e, he, hentry⟩ := Except.exists_mem_of_mapM hprojects _ (List.mem_map_of_mem hs)
  obtain ⟨t, ht, rfl⟩ := Except.map_eq_ok_iff.1 hentry
  -- the names that are read back are those of the specifications, which are different
  refine ⟨t, OrderedMap.get?_of_mem ?_ he, ht⟩
  have hnames := (names_of_read h hread).1
  rw [toGraph_eq h, Graph.names, Graph.names, List.map_map] at hnames
  rw [OrderedMap.keys, hnames]
  exact (specs_of_ofProjects h).2

/-- The graph is read back exactly if what stands under the name of each project is equal to the project. -/
theorem same_iff_of_read :
    a.toGraph.same g = true ↔ ∀ s ∈ a.specs, (g.find? s.uniqueName == some s) = true := by
  obtain ⟨hnames, hrestore⟩ := names_of_read h hread
  have hlength : g.projects.length = a.toGraph.projects.length := by
    simpa [Graph.names] using congrArg List.length hnames
  simp only [DependencyGraph.same, hrestore, hlength, beq_self_eq_true, Bool.true_and]
  rw [toGraph_eq h, List.all_map, List.all_eq_true]
  rfl

end

section

variable (h : (ofProjects fs provider paths).result = .ok a) {path : String} {g : DependencyGraph}
  (hread : read path a.toGraph.toJson = .ok g) {s : PackageSpec} (hs : s ∈ a.specs)
  (hc : ∀ d ∈ s.allDependencies, d.range.isComparable = true)

include h hs hc

/-- What is read again of what the document keeps is equal to it. -/
theorem filed_reread_beq : (s.filed.reread == s.filed) = true := by
  obtain ⟨m, hm⟩ := (specs_of_ofProjects h).1 s hs
  refine PackageSpec.reread_beq fun d hd => ?_
  have hd := s.allDependencies_filed_subset hd
  exact (VersionRange.parse_eq_reread (hm.ranges d hd).1 (hc d hd)).2

include hread

/-- Under the name of a project stands what the document keeps of the project, with its ranges read again. -/
theorem find?_eq_filed_of_read : g.find? s.uniqueName = some s.filed.reread := by
  obtain ⟨t, hfind, ht⟩ := find?_of_read h hread hs
  obtain ⟨m, hm⟩ := (specs_of_ofProjects h).1 s hs
  have hnamed := (exists_readProject_iff_named hm).1 ⟨t, ht⟩
  have hfiled : readProject path s.uniqueName s.toJson = _ := readProject_eq_filed hm hnamed hc
  rw [hfind, Except.ok.inj (ht.symm.trans hfiled)]

/-- A project is kept whole, but for the path of its description, exactly if it has no ambiguities. -/
theorem filed_beq_describedAt_iff : (s.filed.reread == s.describedAt s.uniqueName) = true ↔ s.IsUnambiguous := by
  obtain ⟨m, hm⟩ := (specs_of_ofProjects h).1 s hs
  exact filed_beq_iff hm ((exists_read_toGraph_iff h).1 ⟨g, hread⟩ s hs) hc

/-- A project is kept whole exactly if moreover it is described at its own path. -/
theorem filed_beq_self_iff : (s.filed.reread == s) = true ↔ s.filePath = s.uniqueName ∧ s.IsUnambiguous := by
  have hiff := filed_beq_describedAt_iff h hread hs hc
  constructor
  · intro hbeq
    obtain ⟨m, hm⟩ := (specs_of_ofProjects h).1 s hs
    -- the document keeps the path of the project, so that equality needs the description to be there
    have hpath : s.filed.filePath = s.filePath := (PackageSpec.parts_of_beq hbeq).2.1
    have hown : s.filePath = s.uniqueName := by
      rw [← hpath, PackageSpec.filed, hm.restore]
      exact hm.projectPath
    rw [PackageSpec.describedAt_of_filePath_eq hown] at hiff
    exact ⟨hown, hiff.1 hbeq⟩
  · rintro ⟨hown, hunambiguous⟩
    rw [PackageSpec.describedAt_of_filePath_eq hown] at hiff
    exact hiff.2 hunambiguous

end

/-- The document of the graph of an aggregate is written, and accepted if the target frameworks have names. The graph
that is read has the projects and the roots of the one that was written, in order, and of each project what a document
keeps of it. A project is equal to what is kept, but for the path of its description, exactly if it has no ambiguities;
and the graph is read back exactly if this holds of all projects and each is described at its own path. -/
theorem read_toGraph_same_iff (h : (ofProjects fs provider paths).result = .ok a) (path : String) :
    a.toGraph.toJson? = .ok a.toGraph.toJson ∧
      ((∃ g, read path a.toGraph.toJson = .ok g) ↔
        ∀ s ∈ a.specs, ∀ t ∈ s.targets, Text.isBlankText t.framework.shortName = false) ∧
      ∀ g, read path a.toGraph.toJson = .ok g →
        g.names = a.toGraph.names ∧ g.restore = a.toGraph.restore ∧
          (∀ s ∈ a.specs, (∀ d ∈ s.allDependencies, d.range.isComparable = true) →
            ∃ t, g.find? s.uniqueName = some t ∧ (t == s.filed) = true ∧
              ((t == s.describedAt s.uniqueName) = true ↔ s.IsUnambiguous)) ∧
          ((∀ s ∈ a.specs, ∀ d ∈ s.allDependencies, d.range.isComparable = true) →
            (a.toGraph.same g = true ↔ ∀ s ∈ a.specs, s.filePath = s.uniqueName ∧ s.IsUnambiguous)) := by
  refine ⟨toJson?_toGraph h, exists_read_toGraph_iff h, fun g hread => ?_⟩
  obtain ⟨hnames, hrestore⟩ := names_of_read h hread
  refine ⟨hnames, hrestore, fun s hs hc => ?_, fun hc => ?_⟩
  · exact ⟨s.filed.reread, find?_eq_filed_of_read h hread hs hc, filed_reread_beq h hs hc,
      filed_beq_describedAt_iff h hread hs hc⟩
  · rw [same_iff_of_read h hread]
    refine forall₂_congr fun s hs => ?_
    rw [find?_eq_filed_of_read h hread hs (hc s hs)]
    exact filed_beq_self_iff h hread hs (hc s hs)

/-- A provider of a project with package references, of one that lists its packages in a file and of one that is
described in JSON. -/
def mixedProvider : ProjectProvider where
  exists? path := .ok (path == "/src/Old/packages.config" || path == "/src/Web/project.json")
  load path := pure <|
    if path == "/src/App/App.csproj" then
      { property := fun p =>
          if p == "TargetFrameworks" then "net48;net6.0" else if p == "RuntimeIdentifiers" then "win;linux" else ""
        items := fun type =>
          if type == "PackageReference" then [⟨"A", [("Version", "1.*")]⟩, ⟨"B", [("Version", "[1.0-rc, 2.0)")]⟩]
          else if type == "ProjectReference" then [⟨"..\\Old\\Old.csproj", []⟩] else []
        references := ["/src/Old/Old.csproj"] }
    else
      { property := fun p => if p == "TargetFrameworkVersion" then "v4.8" else ""
        items := fun _ => []
        references := ["/src/App/App.csproj"] }

def mixedFiles : FileSystem :=
  let octets (text : String) : FileNode := .file (text.toList.map fun c => c.toNat.toUInt8)
  let description := Json.object [("dependencies", .object [("C", .text "2.0")]),
    ("frameworks", .object [("net48", .object [("imports", .text "net45")])])]
  ⟨[(["src"], .directory), (["src", "Old"], .directory), (["src", "Web"], .directory),
    (["src", "Old", "packages.config"], octets "<packages><package id='A' version='1.0'/></packages>"),
    (["src", "Web", "project.json"], octets description.render)], []⟩

def mixedPaths : List String := ["/src/App/App.csproj", "/src/Old/Old.csproj", "/src/Web/Web.csproj"]

/-- The project that is described in JSON is described elsewhere; the others are read back as they are. -/
theorem read_toGraph_same_mixedProvider :
    (∃ a g, (ofProjects mixedFiles mixedProvider mixedPaths).result = .ok a ∧ read "" a.toGraph.toJson = .ok g ∧
      g.restore = mixedPaths ∧
        ∀ s ∈ a.specs, ∃ t, g.find? s.uniqueName = some t ∧ (t == s.describedAt s.uniqueName) = true) ∧
    ∃ a g, (ofProjects mixedFiles mixedProvider mixedPaths.dropLast).result = .ok a ∧
      read "" a.toGraph.toJson = .ok g ∧ a.toGraph.same g = true := by
  have hall : (ofProjects mixedFiles mixedProvider mixedPaths).result.map (fun a => decide
      (a.toGraph.restore = mixedPaths ∧ ∀ s ∈ a.specs, s.IsUnambiguous ∧
        (∀ t ∈ s.targets, Text.isBlankText t.framework.shortName = false) ∧
          ∀ d ∈ s.allDependencies, d.range.isComparable = true)) = .ok true := by decide +kernel
  have hown : (ofProjects mixedFiles mixedProvider mixedPaths.dropLast).result.map (fun a => decide
      (∀ s ∈ a.specs, (s.filePath = s.uniqueName ∧ s.IsUnambiguous) ∧
        (∀ t ∈ s.targets, Text.isBlankText t.framework.shortName = false) ∧
          ∀ d ∈ s.allDependencies, d.range.isComparable = true)) = .ok true := by decide +kernel
  constructor
  · obtain ⟨a, ha, hfacts⟩ := Except.map_eq_ok_iff.1 hall
    obtain ⟨hpaths, hfacts⟩ := of_decide_eq_true hfacts
    obtain ⟨-, haccepted, hkept⟩ := read_toGraph_same_iff ha ""
    -- every project declares its names once, and so all of them are accepted and kept
    obtain ⟨g, hg⟩ := haccepted.2 fun s hs => (hfacts s hs).2.1
    obtain ⟨-, hrestore, hkept, -⟩ := hkept g hg
    refine ⟨a, g, ha, hg, hrestore.trans hpaths, fun s hs => ?_⟩
    obtain ⟨t, hfind, -, hiff⟩ := hkept s hs (hfacts s hs).2.2
    exact ⟨t, hfind, hiff.2 (hfacts s hs).1⟩
  · obtain ⟨a, ha, hfacts⟩ := Except.map_eq_ok_iff.1 hown
    have hfacts := of_decide_eq_true hfacts
    obtain ⟨-, haccepted, hkept⟩ := read_toGraph_same_iff ha ""
    obtain ⟨g, hg⟩ := haccepted.2 fun s hs => (hfacts s hs).2.1
    obtain ⟨-, -, -, hsame⟩ := hkept g hg
    exact ⟨a, g, ha, hg, (hsame fun s hs => (hfacts s hs).2.2).2 fun s hs => (hfacts s hs).1⟩

/-- A provider of a project that asks for one package twice. -/
def repeatingProvider : ProjectProvider where
  exists? _ := .ok false
  load _ := pure
    { property := fun p => if p == "TargetFramework" then "net6.0" else ""
      items := fun type =>
        if type == "PackageReference" then [⟨"A", [("Version", "1.0.0")]⟩, ⟨"A", [("Version", "2.0.0")]⟩] else []
      references := [] }

/-- A graph whose document is accepted need not be read back: of two references to one package one is kept. -/
theorem not_read_toGraph_same : ¬ ∀ (fs : FileSystem) (provider : ProjectProvider) (paths : List String)
    (a : Aggregate), (ofProjects fs provider paths).result = .ok a →
      ∃ g, read "" a.toGraph.toJson = .ok g ∧ a.toGraph.same g = true := by
  intro hall
  have hread : (ofProjects ⟨[], []⟩ repeatingProvider ["/src/App/App.csproj"]).result.map (fun a =>
      (read "" a.toGraph.toJson).toOption.map a.toGraph.same) = .ok (some false) := by decide +kernel
  obtain ⟨a, ha, hsame⟩ := Except.map_eq_ok_iff.1 hread
  obtain ⟨g, hg, hg'⟩ := hall _ _ _ a ha
  rw [hg] at hsame
  have hfalse : a.toGraph.same g = false := Option.some.inj hsame
  exact Bool.false_ne_true (hfalse.symm.trans hg')

end Aggregate
end PackageGraph
