import PackageGraph.Proofs.Aggregate.RoundTrip
import PackageGraph.Proofs.DependencyGraph.Unresolved
/-!
# The references of normalized projects

The references of a project hang on its target frameworks, on each the same ones. So a specification keeps every
reference of its project file exactly if it has a target framework or the file has no references; only a description in
JSON can be without target frameworks.
-/
namespace PackageGraph

/-! ## What a project file refers to -/

/-- The entries of an item that are not blank, without white space around them. -/
def ProjectDocument.included (item : Element) : List String :=
  ((Text.fields ';' (item.attributeText "Include")).map Text.trim).filter fun s => !s.isEmpty

/-- What the items of a type include, in the order of the document: neither a group with a condition nor an item with
one counts. -/
def ProjectDocument.unconditionalIncludes (root : Element) (type : String) : List String :=
  root.children.flatMap fun group =>
    if group.name = "ItemGroup" ∧ group.attributeText "Condition" = "" then
      group.children.flatMap fun item =>
        if item.name = type ∧ item.attributeText "Condition" = "" then included item else []
    else []

/-- Where the project references of the file of a project lead, in the order of the document; nowhere when there is no
such document. -/
def FileSystem.referencePaths (fs : FileSystem) (project : String) : List String :=
  match fs.readDocument (Path.absolute fs.workingDirectory project) with
  | .ok root => (ProjectDocument.unconditionalIncludes root "ProjectReference").map
      (Path.resolveReference fs.workingDirectory project)
  | .error _ => []

theorem flatMap_filter {α β : Type} (p : α → Bool) (f : α → List β) (xs : List α) :
    (xs.filter p).flatMap f = xs.flatMap fun x => if p x then f x else [] := by
  induction xs with
  | nil => rfl
  | cons x xs ih =>
    rw [List.filter_cons, List.flatMap_cons, ← ih]
    cases p x <;> rfl

namespace ProjectDocument

/-- An element counts if it states no condition. -/
theorem not_isConditional_iff (e : Element) : (!isConditional e) = true ↔ e.attributeText "Condition" = "" := by
  simp [isConditional]

/-- Of the members of a group those of a type count that have no condition. -/
theorem flatMap_included_filter (members : List Element) (type : String) :
    ((members.filter fun e => !isConditional e).filter fun e => e.name == type).flatMap included =
      members.flatMap fun item =>
        if item.name = type ∧ item.attributeText "Condition" = "" then included item else [] := by
  rw [List.filter_filter, flatMap_filter]
  congr 1
  funext e
  simp only [Bool.and_eq_true, beq_iff_eq, not_isConditional_iff]

/-- The items of a type include what the document says without conditions, in its order. -/
theorem map_included_items (root : Element) (type : String) :
    (items root type).map ProjectItem.included = unconditionalIncludes root type := by
  have hitem : ∀ e : Element, (itemsOf e).map ProjectItem.included = included e := by
    intro e
    rw [itemsOf, List.map_map]
    exact List.map_id _
  rw [items, List.map_flatMap, groupMembers]
  simp only [hitem]
  -- a filter on the members of all groups is one on the members of each
  rw [List.filter_flatMap, List.filter_flatMap, List.flatMap_assoc]
  simp only [flatMap_included_filter]
  rw [flatMap_filter]
  congr 1
  funext group
  simp only [Bool.and_eq_true, beq_iff_eq, not_isConditional_iff]

end ProjectDocument

/-! ## What the provider of project files gives -/

namespace FileSystem

variable {fs : FileSystem} {path : String}

/-- Only a file has a document. -/
theorem isFile_of_readDocument {root : Element} (h : fs.readDocument path = .ok root) : fs.isFile path = true := by
  unfold readDocument read at h
  unfold isFile
  cases hnode : fs.lookUp path with
  | error f =>
    rw [hnode] at h
    cases h
  | ok node =>
    cases node with
    | file content => rfl
    | directory =>
      rw [hnode] at h
      cases h

end FileSystem

namespace ProjectProvider

variable {fs : FileSystem} {project : String}

/-- The document of a project file, unless it is malformed or missing. -/
theorem document?_eq_ok {path : String} {root? : Option Element} (h : (document? fs path).result = .ok root?) :
    root? = (fs.readDocument path).toOption := by
  unfold document? at h
  cases hdocument : fs.readDocument path with
  | ok root =>
    rw [if_pos (FileSystem.isFile_of_readDocument hdocument), hdocument] at h
    exact (Except.ok.inj h).symm
  | error e =>
    split at h
    · rw [hdocument] at h
      -- a malformed file counts as having no document, other errors end the reading
      cases e <;> cases h
      rfl
    · exact (Except.ok.inj h).symm

/-- The provider of project files gives the paths that the file leads to, as references and with the items. -/
theorem references_of_load {data : ProjectData} (h : ((ofFiles fs).load project).result = .ok data) :
    data.references = fs.referencePaths project ∧
      ((data.items "ProjectReference").map fun item =>
        Path.resolveReference fs.workingDirectory project item.included) = fs.referencePaths project := by
  simp only [ofFiles, loadDocument, Logged.result_bind, Except.bind_eq_ok_iff] at h
  obtain ⟨root?, ⟨found, hfound, -, -, hroot⟩, hdata⟩ := h
  obtain rfl := Except.ok.inj hroot
  rw [document?_eq_ok hfound] at hdata
  unfold FileSystem.referencePaths
  cases hdocument : fs.readDocument (Path.absolute fs.workingDirectory project) with
  | error e =>
    rw [hdocument] at hdata
    obtain rfl := Except.ok.inj hdata
    exact ⟨rfl, rfl⟩
  | ok root =>
    rw [hdocument] at hdata
    obtain rfl := Except.ok.inj hdata
    -- the references are made from the items
    have hpaths : ((ProjectDocument.items root "ProjectReference").map fun item =>
        Path.resolveReference fs.workingDirectory project item.included) =
          (ProjectDocument.unconditionalIncludes root "ProjectReference").map
            (Path.resolveReference fs.workingDirectory project) := by
      rw [← ProjectDocument.map_included_items, List.map_map]
      rfl
    exact ⟨hpaths, hpaths⟩

end ProjectProvider

/-! ## References on target frameworks -/

/-- Elements that stand before do not stand again. -/
theorem distinct_append_of_subset {α : Type} [BEq α] [LawfulBEq α] {xs ys : List α} (h : ys ⊆ xs) :
    distinct (xs ++ ys) = distinct xs := by
  induction ys using List.reverseRecOn with
  | nil => rw [List.append_nil]
  | append_singleton ys y ih =>
    have hy : y ∈ xs := h (by simp)
    have hys : distinct (xs ++ ys) = distinct xs := ih fun z hz => h (List.mem_append_left _ hz)
    rw [← List.append_assoc, distinct_append_singleton, hys, if_pos]
    exact List.contains_iff_mem.2 (mem_distinct.2 hy)

theorem distinct_eq_nil_iff {α : Type} [BEq α] [LawfulBEq α] {xs : List α} : distinct xs = [] ↔ xs = [] := by
  rw [List.eq_nil_iff_forall_not_mem, List.eq_nil_iff_forall_not_mem]
  exact forall_congr' fun x => not_congr mem_distinct

/-- The same references on every target framework are kept once, if there is a target framework. -/
theorem RestoreMetadata.referenceNames_of_forall {m : RestoreMetadata} {names : List String}
    (h : ∀ g ∈ m.targets, g.references.map ProjectReference.uniqueName = names) :
    m.referenceNames = if m.targets = [] then [] else distinct names := by
  rw [referenceNames_eq, List.map_flatMap]
  cases hgroups : m.targets with
  | nil => rfl
  | cons group groups =>
    rw [hgroups] at h
    have hfirst := h group List.mem_cons_self
    have hrest : (groups.flatMap fun g => g.references.map ProjectReference.uniqueName) ⊆ names := by
      intro name hname
      obtain ⟨g, hg, hname⟩ := List.mem_flatMap.1 hname
      rwa [h g (List.mem_cons_of_mem _ hg)] at hname
    rw [List.flatMap_cons, hfirst, distinct_append_of_subset hrest, if_neg (List.cons_ne_nil _ _)]

/-- The specification has the same references on every target framework, and is without target frameworks only if it
comes from a description in JSON. -/
structure PackageSpec.Carries (s : PackageSpec) (m : RestoreMetadata) (names : List String) : Prop where
  restore : s.restore = some m
  references : ∀ g ∈ m.targets, g.references.map ProjectReference.uniqueName = names
  targets : m.targets = [] ↔ s.targets = []
  format : s.targets = [] → m.format = .projectJson

namespace PackageSpec.Carries

variable {s : PackageSpec} {m : RestoreMetadata} {names : List String} (h : s.Carries m names)

include h

/-- A project refers to the names given for each of its targets, and to none without targets. -/
theorem referenceNames_eq : m.referenceNames = if s.targets = [] then [] else distinct names := by
  rw [RestoreMetadata.referenceNames_of_forall h.references]
  exact if_congr h.targets rfl rfl

/-- No reference is lost exactly if there is a framework for it to hang on, or none to lose. -/
theorem referenceNames_eq_iff : m.referenceNames = distinct names ↔ s.targets ≠ [] ∨ names = [] := by
  rw [h.referenceNames_eq]
  by_cases htargets : s.targets = []
  · rw [if_pos htargets, eq_comm, distinct_eq_nil_iff]
    exact ⟨.inr, fun hnames => hnames.resolve_left (absurd htargets)⟩
  · rw [if_neg htargets]
    exact iff_of_true rfl (.inl htargets)

end PackageSpec.Carries

namespace Specification

variable {project : String} {s : PackageSpec}

/-- References with default flags have the names that they are made of. -/
theorem uniqueName_plainReferences (references : List String) (framework : TargetFramework) :
    (plainReferences references framework).references.map ProjectReference.uniqueName = references := by
  show (references.map ProjectReference.ofPath).map ProjectReference.uniqueName = references
  rw [List.map_map]
  exact List.map_id _

/-- A project with listed packages carries its references in the one framework that it has. -/
theorem carries_ofPackagesConfig {references : List String} {p : String → String}
    (h : (ofPackagesConfig project references).run p = some s) : ∃ m, s.Carries m references := by
  simp only [ofPackagesConfig, Inquiry.run_bind, Inquiry.run_pure] at h
  obtain ⟨moniker, -, rfl⟩ := Option.map_eq_some_iff.1 h
  refine ⟨_, rfl, ?_, ?_, fun hnone => ?_⟩
  · intro g hg
    obtain rfl := List.mem_singleton.1 hg
    exact uniqueName_plainReferences references _
  · exact iff_of_false (List.cons_ne_nil _ _) (List.cons_ne_nil _ _)
  · cases hnone

/-- A description in JSON carries the references of the project in each of its frameworks. -/
theorem carries_ofProjectJson (references : List String) (described : PackageSpec) :
    ∃ m, (ofProjectJson project references described).Carries m references := by
  refine ⟨_, rfl, ?_, ?_, fun _ => rfl⟩
  · intro g hg
    obtain ⟨framework, -, rfl⟩ := List.mem_map.1 hg
    exact uniqueName_plainReferences references framework
  · show described.frameworks.map (plainReferences references) = [] ↔ described.targets = []
    rw [List.map_eq_nil_iff, PackageSpec.frameworks, distinct_eq_nil_iff, List.map_eq_nil_iff]

/-- A project with package references carries its references in each of its frameworks, of which there are some. -/
theorem carries_ofPackageReferences {cwd : String} {data : ProjectData} {p : String → String}
    (h : (ofPackageReferences cwd project data).run p = some s) :
    ∃ m, s.Carries m ((data.items "ProjectReference").map fun item => Path.resolveReference cwd project item.included) := by
  simp only [ofPackageReferences] at h
  split at h
  · cases h
  · simp only [Inquiry.run_bind] at h
    split at h
    · cases h
    · rename_i hframeworks
      simp only [Inquiry.run_bind, Inquiry.run_pure, Option.some.injEq] at h
      subst h
      -- a project without frameworks has no specification, so that there is a target to carry them
      have htargets : ∀ {α : Type} (f : Moniker → α), (targetFrameworks.run p).map f ≠ [] := by
        intro α f hnil
        rw [List.map_eq_nil_iff.1 hnil] at hframeworks
        exact hframeworks rfl
      refine ⟨_, rfl, ?_, iff_of_false ?_ (htargets _), fun hnil => absurd hnil (htargets _)⟩
      · intro g hg
        obtain ⟨t, -, rfl⟩ := List.mem_map.1 hg
        show ((data.items "ProjectReference").map (referenceOf cwd project)).map ProjectReference.uniqueName = _
        rw [List.map_map]
        rfl
      · show ((targetFrameworks.run p).map _).map _ ≠ []
        rw [List.map_map]
        exact htargets _

end Specification

/-- Whichever description a project has, its specification carries the references of its file. -/
theorem ProjectOutcome.carries_of_ofProject {fs : FileSystem} {project : String} {o : ProjectOutcome}
    (h : (ofProject fs (.ofFiles fs) project).result = .ok o) {s : PackageSpec} (hs : o.spec = some s) :
    ∃ m, s.Carries m (fs.referencePaths project) := by
  rcases ofProject_cases h with ⟨-, h⟩ | ⟨-, h | h⟩
  · obtain ⟨-, -, data, hdata, hspec⟩ := ofPackagesConfig_eq_ok h
    rw [← (ProjectProvider.references_of_load hdata).1]
    exact Specification.carries_ofPackagesConfig (hspec.symm.trans hs)
  · obtain ⟨-, -, hspec⟩ := ofProjectJson_eq_ok h
    obtain ⟨value, described, data, -, hdata, rfl⟩ := hspec s hs
    rw [← (ProjectProvider.references_of_load hdata).1]
    exact Specification.carries_ofProjectJson data.references described
  · obtain ⟨-, -, data, hdata, hspec⟩ := ofPackageReferences_eq_ok h
    rw [← (ProjectProvider.references_of_load hdata).2]
    exact Specification.carries_ofPackageReferences (hspec.symm.trans hs)

namespace Aggregate

/-- The names that a specification yields are the distinct paths of the references of its project file, in the order of
the document, exactly if the project has a target framework or the file has no references. A project without target
frameworks is described in JSON, and yields none. -/
theorem references_kept_iff {fs : FileSystem} {paths : List String} {a : Aggregate}
    (h : (ofProjects fs (.ofFiles fs) paths).result = .ok a) : ∀ s ∈ a.specs, ∃ m, s.restore = some m ∧
      (m.referenceNames = distinct (fs.referencePaths s.uniqueName) ↔
        s.targets ≠ [] ∨ fs.referencePaths s.uniqueName = []) ∧
      (s.targets = [] → m.format = .projectJson ∧ m.referenceNames = []) := by
  intro s hs
  obtain ⟨o, ho, hspec, -⟩ := exists_spec_of_mem h hs
  obtain ⟨m, hm⟩ := ProjectOutcome.carries_of_ofProject ho hspec
  refine ⟨m, hm.restore, hm.referenceNames_eq_iff, fun htargets => ⟨hm.format htargets, ?_⟩⟩
  rw [hm.referenceNames_eq, if_pos htargets]

/-- A project of each format, each with a reference. One of them refers to another project under a condition. -/
def formatsFiles : FileSystem :=
  let octets (text : String) : FileNode := .file (text.toList.map fun c => c.toNat.toUInt8)
  let reference (path : String) := "<ProjectReference Include='" ++ path ++ "'/>"
  let description := Json.object [("frameworks", .object [("net48", .object []), ("net6.0", .object [])])]
  ⟨[(["w"], .directory), (["w", "App"], .directory), (["w", "Old"], .directory), (["w", "Web"], .directory),
    (["w", "App", "App.csproj"], octets ("<P><PropertyGroup><TargetFrameworks>net48;net6.0</TargetFrameworks>" ++
      "</PropertyGroup><ItemGroup><PackageReference Include='A'/>" ++ reference "..\\Old\\Old.csproj" ++ "</ItemGroup></P>")),
    (["w", "Old", "Old.csproj"], octets ("<P><PropertyGroup><TargetFrameworkVersion>v4.8</TargetFrameworkVersion>" ++
      "</PropertyGroup><ItemGroup>" ++ reference "../Web/Web.csproj" ++ "</ItemGroup></P>")),
    (["w", "Old", "packages.config"], octets "<packages/>"),
    (["w", "Web", "Web.csproj"], octets ("<P><ItemGroup>" ++ reference "../Gone/Gone.csproj" ++
      "</ItemGroup><ItemGroup Condition='x'>" ++ reference "../App/App.csproj" ++ "</ItemGroup></P>")),
    (["w", "Web", "project.json"], octets description.render)], ["w"]⟩

def formatsPaths : List String := ["App/App.csproj", "Old/Old.csproj", "Web/Web.csproj"]

/-- Three projects, one of each format, that refer to each other in a row. -/
theorem references_kept_three_formats :
    ∃ a, (ofProjects formatsFiles (.ofFiles formatsFiles) formatsPaths).result = .ok a ∧
      (a.specs.map fun s => (s.uniqueName, s.targets.isEmpty, s.referenceNames)) =
        [("/w/App/App.csproj", false, ["/w/Old/Old.csproj"]), ("/w/Old/Old.csproj", false, ["/w/Web/Web.csproj"]),
          ("/w/Web/Web.csproj", false, ["/w/Gone/Gone.csproj"])] ∧
      ∀ s ∈ a.specs, ∃ m, s.restore = some m ∧
        m.referenceNames = distinct (formatsFiles.referencePaths s.uniqueName) := by
  have hdata : (ofProjects formatsFiles (.ofFiles formatsFiles) formatsPaths).result.map
      (fun a => a.specs.map fun s => (s.uniqueName, s.targets.isEmpty, s.referenceNames)) =
        .ok [("/w/App/App.csproj", false, ["/w/Old/Old.csproj"]), ("/w/Old/Old.csproj", false, ["/w/Web/Web.csproj"]),
          ("/w/Web/Web.csproj", false, ["/w/Gone/Gone.csproj"])] := by decide +kernel
  obtain ⟨a, ha, hdata⟩ := Except.map_eq_ok_iff.1 hdata
  refine ⟨a, ha, hdata, fun s hs => ?_⟩
  obtain ⟨m, hrestore, hkept, -⟩ := references_kept_iff ha s hs
  refine ⟨m, hrestore, hkept.2 (.inl ?_)⟩
  -- each of the three has targets
  have hmem := List.mem_map_of_mem (f := fun s : PackageSpec => (s.uniqueName, s.targets.isEmpty, s.referenceNames)) hs
  rw [hdata] at hmem
  have htargets : s.targets.isEmpty = false := by
    simp only [List.mem_cons, List.not_mem_nil, or_false, Prod.mk.injEq] at hmem
    rcases hmem with ⟨-, h, -⟩ | ⟨-, h, -⟩ | ⟨-, h, -⟩ <;> exact h
  exact fun hnil => absurd (List.isEmpty_iff.2 hnil) (Bool.eq_false_iff.1 htargets)

/-- A project with a reference, whose description in JSON has no target frameworks. -/
def untargetedFiles : FileSystem :=
  let octets (text : String) : FileNode := .file (text.toList.map fun c => c.toNat.toUInt8)
  let description := Json.object [("dependencies", .object [])]
  ⟨[(["w"], .directory), (["w", "App"], .directory),
    (["w", "App", "App.csproj"],
      octets "<Project><ItemGroup><ProjectReference Include='..\\Lib\\Lib.csproj'/></ItemGroup></Project>"),
    (["w", "App", "project.json"], octets description.render)], ["w"]⟩

/-- Without target frameworks the reference of a project is lost. -/
theorem not_references_kept :
    ¬ ∀ (fs : FileSystem) (paths : List String) (a : Aggregate), (ofProjects fs (.ofFiles fs) paths).result = .ok a →
      ∀ s ∈ a.specs, ∀ m, s.restore = some m → m.referenceNames = distinct (fs.referencePaths s.uniqueName) := by
  intro hkept
  have hdata : (ofProjects untargetedFiles (.ofFiles untargetedFiles) ["App/App.csproj"]).result.map
      (fun a => a.specs.map fun s =>
        (s.restore.map RestoreMetadata.referenceNames, untargetedFiles.referencePaths s.uniqueName)) =
          .ok [(some [], ["/w/Lib/Lib.csproj"])] := by decide +kernel
  obtain ⟨a, ha, hdata⟩ := Except.map_eq_ok_iff.1 hdata
  obtain ⟨s, hs, hvalues⟩ := List.map_eq_singleton_iff.1 hdata
  obtain ⟨hnames, hpaths⟩ := Prod.mk.inj hvalues
  obtain ⟨m, hrestore, hnames⟩ := Option.map_eq_some_iff.1 hnames
  have hall := hkept untargetedFiles ["App/App.csproj"] a ha s (by rw [hs]; exact List.mem_singleton_self s) m hrestore
  rw [hnames, hpaths] at hall
  exact absurd hall (by decide)

end Aggregate
end PackageGraph
