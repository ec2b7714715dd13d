import PackageGraph.DependencyGraph.Reader
import PackageGraph.Proofs.Except
import PackageGraph.Proofs.Json.Shape
import PackageGraph.Proofs.OrderedMap
/-!
# Reading without defaults for wrong kinds

A document is converted without a look at the kinds of its values: where an object, a list or a text is expected, a
value of another kind counts as an empty one. Here is the same conversion with a fault in every such place. On
documents of the right shape the two are equal, so that checking the shape is enough to keep every fault away.
-/
namespace PackageGraph

/-! ## Values of an expected kind -/

namespace Json

variable {α : Type}

/-- The error at a value of another kind than the expected one. -/
def wrongKind : Except Error α := .error (.fault .wrongKind)

/-- The members of a value that is to be an object. -/
def membersOf : Json → Except Error (List (String × Json))
  | .object members => .ok members
  | _ => wrongKind

/-- The items of a value that is to be a list. -/
def itemsOf : Json → Except Error (List Json)
  | .list items => .ok items
  | _ => wrongKind

/-- The text of a value that is to be a text. -/
def textOf : Json → Except Error String
  | .text s => .ok s
  | _ => wrongKind

/-- The flag of a value that is to be a flag. -/
def flagOf : Json → Except Error Bool
  | .bool b => .ok b
  | _ => wrongKind

/-- What is read from the member under a name of a value that is to be an object, if the member is there. -/
def under (read : Json → Except Error α) (j : Json) (name : String) : Except Error (Option α) := do
  match OrderedMap.get? (← membersOf j) name with
  | none => return none
  | some v => return some (← read v)

/-- The members of a section; none without the section. -/
def sectionUnder (j : Json) (name : String) : Except Error (List (String × Json)) :=
  return (← under membersOf j name).getD []

/-- The texts of a list of texts; none without the list. -/
def textsUnder (j : Json) (name : String) : Except Error (List String) := do
  ((← under itemsOf j name).getD []).mapM textOf

end Json

namespace DependencyGraph.Document

open Json (Shape under sectionUnder textsUnder membersOf itemsOf textOf flagOf)

/-! ## The conversion -/

/-- The text under a name, unless it is missing or empty. -/
def filledUnder (j : Json) (name : String) : Except Error (Option String) :=
  return (← under textOf j name).filter fun s => !s.isEmpty

/-- The flags under a name. -/
def flagsUnder (j : Json) (name : String) (default : AssetFlags) : Except Error AssetFlags :=
  return AssetFlags.parseOptional (← under textOf j name) default

/-- Reads a dependency. -/
def strictDependency (path : String) (entry : String × Json) : Except Error Dependency := do
  let (name, j) := entry
  let j := settings j
  match VersionRange.parse ((← under textOf j "version").getD "") with
  | .error e => .error (.malformed path (.dependency name e))
  | .ok range =>
    let target := (← under textOf j "target").getD "Package"
    let included ← flagsUnder j "include" .all
    let excluded ← flagsUnder j "exclude" .none
    return ⟨name, range, .ofText target, included.without excluded, ← flagsUnder j "suppressParent" .defaultPrivate⟩

/-- Reads the dependencies of a project or of one of its frameworks. -/
def strictDependencies (path : String) (j : Json) : Except Error (List Dependency) := do
  (← sectionUnder j "dependencies").mapM (strictDependency path)

/-- Reads what a project declares for a framework. -/
def strictTarget (path : String) (entry : String × Json) : Except Error FrameworkGroup := do
  let moniker ← readFramework path entry.1
  let imports := (← textsUnder entry.2 "imports").filterMap Moniker.parse?
  let dependencies ← strictDependencies path entry.2
  return ⟨.withImports moniker imports, dependencies, imports⟩

/-- Reads a reference to another project. -/
def strictReference (entry : String × Json) : Except Error ProjectReference := do
  let (name, j) := entry
  let path := (← filledUnder j "projectPath").getD name
  let included ← flagsUnder j "includeAssets" .all
  let excluded ← flagsUnder j "excludeAssets" .none
  return ⟨name, path, included, excluded, ← flagsUnder j "privateAssets" .defaultPrivate⟩

/-- Reads the project references for a framework. -/
def strictReferences (path : String) (targets : List FrameworkGroup) (entry : String × Json) :
    Except Error ReferenceGroup := do
  let moniker ← readFramework path entry.1
  let references ← (← sectionUnder entry.2 "projectReferences").mapM strictReference
  return ⟨declaredFramework targets moniker, references⟩

/-- The restore section of a project. -/
def strictSection (body : Json) : Except Error Json := return (← under pure body "restore").getD .empty

/-- Reads what is known about restoring a project from its restore section, given its references. -/
def strictMetadata (name : String) (j : Json) (references : List ReferenceGroup) : Except Error RestoreMetadata := do
  let path := (← filledUnder j "projectPath").getD name
  let style ← under textOf j "projectStyle"
  let uniqueName := (← filledUnder j "projectUniqueName").getD name
  let projectName := (← filledUnder j "projectName").getD (Path.stem path)
  let outputPath := (← under textOf j "outputPath").getD ""
  let projectJsonPath := (← under textOf j "projectJsonPath").getD ""
  let writtenFrameworks ← textsUnder j "originalTargetFrameworks"
  let crossTargeting := (← under flagOf j "crossTargeting").getD false
  let sources := (← sectionUnder j "sources").map (·.1)
  return {
    format := (style.bind ProjectFormat.ofName?).getD .packageReference
    uniqueName, projectPath := path, projectName, outputPath, projectJsonPath, targets := references
    writtenFrameworks, crossTargeting, sources }

/-- The runtimes and profiles of a project, if either section is there. -/
def strictRuntimeGraph (body : Json) : Except Error (Option RuntimeGraph) := do
  let members ← membersOf body
  if OrderedMap.contains members "runtimes" || OrderedMap.contains members "supports" then
    return some ⟨(← sectionUnder body "runtimes").map (·.1), (← sectionUnder body "supports").map (·.1)⟩
  else return none

/-- Reads a project. -/
def strictProject (path name : String) (body : Json) : Except Error PackageSpec := do
  let j ← strictSection body
  let targets ← (← sectionUnder body "frameworks").mapM (strictTarget path)
  let references ← (← sectionUnder j "frameworks").mapM (strictReferences path targets)
  let metadata ← strictMetadata name j references
  let runtimeGraph ← strictRuntimeGraph body
  let dependencies ← strictDependencies path body
  let version := (← under textOf body "version").getD PackageSpec.defaultVersion
  return ⟨metadata.projectName, metadata.projectPath, targets, dependencies, runtimeGraph, some metadata, version⟩

/-- Reads an entry of the projects section. -/
def strictEntry (path : String) (entry : String × Json) : Except Error (String × PackageSpec) :=
  return (entry.1, ← strictProject path entry.1 entry.2)

/-- Converts a document; it is to have projects. -/
def strictConvert (path : String) (j : Json) : Except Error DependencyGraph := do
  match ← under membersOf j "projects" with
  | none => .error (.fault .unknownName)
  | some projects =>
    let projects ← projects.mapM (strictEntry path)
    return ⟨projects, (← sectionUnder j "restore").map (·.1)⟩

/-- Reads a graph document, with a fault at every value of a wrong kind that its shape would let through. -/
def strictRead (path : String) (j : Json) : Except Error DependencyGraph :=
  match shape.firstViolation j with
  | some v =>
    .error (.malformed path (.schema (Text.join "/" (v.place.map Json.Step.text)) v.mismatch.message))
  | none => strictConvert path j

/-! ## Values of a shape -/

/-- Every item of a list of texts is a text. -/
theorem mapM_textOf_eq {items : List Json} (h : ∀ v ∈ items, Shape.text.conforms v = true) :
    items.mapM textOf = .ok (items.filterMap Json.text?) := by
  induction items with
  | nil => rfl
  | cons v items ih =>
    obtain ⟨hv, hitems⟩ := List.forall_mem_cons.1 h
    cases v with
    | text t => rw [List.mapM_cons, ih hitems]; rfl
    | _ => cases hv

section

variable {required : List String} {fields : List (String × Shape)} {others s : Shape} {j v : Json} {name : String}
variable (h : (Shape.record required fields others).conforms j = true)

include h

theorem exists_members_of_conforms : ∃ members, j = .object members := by
  cases j with
  | object members => exact ⟨members, rfl⟩
  | _ => simp [Shape.conforms] at h

/-- What is found under a name has the shape that the name calls for. -/
theorem conforms_of_get? (hf : (name, s) ∈ fields) (hv : j.get? name = some v) : s.conforms v = true := by
  obtain ⟨members, rfl⟩ := exists_members_of_conforms h
  rw [Shape.conforms, Bool.and_eq_true, Bool.and_eq_true, Shape.fieldsConform_iff] at h
  exact h.1.2 _ hf _ (OrderedMap.mem_of_get? hv) rfl

/-- A required member is there. -/
theorem exists_get?_of_conforms (name : String) (hname : name ∈ required) : ∃ v, j.get? name = some v := by
  obtain ⟨members, rfl⟩ := exists_members_of_conforms h
  rw [Shape.conforms, Bool.and_eq_true, Bool.and_eq_true, List.all_eq_true] at h
  rw [← Option.isSome_iff_exists, Json.get?, OrderedMap.isSome_get?]
  exact h.1.1 name hname

/-- What is read from the member under the name of a field, if values of its shape can be read. -/
theorem under_eq {α : Type} {read : Json → Except Error α} {value : Json → Option α}
    (hf : (name, s) ∈ fields)
    (hread : ∀ v, s.conforms v = true → ∃ a, read v = .ok a ∧ value v = some a) :
    under read j name = .ok ((j.get? name).bind value) := by
  have hfield : ∀ v, j.get? name = some v → s.conforms v = true := fun v => conforms_of_get? h hf
  obtain ⟨members, rfl⟩ := exists_members_of_conforms h
  rw [under, membersOf, Except.ok_bind, Json.get?]
  cases hv : OrderedMap.get? members name with
  | none => rfl
  | some v =>
    obtain ⟨a, ha, hvalue⟩ := hread v (hfield v hv)
    simp only [ha, Except.ok_bind, Except.pure_eq_ok, Option.bind_some, hvalue]

/-- A text is found where the shape calls for one. -/
theorem under_textOf_eq (name : String) (hf : (name, .text) ∈ fields) :
    under textOf j name = .ok (j.textAt? name) := by
  refine under_eq h hf fun v hv => ?_
  cases v with
  | text t => exact ⟨t, rfl, rfl⟩
  | _ => cases hv

/-- A truth value is found where the shape calls for one. -/
theorem under_flagOf_eq (name : String) (hf : (name, .scalar .flag) ∈ fields) :
    under flagOf j name = .ok ((j.get? name).bind fun | .bool b => some b | _ => none) := by
  refine under_eq h hf fun v hv => ?_
  cases v with
  | bool b => exact ⟨b, rfl, rfl⟩
  | _ => cases hv

/-- A section is found where the shape calls for one. -/
theorem under_membersOf_eq (name : String) (hf : (name, .mapOf s) ∈ fields) :
    under membersOf j name = .ok ((j.get? name).map Json.members) := by
  rw [Option.map_eq_bind]
  refine under_eq h hf fun v hv => ?_
  obtain ⟨members, rfl⟩ := exists_members_of_conforms hv
  exact ⟨members, rfl, rfl⟩

/-- Its entries are found, and none if it is missing. -/
theorem sectionUnder_eq (name : String) (hf : (name, .mapOf s) ∈ fields) :
    sectionUnder j name = .ok (entries j name) := by
  rw [sectionUnder, under_membersOf_eq h name hf]
  rfl

/-- Any object will do for a section of which the names alone count. -/
theorem sectionUnder_eq_of_object (name : String) (hf : (name, .object) ∈ fields) :
    sectionUnder j name = .ok (entries j name) :=
  sectionUnder_eq (s := .anything) h name hf

/-- A list of texts is found where the shape calls for one. -/
theorem textsUnder_eq (name : String) (hf : (name, .listOf .text) ∈ fields) :
    textsUnder j name = .ok ((((j.get? name).map Json.items).getD []).filterMap Json.text?) := by
  have hunder : under itemsOf j name = .ok ((j.get? name).bind fun v => some v.items) := by
    refine under_eq h hf fun v hv => ?_
    cases v with
    | list items => exact ⟨items, rfl, rfl⟩
    | _ => cases hv
  rw [textsUnder, hunder]
  cases hv : j.get? name with
  | none => rfl
  | some v =>
    have hconforms := conforms_of_get? h hf hv
    cases v with
    | list items =>
      rw [Shape.conforms, List.all_eq_true] at hconforms
      exact mapM_textOf_eq hconforms
    | _ => cases hconforms

/-- The members of a section have the shape of its members. -/
theorem conforms_of_mem_entries {e : String × Json} (hf : (name, .mapOf s) ∈ fields) (he : e ∈ entries j name) :
    s.conforms e.2 = true := by
  unfold entries at he
  cases hv : j.get? name with
  | none => simp [hv] at he
  | some v =>
    have hconforms := conforms_of_get? h hf hv
    obtain ⟨members, rfl⟩ := exists_members_of_conforms hconforms
    rw [hv] at he
    exact Shape.conforms_mapOf_iff.1 hconforms e he

/-- An empty text counts as missing, in both readings. -/
theorem filledUnder_eq (name : String) (hf : (name, .text) ∈ fields) :
    filledUnder j name = .ok (filled? j name) := by
  rw [filledUnder, under_textOf_eq h name hf]
  rfl

/-- Flags are read alike where they are texts. -/
theorem flagsUnder_eq (name : String) (hf : (name, .text) ∈ fields) (default : AssetFlags) :
    flagsUnder j name default = .ok (flags j name default) := by
  rw [flagsUnder, under_textOf_eq h name hf]
  rfl

end

/-! ## The conversion of documents with the shape -/

variable {path name : String} {body : Json} {e : String × Json}

/-- The settings of a dependency. -/
def dependencySettings : Shape :=
  .withFields [("target", .text), ("version", .text), ("include", .text), ("exclude", .text),
    ("suppressParent", .text)]

/-- The settings of a dependency have their shape, also where it is written as a version alone. -/
theorem conforms_settings {j : Json} (h : (Shape.either .text dependencySettings).conforms j = true) :
    dependencySettings.conforms (settings j) = true := by
  cases j with
  | text t => rfl
  | _ => simpa [settings, Shape.conforms, Json.isOf, Shape.text] using h

/-- A dependency of the right shape is read strictly as it is read. -/
theorem strictDependency_eq (h : (Shape.either .text dependencySettings).conforms e.2 = true) :
    strictDependency path e = readDependency path e := by
  have hs := conforms_settings h
  simp only [strictDependency, readDependency, under_textOf_eq hs "version" (by simp), Except.ok_bind]
  cases VersionRange.parse (((settings e.2).textAt? "version").getD "") with
  | error reason => rfl
  | ok range =>
    simp only [under_textOf_eq hs "target" (by simp), flagsUnder_eq hs "include" (by simp),
      flagsUnder_eq hs "exclude" (by simp), flagsUnder_eq hs "suppressParent" (by simp), Except.ok_bind,
      Except.pure_eq_ok]

/-- So are the dependencies of a section. -/
theorem strictDependencies_eq {required : List String} {fields : List (String × Shape)} {others : Shape} {j : Json}
    (h : (Shape.record required fields others).conforms j = true) (hf : ("dependencies", dependencies) ∈ fields) :
    strictDependencies path j = readDependencies path j := by
  rw [strictDependencies, sectionUnder_eq h "dependencies" hf, Except.ok_bind, readDependencies]
  exact Except.mapM_congr fun e he => strictDependency_eq (conforms_of_mem_entries h hf he)

/-- So is a target. -/
theorem strictTarget_eq (h : (Shape.withFields [("dependencies", dependencies), ("imports", .listOf .text)]).conforms
    e.2 = true) : strictTarget path e = readTarget path e := by
  rw [strictTarget, readTarget, textsUnder_eq h "imports" (by simp), strictDependencies_eq h (by simp)]
  rfl

/-- So is a reference to a project. -/
theorem strictReference_eq (h : projectReference.conforms e.2 = true) :
    strictReference e = .ok (readReference e) := by
  simp only [strictReference, filledUnder_eq h "projectPath" (by simp), flagsUnder_eq h "includeAssets" (by simp),
    flagsUnder_eq h "excludeAssets" (by simp), flagsUnder_eq h "privateAssets" (by simp), Except.ok_bind]
  rfl

/-- So are the references by framework. -/
theorem strictReferences_eq {targets : List FrameworkGroup}
    (h : (Shape.withFields [("projectReferences", .mapOf projectReference)]).conforms e.2 = true) :
    strictReferences path targets e = readReferences path targets e := by
  have hreferences : (entries e.2 "projectReferences").mapM strictReference =
      .ok ((entries e.2 "projectReferences").map readReference) :=
    Except.mapM_eq_ok_map fun r hr => strictReference_eq (conforms_of_mem_entries h (by simp) hr)
  rw [strictReferences, readReferences, sectionUnder_eq (s := projectReference) h "projectReferences" (by simp)]
  simp only [Except.ok_bind, hreferences]

/-- So is what is known about restoring a project. -/
theorem strictMetadata_eq {references : List ReferenceGroup} (h : restore.conforms (restoreSection body) = true) :
    strictMetadata name (restoreSection body) references = .ok (readMetadata name body references) := by
  simp only [strictMetadata, filledUnder_eq h "projectPath" (by simp), under_textOf_eq h "projectStyle" (by simp),
    filledUnder_eq h "projectUniqueName" (by simp), filledUnder_eq h "projectName" (by simp),
    under_textOf_eq h "outputPath" (by simp), under_textOf_eq h "projectJsonPath" (by simp),
    textsUnder_eq h "originalTargetFrameworks" (by simp), under_flagOf_eq h "crossTargeting" (by simp),
    sectionUnder_eq_of_object h "sources" (by simp), Except.ok_bind, Except.pure_eq_ok, readMetadata, projectPath]
  congr 2
  -- of the flag alone the two look at the value in different ways
  cases (restoreSection body).get? "crossTargeting" with
  | none => rfl
  | some v => cases v <;> rfl

/-- So are runtimes and profiles. -/
theorem strictRuntimeGraph_eq (h : project.conforms body = true) :
    strictRuntimeGraph body = .ok (readRuntimeGraph body) := by
  obtain ⟨members, rfl⟩ := exists_members_of_conforms h
  simp only [strictRuntimeGraph, membersOf, Except.ok_bind, sectionUnder_eq_of_object h "runtimes" (by simp),
    sectionUnder_eq_of_object h "supports" (by simp), readRuntimeGraph, Json.get?, OrderedMap.isSome_get?]
  split <;> rfl

/-- What is known about restoring a project is an object, or nothing is. -/
theorem strictSection_eq (h : project.conforms body = true) :
    strictSection body = .ok (restoreSection body) ∧ restore.conforms (restoreSection body) = true := by
  have hunder : under pure body "restore" = .ok ((body.get? "restore").bind some) :=
    under_eq (s := restore) h (by simp) fun v _ => ⟨v, rfl, rfl⟩
  refine ⟨?_, ?_⟩
  · rw [strictSection, hunder, Option.bind_fun_some]
    rfl
  · unfold restoreSection
    cases hv : body.get? "restore" with
    | none => rfl
    | some v => exact conforms_of_get? (s := restore) h (by simp) hv

/-- A project of the right shape is read strictly as it is read. -/
theorem strictProject_eq (h : project.conforms body = true) :
    strictProject path name body = readProject path name body := by
  -- every section of the project has the shape in which it is looked for
  obtain ⟨hsection, hrestore⟩ := strictSection_eq h
  have hframeworks : sectionUnder body "frameworks" = .ok (entries body "frameworks") :=
    sectionUnder_eq (s := .withFields [("dependencies", dependencies), ("imports", .listOf .text)]) h _ (by simp)
  have htargets : (entries body "frameworks").mapM (strictTarget path) =
      (entries body "frameworks").mapM (readTarget path) :=
    Except.mapM_congr fun e he => strictTarget_eq (conforms_of_mem_entries h (by simp) he)
  have hrestored : sectionUnder (restoreSection body) "frameworks" =
      .ok (entries (restoreSection body) "frameworks") :=
    sectionUnder_eq (s := .withFields [("projectReferences", .mapOf projectReference)]) hrestore _ (by simp)
  have hreferences : ∀ targets, (entries (restoreSection body) "frameworks").mapM (strictReferences path targets) =
      (entries (restoreSection body) "frameworks").mapM (readReferences path targets) := fun targets =>
    Except.mapM_congr fun e he => strictReferences_eq (conforms_of_mem_entries hrestore (by simp) he)
  simp only [strictProject, readProject, readGroups, hsection, hframeworks, htargets, hrestored, hreferences,
    strictMetadata_eq hrestore, strictRuntimeGraph_eq h, strictDependencies_eq h (by simp),
    under_textOf_eq h "version" (by simp), Except.ok_bind, bind_assoc, pure_bind]
  rfl

/-- A document of the right shape is read strictly as it is read. -/
theorem strictConvert_eq {j : Json} (h : shape.conforms j = true) : strictConvert path j = convert path j := by
  have hprojects : (entries j "projects").mapM (strictEntry path) = (entries j "projects").mapM (readEntry path) :=
    Except.mapM_congr fun e he => by
      rw [strictEntry, strictProject_eq (conforms_of_mem_entries h (by simp) he)]
      rfl
  -- the section of the projects is the only one that has to be there
  obtain ⟨v, hv⟩ := exists_get?_of_conforms h "projects" (by simp)
  have hunder : under membersOf j "projects" = .ok (some (entries j "projects")) := by
    rw [under_membersOf_eq (s := project) h "projects" (by simp), entries, hv]
    rfl
  simp only [strictConvert, convert, hunder, hprojects, sectionUnder_eq_of_object h "restore" (by simp),
    Except.ok_bind]

/-- Reading a graph document never comes to a value of a wrong kind. -/
theorem strictRead_eq (path : String) (j : Json) : strictRead path j = read path j := by
  unfold strictRead read
  cases hv : shape.firstViolation j with
  | some v => rfl
  | none => exact strictConvert_eq (Shape.firstViolation_eq_none_iff.1 hv)

/-- Without the check of the shape there is a fault where a project is no object, which by itself counts as empty. -/
example : strictConvert "" (.object [("projects", .object [("A", .null)])]) = .error (.fault .wrongKind) := rfl

end DependencyGraph.Document
end PackageGraph
