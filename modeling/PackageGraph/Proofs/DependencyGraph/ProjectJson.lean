import PackageGraph.PackageSpec.ProjectJson
import PackageGraph.Proofs.AssetFlags
import PackageGraph.Proofs.DependencyGraph.Acceptance
import PackageGraph.Proofs.Text.Blank
/-!
# Project files and projects of a graph

A project of a graph document is written in the sections of a project file, and two readers take it: one looks at the
kind of each value, the other relies on the shape of the document. On a project without a restore section whose
dependencies have no type the two find the same dependencies, target frameworks and runtimes, or refuse it with the same
defect.
-/
namespace PackageGraph

/-! ## JSON as dynamic values -/

namespace Json

/-- Items become values one by one. -/
theorem toValues_eq_map (items : List Json) : toValues items = items.map toValue := by
  induction items with
  | nil => rfl
  | cons j items ih => rw [toValues, ih, List.map_cons]

/-- Members become entries one by one, and their names texts. -/
theorem toEntries_eq_map (members : List (String × Json)) :
    toEntries members = members.map fun m => (.text m.1, toValue m.2) := by
  induction members with
  | nil => rfl
  | cons m members ih => rw [toEntries, ih, List.map_cons]

/-- A member is found under its name in the value as in the document. -/
theorem get?_toValue (j : Json) (name : String) : j.toValue.get? name = (j.get? name).map toValue := by
  cases j with
  | object members =>
    rw [toValue, toEntries_eq_map, Value.get?, Json.get?]
    induction members with
    | nil => rfl
    | cons m members ih =>
      obtain ⟨key, j⟩ := m
      rw [OrderedMap.get?_cons, List.map_cons]
      by_cases hkey : key = name
      · simp [hkey]
      · simpa [hkey] using ih
  | _ => rfl

/-- Only objects have members, as JSON and as values. -/
theorem members_toValue (j : Json) :
    (j.toValue.members).getD [] = j.members.map fun m => (m.1, m.2.toValue) := by
  cases j with
  | object members =>
    rw [toValue, toEntries_eq_map, Value.members, Option.getD_some, List.filterMap_map]
    exact congrFun List.filterMap_eq_map members
  | _ => rfl

end Json

/-! ## Names of frameworks -/

/-- White space around the name of a framework does not count. -/
theorem Moniker.parse?_trim (text : String) : Moniker.parse? (Text.trim text) = Moniker.parse? text := by
  unfold Moniker.parse? Text.trim
  rw [String.toList_ofList, Text.trimChars_trimChars]

/-- Blank entries name no framework, and blanks around an entry do not matter. -/
theorem Moniker.filterMap_parse?_trim (texts : List String) :
    ((texts.map Text.trim).filter fun t => !t.isEmpty).filterMap Moniker.parse? = texts.filterMap Moniker.parse? := by
  rw [List.filterMap_filter, List.filterMap_map]
  refine List.filterMap_congr fun text _ => ?_
  show (if !(Text.trim text).isEmpty then Moniker.parse? (Text.trim text) else none) = _
  split
  · exact Moniker.parse?_trim text
  · rename_i hblank
    have hempty : Text.trim text = "" := by simpa using hblank
    rw [← Moniker.parse?_trim, hempty]
    rfl

namespace DependencyGraph.Document

open Json (Shape)

variable {path name : String} {body j : Json} {e : String × Json}

/-! ## Sections -/

/-- The entries of a section are those of the document, as values. -/
theorem section_toValue (j : Json) (name : String) :
    (((j.toValue.get? name).bind Value.members).getD []) = (entries j name).map fun e => (e.1, e.2.toValue) := by
  rw [Json.get?_toValue, entries]
  cases j.get? name with
  | none => rfl
  | some v => exact Json.members_toValue v

section

variable {required : List String} {fields : List (String × Shape)} {others s : Shape}
variable (h : (Shape.record required fields others).conforms j = true)

include h

/-- The field of a text is a text, if it is there. -/
theorem get?_toValue_of_text (name : String) (hf : (name, .text) ∈ fields) :
    j.toValue.get? name = (j.textAt? name).map Value.text := by
  rw [Json.get?_toValue, Json.textAt?]
  cases hv : j.get? name with
  | none => rfl
  | some v =>
    have hconforms := conforms_of_get? h hf hv
    cases v with
    | text t => rfl
    | _ => cases hconforms

/-- Flags that are texts are read alike. -/
theorem flags_toValue (name : String) (hf : (name, .text) ∈ fields) (default : AssetFlags) :
    PackageSpec.ProjectJson.flags j.toValue name default = .ok (flags j name default) := by
  rw [PackageSpec.ProjectJson.flags, get?_toValue_of_text h name hf, flags]
  cases j.textAt? name <;> rfl

/-- A range that is a text is read as it would be in a graph document. -/
theorem range_toValue (hf : ("version", .text) ∈ fields) :
    PackageSpec.ProjectJson.range path name (j.toValue.get? "version") =
      (VersionRange.parse ((j.textAt? "version").getD "")).mapError fun reason =>
        .malformed path (.dependency name reason) := by
  rw [get?_toValue_of_text h "version" hf]
  cases j.textAt? "version" <;> rfl

/-- Without a kind a dependency is a package. -/
theorem isNamed_target_toValue (hf : ("target", .text) ∈ fields) :
    PackageSpec.ProjectJson.isNamed j.toValue "target" "project" =
      (Text.lower ((j.textAt? "target").getD "Package") == "project") := by
  rw [PackageSpec.ProjectJson.isNamed, get?_toValue_of_text h "target" hf]
  cases j.textAt? "target" with
  | none => decide
  | some t => rfl

/-- The keys of a section that is an object. -/
theorem sectionKeys_toValue (name : String) (hf : (name, .object) ∈ fields) :
    PackageSpec.ProjectJson.sectionKeys j.toValue name =
      if (j.get? name).isSome then some ((entries j name).map (·.1)) else none := by
  rw [PackageSpec.ProjectJson.sectionKeys, Json.get?_toValue, entries]
  cases hv : j.get? name with
  | none => rfl
  | some v =>
    obtain ⟨members, rfl⟩ := exists_members_of_conforms (conforms_of_get? h hf hv)
    have hmembers := Json.members_toValue (.object members)
    rw [Json.toValue, Value.members, Option.getD_some, Json.members] at hmembers
    rw [Option.map_some, Option.bind_some, Json.toValue, Value.members, hmembers, Option.map_some, List.map_map]
    rfl

end

/-! ## Dependencies -/

/-- The settings of a dependency do not give it a type. -/
def IsUntyped (j : Json) : Prop := ∀ e ∈ entries j "dependencies", e.2.get? "type" = none

/-- A dependency with settings is read in order: its range, and then its flags, which are texts. -/
theorem detailed_toValue (h : dependencySettings.conforms j = true) (htype : j.get? "type" = none) :
    PackageSpec.ProjectJson.detailed path name j.toValue =
      (VersionRange.parse ((j.textAt? "version").getD "")).mapError (fun reason =>
        .malformed path (.dependency name reason)) >>= fun range =>
        .ok ⟨name, range, .ofText ((j.textAt? "target").getD "Package"),
          (flags j "include" .all).without (flags j "exclude" .none), flags j "suppressParent" .defaultPrivate⟩ := by
  have hbuild : PackageSpec.ProjectJson.isNamed j.toValue "type" "build" = false := by
    rw [PackageSpec.ProjectJson.isNamed, Json.get?_toValue, htype]
    rfl
  simp only [PackageSpec.ProjectJson.detailed, flags_toValue h "include" (by simp), flags_toValue h "exclude" (by simp),
    flags_toValue h "suppressParent" (by simp), range_toValue h (by simp), isNamed_target_toValue h (by simp), hbuild,
    Except.ok_bind, Except.pure_eq_ok, LibraryKind.ofText, beq_iff_eq, Bool.false_eq_true, if_false]

/-- A dependency is read by reading its version. -/
theorem readDependency_eq (j : Json) : readDependency path (name, j) =
    (VersionRange.parse (((settings j).textAt? "version").getD "")).mapError (fun reason =>
      .malformed path (.dependency name reason)) >>= fun range =>
      .ok ⟨name, range, .ofText (((settings j).textAt? "target").getD "Package"),
        (flags (settings j) "include" .all).without (flags (settings j) "exclude" .none),
        flags (settings j) "suppressParent" .defaultPrivate⟩ := by
  simp only [readDependency]
  cases VersionRange.parse (((settings j).textAt? "version").getD "") <;> rfl

/-- A dependency that is written as its version alone has the settings that another has by default. -/
theorem dependency_text (s : String) :
    PackageSpec.ProjectJson.dependency path (name, .text s) = readDependency path (name, .text s) := by
  have hkind : LibraryKind.ofText "Package" = .package := by decide
  rw [readDependency_eq]
  show ((VersionRange.parse s).mapError _).map (Dependency.ofRange name) =
    (VersionRange.parse s).mapError _ >>= fun range =>
      .ok ⟨name, range, .ofText "Package", AssetFlags.all.without .none, .defaultPrivate⟩
  rw [hkind, AssetFlags.without_none]
  cases VersionRange.parse s <;> rfl

/-- A dependency is read alike from a description and from a graph document, unless it states a type. -/
theorem dependency_toValue (h : (Shape.either .text dependencySettings).conforms e.2 = true)
    (htype : e.2.get? "type" = none) :
    PackageSpec.ProjectJson.dependency path (e.1, e.2.toValue) = readDependency path e := by
  obtain ⟨name, j⟩ := e
  cases j with
  | text s => exact dependency_text s
  | object members =>
    exact (detailed_toValue (conforms_settings h) htype).trans (readDependency_eq (.object members)).symm
  | _ => simp [Shape.conforms, Json.isOf, Shape.text, dependencySettings, Shape.withFields] at h

/-- So are the dependencies of a section. -/
theorem dependencies_toValue {required : List String} {fields : List (String × Shape)} {others : Shape}
    (h : (Shape.record required fields others).conforms j = true) (hf : ("dependencies", dependencies) ∈ fields)
    (htype : IsUntyped j) :
    PackageSpec.ProjectJson.dependencies path (j.toValue.get? "dependencies") = readDependencies path j := by
  rw [PackageSpec.ProjectJson.dependencies, section_toValue, List.mapM_map, readDependencies]
  exact Except.mapM_congr fun e he => dependency_toValue (conforms_of_mem_entries h hf he) (htype e he)

/-! ## Target frameworks -/

/-- What a project declares for a framework. -/
def targetBody : Shape := .withFields [("dependencies", dependencies), ("imports", .listOf .text)]

/-- Of a list of texts those are kept that are not blank. -/
theorem texts_toValue {items : List Json} (h : ∀ v ∈ items, Shape.text.conforms v = true) :
    PackageSpec.ProjectJson.texts (Json.list items).toValue =
      ((items.filterMap Json.text?).map Text.trim).filter fun t => !t.isEmpty := by
  rw [Json.toValue, Json.toValues_eq_map, PackageSpec.ProjectJson.texts]
  congr 1
  induction items with
  | nil => rfl
  | cons v items ih =>
    obtain ⟨hv, hitems⟩ := List.forall_mem_cons.1 h
    cases v with
    | text t => exact congrArg (Text.trim t :: ·) (ih hitems)
    | _ => cases hv

/-- The frameworks to fall back to are the same, though only the one reader trims their names. -/
theorem imports_toValue (h : targetBody.conforms j = true) :
    (((j.toValue.get? "imports").map PackageSpec.ProjectJson.texts).getD []).filterMap Moniker.parse? =
      readImports j := by
  rw [Json.get?_toValue, readImports]
  cases hv : j.get? "imports" with
  | none => rfl
  | some v =>
    have hconforms : (Shape.listOf .text).conforms v = true := conforms_of_get? h (by simp) hv
    cases v with
    | list items =>
      have hitems : ∀ v ∈ items, Shape.text.conforms v = true := by
        simpa [Shape.conforms] using hconforms
      show (PackageSpec.ProjectJson.texts (Json.list items).toValue).filterMap Moniker.parse? =
        (items.filterMap Json.text?).filterMap Moniker.parse?
      rw [texts_toValue hitems, Moniker.filterMap_parse?_trim]
    | _ => cases hconforms

/-- A target is read alike, with its imports. -/
theorem target_toValue (h : targetBody.conforms e.2 = true) (htype : IsUntyped e.2) :
    PackageSpec.ProjectJson.target path (e.1, e.2.toValue) = readTarget path e := by
  simp only [PackageSpec.ProjectJson.target, readTarget, readFramework, imports_toValue h,
    dependencies_toValue h (by simp) htype]
  cases Moniker.parse? e.1 <;> rfl

/-- Runtimes and profiles are read alike. -/
theorem runtimeGraph_toValue (h : project.conforms body = true) :
    PackageSpec.ProjectJson.runtimeGraph body.toValue = readRuntimeGraph body := by
  rw [PackageSpec.ProjectJson.runtimeGraph, sectionKeys_toValue h "runtimes" (by simp),
    sectionKeys_toValue h "supports" (by simp), readRuntimeGraph]
  cases hruntimes : body.get? "runtimes" <;> cases hsupports : body.get? "supports" <;>
    simp [entries, hruntimes, hsupports]

/-! ## Projects -/

/-- No dependency of the project, for all frameworks or for one of them, has a type. -/
def ProjectIsUntyped (body : Json) : Prop := ∀ j ∈ body :: (entries body "frameworks").map (·.2), IsUntyped j

instance (body : Json) : Decidable (ProjectIsUntyped body) :=
  inferInstanceAs (Decidable (∀ j ∈ body :: (entries body "frameworks").map (·.2),
    ∀ e ∈ entries j "dependencies", e.2.get? "type" = none))

/-- A project file and a graph with one project are read alike: they have the same dependencies, target frameworks
and runtimes, or the same defect. -/
inductive ReadAlike (path name : String) : Except Error PackageSpec → Except Error DependencyGraph → Prop
  | read {file project : PackageSpec} {roots : List String} (hdependencies : file.dependencies = project.dependencies)
    (htargets : file.targets = project.targets) (hruntimes : file.runtimeGraph = project.runtimeGraph) :
    ReadAlike path name (.ok file) (.ok ⟨[(name, project)], roots⟩)
  | refused (defect : Defect) :
    ReadAlike path name (.error (.malformed path defect)) (.error (.malformed path defect))

/-- Without a restore section a project has no references, and its frameworks come before its dependencies. -/
theorem readProject_of_no_restore (hrestore : body.get? "restore" = none) :
    readProject path name body = (entries body "frameworks").mapM (readTarget path) >>= fun targets =>
      readDependencies path body >>= fun dependencies =>
        .ok ⟨(readMetadata name body []).projectName, projectPath name body, targets, dependencies,
          readRuntimeGraph body, some (readMetadata name body []),
          (body.textAt? "version").getD PackageSpec.defaultVersion⟩ := by
  have hreferences : entries (restoreSection body) "frameworks" = [] := by
    rw [restoreSection, hrestore]
    rfl
  simp only [readProject, readGroups, hreferences, List.mapM_nil, bind_assoc, pure_bind]
  rfl

/-- A description is read as the parts of the project in a graph document. -/
theorem projectJson_read_toValue (title : String) (h : project.conforms body = true)
    (huntyped : ProjectIsUntyped body) :
    PackageSpec.ProjectJson.read title path body.toValue =
      (entries body "frameworks").mapM (readTarget path) >>= fun targets =>
        readDependencies path body >>= fun dependencies =>
          .ok ⟨title, path, targets, dependencies, readRuntimeGraph body, none,
            PackageSpec.ProjectJson.version body.toValue⟩ := by
  obtain ⟨hbody, hframeworks⟩ := List.forall_mem_cons.1 huntyped
  have htargets : ((entries body "frameworks").map fun e => (e.1, e.2.toValue)).mapM
      (PackageSpec.ProjectJson.target path) = (entries body "frameworks").mapM (readTarget path) := by
    rw [List.mapM_map]
    refine Except.mapM_congr fun e he => target_toValue ?_ (hframeworks e.2 (List.mem_map_of_mem he))
    exact conforms_of_mem_entries (s := targetBody) h (by simp [targetBody]) he
  rw [PackageSpec.ProjectJson.read, section_toValue, htargets, dependencies_toValue h (by simp) hbody,
    runtimeGraph_toValue h]
  rfl

/-- A document with one project is read by reading the project. -/
theorem read_of_sole_project (hj : shape.conforms j = true)
    (hprojects : j.get? "projects" = some (.object [(name, body)])) :
    read path j = (readProject path name body).map fun s => ⟨[(name, s)], (entries j "restore").map (·.1)⟩ := by
  have hentries : entries j "projects" = [(name, body)] := by
    rw [entries, hprojects]
    rfl
  rw [read, Json.Shape.firstViolation_eq_none_iff.2 hj]
  simp only [convert, hentries, List.mapM_cons, List.mapM_nil, readEntry]
  cases readProject path name body <;> rfl

/-- A document with one project conforms if the project does. -/
theorem conforms_sole_project (name : String) (h : project.conforms body = true) :
    shape.conforms (.object [("projects", .object [(name, body)])]) = true := by
  have hprojects : (Shape.mapOf project).conforms (.object [(name, body)]) = true :=
    Json.Shape.conforms_mapOf_iff.2 (by simpa using h)
  simp [shape, Shape.conforms, Shape.fieldsConform, OrderedMap.contains, hprojects]

/-- A project without a restore section, whose dependencies have no type, is read alike from a file of its own and
as the only project of a document. -/
theorem sole_project_read_alike (path name title : String) (hbody : project.conforms body = true)
    (hrestore : body.get? "restore" = none) (huntyped : ProjectIsUntyped body) :
    shape.conforms (.object [("projects", .object [(name, body)])]) = true ∧
    ∀ j, shape.conforms j = true → j.get? "projects" = some (.object [(name, body)]) →
      ReadAlike path name (PackageSpec.ProjectJson.read title path body.toValue) (read path j) := by
  refine ⟨conforms_sole_project name hbody, fun j hj hprojects => ?_⟩
  have hfails : Except.FailsOnlyWith (IsRefusal path) (readProject path name body) :=
    readProject_failsOnlyWith name body
  rw [read_of_sole_project hj hprojects, projectJson_read_toValue title hbody huntyped]
  rw [readProject_of_no_restore hrestore] at hfails ⊢
  -- both readers go through the targets first and the dependencies then, so that they stop at the same place
  cases htargets : (entries body "frameworks").mapM (readTarget path) with
  | error e =>
    obtain ⟨defect, rfl⟩ := hfails e (by rw [htargets]; rfl)
    exact .refused defect
  | ok targets =>
    simp only [htargets, Except.ok_bind] at hfails ⊢
    cases hdependencies : readDependencies path body with
    | error e =>
      obtain ⟨defect, rfl⟩ := hfails e (by rw [hdependencies]; rfl)
      exact .refused defect
    | ok dependencies => exact .read rfl rfl rfl

/-- A project with dependencies of either form, and with a framework that falls back to another. -/
def sampleProject : Json :=
  .object [
    ("dependencies", .object [("A", .text "1.0"), ("B", .object [("version", .text "[1.0, 2.0)"),
      ("target", .text "project"), ("exclude", .text "build;native")])]),
    ("frameworks", .object [("net48", .object [("imports", .list [.text " dnxcore50 ", .text " "]),
      ("dependencies", .object [("C", .object [("include", .text "compile")])])])]),
    ("supports", .object [("uwp.10.0", .null)])]

/-- A project with a dependency for every framework and one for a single framework. -/
theorem sole_project_read_alike_sampleProject :
    project.conforms sampleProject = true ∧ sampleProject.get? "restore" = none ∧ ProjectIsUntyped sampleProject ∧
    (read "g.dg" (.object [("projects", .object [("App", sampleProject)])])).isOk = true ∧
    ReadAlike "g.dg" "App" (PackageSpec.ProjectJson.read "App" "g.dg" sampleProject.toValue)
      (read "g.dg" (.object [("projects", .object [("App", sampleProject)])])) := by
  have hproject : project.conforms sampleProject = true := by decide
  have hrestore : sampleProject.get? "restore" = none := rfl
  have huntyped : ProjectIsUntyped sampleProject := by decide
  have halike := sole_project_read_alike "g.dg" "App" "App" hproject hrestore huntyped
  refine ⟨hproject, hrestore, huntyped, ?_, ?_⟩
  · decide +kernel
  · exact halike.2 _ halike.1 rfl

end DependencyGraph.Document
end PackageGraph
