import PackageGraph.Aggregate.Basic
import PackageGraph.Json.Writer
import PackageGraph.Proofs.Except
/-!
# Only the description that counts

A project is normalized by the first of its descriptions that exists, and its target frameworks come from the first
source that says something. What stands in a later description or in a later source has no influence: two providers
that agree on what counts give the same outcome, errors included.
-/
namespace PackageGraph

/-! ## Inquiries into two sets of properties -/

namespace Inquiry

variable {α β : Type} {p q : String → String}

/-- The inquiry asks the same questions in both and results in the same. -/
def Agrees (p q : String → String) (x : Inquiry α) : Prop := x.run p = x.run q ∧ x.asked p = x.asked q

theorem agrees_pure (a : α) : Agrees p q (pure a : Inquiry α) := ⟨rfl, rfl⟩

theorem agrees_property {name : String} (h : p name = q name) : Agrees p q (property name) := ⟨h, rfl⟩

/-- Only the inquiry that really follows has to agree. -/
theorem Agrees.bind {x : Inquiry α} {f : α → Inquiry β} (hx : Agrees p q x) (hf : Agrees p q (f (x.run p))) :
    Agrees p q (x >>= f) := by
  obtain ⟨hrun, hasked⟩ := hx
  constructor
  · rw [run_bind, run_bind, ← hrun]
    exact hf.1
  · rw [asked_bind, asked_bind, ← hrun, hasked, hf.2]

end Inquiry

namespace Specification

open Inquiry

/-! ## Sources of target frameworks -/

/-- The properties that a framework is made up of when a project has no newer ones: its full name, or its parts. -/
def legacySources : List (List String) :=
  [["TargetFrameworkMoniker"], ["TargetFrameworkVersion", "TargetFrameworkIdentifier", "TargetFrameworkProfile"]]

/-- The properties that say what a project targets, the one that counts before the others first. -/
def frameworkSources : List (List String) :=
  ["TargetFramework"] :: ["TargetFrameworks"] :: ["NuGetTargetFramework"] :: legacySources

/-- The properties agree on every source up to the first that is not empty. -/
def AgreeUpToFirst (p q : String → String) : List (List String) → Prop
  | [] => True
  | source :: later =>
    (∀ name ∈ source, p name = q name) ∧ ((∀ name ∈ source, p name = "") → AgreeUpToFirst p q later)

variable {p q : String → String}

/-- A source of one property decides if it is not empty, and otherwise those after it do. -/
theorem AgreeUpToFirst.agrees_first {α : Type} {name : String} {later : List (List String)}
    (h : AgreeUpToFirst p q ([name] :: later)) {first : String → Inquiry α} {x : Inquiry α}
    (hfirst : ∀ value, Agrees p q (first value)) (hx : AgreeUpToFirst p q later → Agrees p q x) :
    Agrees p q (property name >>= fun value => if !value.isEmpty then first value else x) := by
  have hname : p name = q name := h.1 name (List.mem_singleton_self name)
  refine (agrees_property hname).bind ?_
  rw [run_property]
  -- the property agrees, so both inquiries go the same way
  split
  · exact hfirst _
  · rename_i hempty
    refine hx (h.2 fun other hother => ?_)
    rw [List.mem_singleton.1 hother]
    simpa using hempty

/-- The framework of a project that lists its packages depends on what was asked up to the first answer. -/
theorem agrees_legacyFramework (h : AgreeUpToFirst p q legacySources) : Agrees p q legacyFramework := by
  refine h.agrees_first (fun moniker => agrees_pure moniker) fun h => ?_
  obtain ⟨hparts, -⟩ := h
  refine (agrees_property (hparts _ (by simp))).bind ?_
  split
  · -- without a version the identifier and the profile are not asked for
    exact agrees_pure ""
  · refine (agrees_property (hparts _ (by simp))).bind ?_
    exact (agrees_property (hparts _ (by simp))).bind (agrees_pure _)

/-- So do the frameworks of a project with package references. -/
theorem agrees_targetFrameworks (h : AgreeUpToFirst p q frameworkSources) : Agrees p q targetFrameworks := by
  refine h.agrees_first (fun one => agrees_pure _) fun h => ?_
  refine h.agrees_first (fun many => agrees_pure _) fun h => ?_
  refine h.agrees_first (fun named => agrees_pure _) fun h => ?_
  exact (agrees_legacyFramework h).bind (agrees_pure _)

/-! ## Specifications from what counts -/

/-- The specification of a listing depends on the properties that name its framework, up to the first that does. -/
theorem agrees_ofPackagesConfig (project : String) (references : List String) (h : AgreeUpToFirst p q legacySources) :
    Agrees p q (ofPackagesConfig project references) :=
  (agrees_legacyFramework h).bind (agrees_pure _)

/-- The data of a project agree on what counts beside a list of packages. -/
structure AgreeBesideListing (data data' : ProjectData) : Prop where
  references : data.references = data'.references
  frameworks : AgreeUpToFirst data.property data'.property legacySources

/-- The data of a project agree on everything but sources of target frameworks that do not count. -/
structure AgreeOnReferences (data data' : ProjectData) : Prop where
  items : data.items = data'.items
  properties : ∀ name, name ∉ frameworkSources.flatten → data.property name = data'.property name
  frameworks : AgreeUpToFirst data.property data'.property frameworkSources

variable {data data' : ProjectData}

/-- Every property that names no framework is answered alike. -/
theorem AgreeOnReferences.agrees_property (h : AgreeOnReferences data data') {name : String}
    (hname : name ∉ frameworkSources.flatten) : Agrees data.property data'.property (.property name) :=
  Inquiry.agrees_property (h.properties name hname)

/-- Runtimes are asked for by properties that name no framework. -/
theorem AgreeOnReferences.agrees_runtimeGraph (h : AgreeOnReferences data data') :
    Agrees data.property data'.property runtimeGraph := by
  refine (h.agrees_property (by decide)).bind ?_
  refine (h.agrees_property (by decide)).bind ?_
  exact (h.agrees_property (by decide)).bind (agrees_pure _)

/-- The specification of package references depends on the data that count for it. -/
theorem AgreeOnReferences.agrees_ofPackageReferences (h : AgreeOnReferences data data') (cwd project : String) :
    Agrees data.property data'.property (ofPackageReferences cwd project data) := by
  unfold ofPackageReferences
  dsimp only
  split
  · exact agrees_pure none
  · refine (agrees_targetFrameworks h.frameworks).bind ?_
    split
    · exact agrees_pure none
    · refine (h.agrees_property (by decide)).bind ?_
      refine (h.agrees_property (by decide)).bind ?_
      exact h.agrees_runtimeGraph.bind (agrees_pure _)

end Specification

/-! ## Files that are read -/

namespace FileSystem

variable {fs fs' : FileSystem} {path : String}

/-- A path leads to a file exactly if it can be read. -/
theorem isFile_eq_isOk_read (fs : FileSystem) (path : String) : fs.isFile path = (fs.read path).isOk := by
  unfold isFile read
  cases fs.lookUp path with
  | error f => rfl
  | ok node => cases node <;> rfl

theorem isFile_congr (h : fs.read path = fs'.read path) : fs.isFile path = fs'.isFile path := by
  rw [isFile_eq_isOk_read, isFile_eq_isOk_read, h]

end FileSystem

/-- A listing depends on the content of its file alone. -/
theorem PackageRecord.read_congr {fs fs' : FileSystem} {path : String} (h : fs.read path = fs'.read path) :
    PackageRecord.read fs path = PackageRecord.read fs' path := by
  simp only [PackageRecord.read, FileSystem.isFile_congr h, FileSystem.readDocument, h]

/-- A description in JSON depends on the content of its file alone. -/
theorem ProjectJsonFile.read_congr {fs fs' : FileSystem} {path : String} (h : fs.read path = fs'.read path) :
    ProjectJsonFile.read fs path = ProjectJsonFile.read fs' path := by
  simp only [ProjectJsonFile.read, FileSystem.isFile_congr h, FileSystem.readJson, h]

/-! ## The outcome of a project -/

namespace ProjectOutcome

variable {fs fs' : FileSystem} {provider provider' : ProjectProvider} {project : String}

/-- Loading the project ends with the same error, or with data that are related. -/
def LoadedAlike (R : ProjectData → ProjectData → Prop) (provider provider' : ProjectProvider) (project : String) :
    Prop :=
  Except.Related R (provider.load project).result (provider'.load project).result

/-- Two providers agree on the description of a project that counts. -/
inductive AgreeOnDescription (fs fs' : FileSystem) (provider provider' : ProjectProvider) (project : String) :
    Prop where
  /-- Packages are listed in a file, the same in both, and the legacy properties and the references agree. -/
  | byListing
    (listed : provider.exists? (beside project ProjectDescriptor.packagesConfigName) = .ok true)
    (listed' : provider'.exists? (beside project ProjectDescriptor.packagesConfigName) = .ok true)
    (content : fs.read (beside project ProjectDescriptor.packagesConfigName) =
      fs'.read (beside project ProjectDescriptor.packagesConfigName))
    (data : LoadedAlike Specification.AgreeBesideListing provider provider' project)
  /-- No packages are listed, the project is described in JSON, in the same way in both, and the references agree. -/
  | byDescription
    (unlisted : provider.exists? (beside project ProjectDescriptor.packagesConfigName) = .ok false)
    (unlisted' : provider'.exists? (beside project ProjectDescriptor.packagesConfigName) = .ok false)
    (described : provider.exists? (beside project ProjectDescriptor.projectJsonName) = .ok true)
    (described' : provider'.exists? (beside project ProjectDescriptor.projectJsonName) = .ok true)
    (content : fs.read (beside project ProjectDescriptor.projectJsonName) =
      fs'.read (beside project ProjectDescriptor.projectJsonName))
    (data : LoadedAlike (fun data data' => data.references = data'.references) provider provider' project)
  /-- There is neither file, and the items, the properties that are no source of target frameworks, and the sources up to
  the first that is not empty agree. -/
  | byReferences
    (unlisted : provider.exists? (beside project ProjectDescriptor.packagesConfigName) = .ok false)
    (unlisted' : provider'.exists? (beside project ProjectDescriptor.packagesConfigName) = .ok false)
    (undescribed : provider.exists? (beside project ProjectDescriptor.projectJsonName) = .ok false)
    (undescribed' : provider'.exists? (beside project ProjectDescriptor.projectJsonName) = .ok false)
    (directory : fs.workingDirectory = fs'.workingDirectory)
    (data : LoadedAlike Specification.AgreeOnReferences provider provider' project)

/-- A project with a listing depends on the listing and on the data that count beside one. -/
theorem result_ofPackagesConfig_congr {config : String} (hcontent : fs.read config = fs'.read config)
    (hdata : LoadedAlike Specification.AgreeBesideListing provider provider' project) :
    (ofPackagesConfig fs provider project config).result = (ofPackagesConfig fs' provider' project config).result := by
  simp only [ofPackagesConfig, Logged.result_bind, Logged.result_pure, PackageRecord.read_congr hcontent]
  congr 1
  funext records
  refine hdata.bind_eq fun data data' h => ?_
  obtain ⟨hrun, hasked⟩ := Specification.agrees_ofPackagesConfig project data.references h.frameworks
  rw [hrun, hasked, h.references]

/-- A project with a description depends on it and on the references to other projects. -/
theorem result_ofProjectJson_congr {description : String} (hcontent : fs.read description = fs'.read description)
    (hdata : LoadedAlike (fun data data' => data.references = data'.references) provider provider' project) :
    (ofProjectJson fs provider project description).result =
      (ofProjectJson fs' provider' project description).result := by
  simp only [ofProjectJson, Logged.result_bind, ProjectJsonFile.read_congr hcontent]
  congr 1
  funext value?
  cases value? with
  | none => rfl -- nothing is loaded for a description that is not there
  | some value =>
    simp only [Logged.result_bind]
    congr 1
    funext described
    refine hdata.bind_eq fun data data' hreferences => ?_
    rw [hreferences]

/-- A project without either depends on its data. -/
theorem result_ofPackageReferences_congr (cwd : String)
    (hdata : LoadedAlike Specification.AgreeOnReferences provider provider' project) :
    (ofPackageReferences cwd provider project).result = (ofPackageReferences cwd provider' project).result := by
  simp only [ofPackageReferences, Logged.result_bind, Logged.result_pure, Logged.result_logAll, Logged.result_ofExcept]
  refine hdata.bind_eq fun data data' h => ?_
  obtain ⟨hrun, hasked⟩ := h.agrees_ofPackageReferences cwd project
  have hinquiry : Specification.ofPackageReferences cwd project data =
      Specification.ofPackageReferences cwd project data' := by
    unfold Specification.ofPackageReferences
    rw [h.items]
  rw [hrun, hasked, hinquiry]

/-- The listing counts if there is one, whatever else there is. -/
theorem result_ofProject_of_listed
    (hlisted : provider.exists? (beside project ProjectDescriptor.packagesConfigName) = .ok true) :
    (ofProject fs provider project).result =
      (ofPackagesConfig fs provider project (beside project ProjectDescriptor.packagesConfigName)).result := by
  simp only [ofProject, Logged.result_bind, Logged.result_ofExcept, hlisted, Except.ok_bind, if_true]

/-- Without a listing the description counts. -/
theorem result_ofProject_of_described
    (hunlisted : provider.exists? (beside project ProjectDescriptor.packagesConfigName) = .ok false)
    (hdescribed : provider.exists? (beside project ProjectDescriptor.projectJsonName) = .ok true) :
    (ofProject fs provider project).result =
      (ofProjectJson fs provider project (beside project ProjectDescriptor.projectJsonName)).result := by
  simp only [ofProject, Logged.result_bind, Logged.result_ofExcept, hunlisted, hdescribed, Except.ok_bind,
    Bool.false_eq_true, if_false, if_true]

/-- Without either the package references count. -/
theorem result_ofProject_of_referenced
    (hunlisted : provider.exists? (beside project ProjectDescriptor.packagesConfigName) = .ok false)
    (hundescribed : provider.exists? (beside project ProjectDescriptor.projectJsonName) = .ok false) :
    (ofProject fs provider project).result = (ofPackageReferences fs.workingDirectory provider project).result := by
  simp only [ofProject, Logged.result_bind, Logged.result_ofExcept, hunlisted, hundescribed, Except.ok_bind,
    Bool.false_eq_true, if_false]

/-- Only the description that counts has an influence on what normalizing a project gives. -/
theorem result_ofProject_eq_of_agree (h : AgreeOnDescription fs fs' provider provider' project) :
    (ofProject fs provider project).result = (ofProject fs' provider' project).result := by
  cases h with
  | byListing hlisted hlisted' hcontent hdata =>
    rw [result_ofProject_of_listed hlisted, result_ofProject_of_listed hlisted']
    exact result_ofPackagesConfig_congr hcontent hdata
  | byDescription hunlisted hunlisted' hdescribed hdescribed' hcontent hdata =>
    rw [result_ofProject_of_described hunlisted hdescribed, result_ofProject_of_described hunlisted' hdescribed']
    exact result_ofProjectJson_congr hcontent hdata
  | byReferences hunlisted hunlisted' hundescribed hundescribed' hdirectory hdata =>
    rw [result_ofProject_of_referenced hunlisted hundescribed, result_ofProject_of_referenced hunlisted' hundescribed',
      hdirectory]
    exact result_ofPackageReferences_congr _ hdata

/-- A provider of one project that depends on one package, with the files beside it and its properties. -/
def projectWith (files : List String) (properties : OrderedMap String String) : ProjectProvider where
  exists? path := .ok (files.contains path)
  load _ := pure
    { property := fun name => (properties.get? name).getD ""
      items := fun type => if type == "PackageReference" then [⟨"Serilog", [("Version", "2.10.0")]⟩] else []
      references := ["/src/Lib/Lib.csproj"] }

/-- A directory with both files. -/
def mixedFiles : FileSystem :=
  let octets (text : String) : FileNode := .file (text.toList.map fun c => c.toNat.toUInt8)
  let description := Json.object
    [("dependencies", .object [("PackageY", .text "2.0")]), ("frameworks", .object [("net6.0", .object [])])]
  ⟨[(["src"], .directory),
    (["src", "packages.config"], octets "<packages><package id='PackageX' version='1.0'/></packages>"),
    (["src", "project.json"], octets description.render)], []⟩

/-- Neither a description in JSON nor newer properties have an influence beside a list of packages, nor do properties
beside a description in JSON, nor later sources of target frameworks beside an earlier one. -/
theorem result_ofProject_eq_of_agree_mixed :
    let resultOf files properties := (ofProject mixedFiles (projectWith files properties) "/src/App.csproj").result
    let keysOf files properties := (resultOf files properties).map ProjectOutcome.keys
    (resultOf ["/src/packages.config"] [("TargetFrameworkVersion", "v4.8")] =
      resultOf ["/src/packages.config", "/src/project.json"]
        [("TargetFramework", "net6.0"), ("TargetFrameworkVersion", "v4.8")] ∧
      keysOf ["/src/packages.config"] [("TargetFrameworkVersion", "v4.8")] = .ok [⟨"PackageX", "1.0.0"⟩]) ∧
    (resultOf ["/src/project.json"] [] = resultOf ["/src/project.json"] [("TargetFramework", "net6.0")] ∧
      keysOf ["/src/project.json"] [] = .ok [⟨"PackageY", "[2.0.0, )"⟩]) ∧
    (resultOf [] [("TargetFramework", "net6.0")] =
      resultOf [] [("TargetFramework", "net6.0"), ("TargetFrameworks", "net48;net6.0")] ∧
      keysOf [] [("TargetFramework", "net6.0")] = .ok [⟨"Serilog", "[2.10.0, )"⟩]) := by
  intro resultOf keysOf
  refine ⟨⟨?_, by decide +kernel⟩, ⟨?_, by decide +kernel⟩, ⟨?_, by decide +kernel⟩⟩
  -- one framework property comes before the other, so that the second is not asked for
  · refine result_ofProject_eq_of_agree (.byListing rfl rfl rfl (.ok ⟨rfl, ?_⟩))
    exact ⟨by decide, fun _ => ⟨by decide, fun _ => trivial⟩⟩
  · exact result_ofProject_eq_of_agree (.byDescription rfl rfl rfl rfl rfl (.ok rfl))
  · refine result_ofProject_eq_of_agree (.byReferences rfl rfl rfl rfl rfl (.ok ⟨rfl, fun name hname => ?_, ?_⟩))
    · have hsources : "TargetFramework" ≠ name ∧ "TargetFrameworks" ≠ name :=
        ⟨fun h => hname (h ▸ by decide), fun h => hname (h ▸ by decide)⟩
      simp [OrderedMap.get?, hsources]
    · exact ⟨by decide, fun hempty => absurd (hempty "TargetFramework" (List.mem_singleton_self _)) (by decide)⟩

end ProjectOutcome
end PackageGraph
