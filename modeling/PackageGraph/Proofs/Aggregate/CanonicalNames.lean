import PackageGraph.Proofs.Aggregate.References
import PackageGraph.Proofs.DependencyGraph.Unresolved
import PackageGraph.Proofs.Path.Reference
/-!
# Canonical names

The name of a project comes from a path that was given, the name of what it refers to from a path in its file. Both are
canonical, so a reference goes by the name of a project exactly if it leads to the same place, however the one or the
other is spelled.
-/
namespace PackageGraph

namespace FileSystem

variable {fs : FileSystem} {project path : String}

/-- The path begins at the root and stays as it is when it is made absolute. -/
def IsCanonical (fs : FileSystem) (path : String) : Prop :=
  Path.isAbsolute path = true ∧ Path.absolute fs.workingDirectory path = path

/-- An absolute path is canonical once it is normalized. -/
theorem isCanonical_normalize (h : Path.isAbsolute path = true) : fs.IsCanonical (Path.normalize path) :=
  ⟨Path.isAbsolute_normalize h, Path.absolute_normalize h⟩

/-- The absolute form of a path is canonical. -/
theorem isCanonical_absolute (fs : FileSystem) (path : String) :
    fs.IsCanonical (Path.absolute fs.workingDirectory path) :=
  isCanonical_normalize (Path.isAbsolute_append fs.isAbsolute_workingDirectory)

/-- A reference that is resolved leads to a canonical path, however it is written. -/
theorem isCanonical_resolveReference (fs : FileSystem) (project reference : String) :
    fs.IsCanonical (Path.resolveReference fs.workingDirectory project reference) := by
  rw [Path.resolveReference_eq fs.isAbsolute_workingDirectory]
  exact isCanonical_normalize (Path.isAbsolute_writtenReference fs.isAbsolute_workingDirectory project reference)

/-- The paths of references are those that the document of a project writes down. -/
theorem mem_referencePaths_iff : path ∈ fs.referencePaths project ↔
    ∃ root, fs.readDocument (Path.absolute fs.workingDirectory project) = .ok root ∧
      ∃ reference ∈ ProjectDocument.unconditionalIncludes root "ProjectReference",
        Path.resolveReference fs.workingDirectory project reference = path := by
  unfold referencePaths
  cases fs.readDocument (Path.absolute fs.workingDirectory project) with
  | error e => simp
  | ok root => simp

end FileSystem

namespace Aggregate

variable {fs : FileSystem} {paths : List String} {a : Aggregate}

section

variable (h : (ofProjects fs (.ofFiles fs) paths).result = .ok a)

include h

/-- A specification goes by one of the paths that were given. -/
theorem exists_path_of_mem {s : PackageSpec} (hs : s ∈ a.specs) :
    ∃ path ∈ paths, Path.absolute fs.workingDirectory path = s.uniqueName :=
  List.mem_map.1 (mem_distinct.1 ((uniqueNames_sublist h).subset (List.mem_map_of_mem hs)))

/-- A reference of a specification comes from the file of its project. -/
theorem exists_reference_of_mem {s : PackageSpec} (hs : s ∈ a.specs) {r : ProjectReference}
    (hr : r ∈ s.writtenReferences) : ∃ root, fs.readDocument s.uniqueName = .ok root ∧
      ∃ reference ∈ ProjectDocument.unconditionalIncludes root "ProjectReference",
        Path.resolveReference fs.workingDirectory s.uniqueName reference = r.uniqueName := by
  obtain ⟨o, ho, hspec, -⟩ := exists_spec_of_mem h hs
  obtain ⟨m, hm⟩ := ProjectOutcome.carries_of_ofProject ho hspec
  rw [PackageSpec.writtenReferences, hm.restore, Option.toList_some, List.flatMap_singleton] at hr
  obtain ⟨g, hg, hr⟩ := List.mem_flatMap.1 hr
  have hname : r.uniqueName ∈ fs.referencePaths s.uniqueName := by
    rw [← hm.references g hg]
    exact List.mem_map_of_mem hr
  obtain ⟨path, -, hpath⟩ := exists_path_of_mem h hs
  have hself : Path.absolute fs.workingDirectory s.uniqueName = s.uniqueName := by
    rw [← hpath]
    exact (fs.isCanonical_absolute path).2
  rw [FileSystem.mem_referencePaths_iff, hself] at hname
  exact hname

end

/-- The path of a reference is canonical and does not depend on how the path of the project is spelled. So the names in
an aggregate of project files are canonical, both those of projects and those that they refer to. A reference goes by
the name of a project exactly if the path that the file writes down and the path that was given lead alike, however the
paths of the two projects are spelled. -/
theorem names_are_canonical (fs : FileSystem) :
    (∀ project reference, fs.IsCanonical (Path.resolveReference fs.workingDirectory project reference) ∧
      ∀ other, Path.absolute fs.workingDirectory other = Path.absolute fs.workingDirectory project →
        Path.resolveReference fs.workingDirectory other reference =
          Path.resolveReference fs.workingDirectory project reference) ∧
    ∀ paths a, (ofProjects fs (.ofFiles fs) paths).result = .ok a →
      (∀ name ∈ a.toGraph.names, fs.IsCanonical name ∧ ∃ path ∈ paths, Path.absolute fs.workingDirectory path = name) ∧
      ∀ s ∈ a.specs, ∀ r ∈ s.writtenReferences, fs.IsCanonical r.uniqueName ∧
        ∃ root, fs.readDocument s.uniqueName = .ok root ∧
          ∃ reference ∈ ProjectDocument.unconditionalIncludes root "ProjectReference",
            ∀ project path, Path.absolute fs.workingDirectory project = s.uniqueName →
              (r.uniqueName = Path.absolute fs.workingDirectory path ↔
                Path.LeadAlike (Path.writtenReference fs.workingDirectory project reference)
                  (Path.append fs.workingDirectory path)) := by
  have hspelling : ∀ project other reference,
      Path.absolute fs.workingDirectory other = Path.absolute fs.workingDirectory project →
        Path.resolveReference fs.workingDirectory other reference =
          Path.resolveReference fs.workingDirectory project reference := by
    intro project other reference hother
    rw [Path.resolveReference, hother]
    rfl
  refine ⟨fun project reference => ⟨fs.isCanonical_resolveReference project reference, fun other =>
    hspelling project other reference⟩, fun paths a h => ⟨fun name hname => ?_, fun s hs r hr => ?_⟩⟩
  · rw [toGraph_eq h, Graph.names, List.map_map] at hname
    obtain ⟨s, hs, rfl⟩ := List.mem_map.1 hname
    obtain ⟨path, hmem, hpath⟩ := exists_path_of_mem h hs
    refine ⟨?_, path, hmem, hpath⟩
    show fs.IsCanonical s.uniqueName
    rw [← hpath]
    exact fs.isCanonical_absolute path
  · obtain ⟨root, hroot, reference, hreference, hname⟩ := exists_reference_of_mem h hs hr
    rw [← hname]
    refine ⟨fs.isCanonical_resolveReference _ _, root, hroot, reference, hreference, fun project path hproject => ?_⟩
    have hself : Path.absolute fs.workingDirectory s.uniqueName = Path.absolute fs.workingDirectory project := by
      rw [← hproject]
      exact (fs.isCanonical_absolute project).2
    -- two references have one name if they lead alike from the directory of the project
    rw [hspelling project s.uniqueName reference hself, Path.resolveReference_eq fs.isAbsolute_workingDirectory]
    exact Path.normalize_eq_iff

/-- Two projects, of which one refers to the other twice, with detours and from above the root. -/
def spelledFiles : FileSystem :=
  let octets (text : String) : FileNode := .file (text.toList.map fun c => c.toNat.toUInt8)
  let project (references : String) := octets ("<P><PropertyGroup><TargetFramework>net6.0</TargetFramework>" ++
    "</PropertyGroup><ItemGroup><PackageReference Include='A'/>" ++ references ++ "</ItemGroup></P>")
  ⟨[(["w"], .directory), (["w", "App"], .directory), (["w", "Lib"], .directory),
    (["w", "App", "App.csproj"],
      project "<ProjectReference Include='..\\.\\Lib//x\\..\\Lib.csproj;/../w/Lib/Lib.csproj'/>"),
    (["w", "Lib", "Lib.csproj"], project "")], ["w"]⟩

def spelledPaths : List String := ["App/../App//App.csproj", "./Lib/Lib.csproj"]

/-- Two projects under uneven spellings, of which one refers to the other twice. -/
theorem names_are_canonical_spelledFiles :
    Path.resolveReference "/w" "App/../App//App.csproj" "..\\Lib" =
      Path.resolveReference "/w" "App/App.csproj" "..\\Lib" ∧
    ∃ a, (ofProjects spelledFiles (.ofFiles spelledFiles) spelledPaths).result = .ok a ∧
      a.toGraph.names = ["/w/App/App.csproj", "/w/Lib/Lib.csproj"] ∧
      (∀ name ∈ a.toGraph.names, spelledFiles.IsCanonical name) ∧
      ∃ s ∈ a.specs, s.uniqueName = "/w/App/App.csproj" ∧
        s.writtenReferences.map ProjectReference.uniqueName = ["/w/Lib/Lib.csproj", "/w/Lib/Lib.csproj"] ∧
        ∀ r ∈ s.writtenReferences, ∃ root, spelledFiles.readDocument s.uniqueName = .ok root ∧
          ∃ reference ∈ ProjectDocument.unconditionalIncludes root "ProjectReference",
            Path.LeadAlike (Path.writtenReference "/w" "App/../App//App.csproj" reference)
              (Path.append "/w" "./Lib/Lib.csproj") := by
  obtain ⟨hreferences, hall⟩ := names_are_canonical spelledFiles
  have hdata : (ofProjects spelledFiles (.ofFiles spelledFiles) spelledPaths).result.map
      (fun a => (a.toGraph.names, a.specs.map fun s =>
        (s.uniqueName, s.writtenReferences.map ProjectReference.uniqueName))) =
      .ok (["/w/App/App.csproj", "/w/Lib/Lib.csproj"],
        [("/w/App/App.csproj", ["/w/Lib/Lib.csproj", "/w/Lib/Lib.csproj"]), ("/w/Lib/Lib.csproj", [])]) := by
    decide +kernel
  obtain ⟨a, ha, hdata⟩ := Except.map_eq_ok_iff.1 hdata
  obtain ⟨hnames, hspecs⟩ := Prod.mk.inj hdata
  obtain ⟨hcanonical, hrefers⟩ := hall spelledPaths a ha
  obtain ⟨s, hs, hvalues⟩ : ∃ s ∈ a.specs, (s.uniqueName, s.writtenReferences.map ProjectReference.uniqueName) =
      ("/w/App/App.csproj", ["/w/Lib/Lib.csproj", "/w/Lib/Lib.csproj"]) :=
    List.mem_map.1 (hspecs ▸ List.mem_cons_self)
  obtain ⟨hname, hwritten⟩ := Prod.mk.inj hvalues
  refine ⟨((hreferences "App/App.csproj" "..\\Lib").2 "App/../App//App.csproj" (by decide +kernel)), a, ha, hnames,
    fun name hmem => (hcanonical name hmem).1, s, hs, hname, hwritten, fun r hr => ?_⟩
  obtain ⟨-, root, hroot, reference, hreference, hleads⟩ := hrefers s hs r hr
  refine ⟨root, hroot, reference, hreference, (hleads "App/../App//App.csproj" "./Lib/Lib.csproj" ?_).1 ?_⟩
  -- both references are the one to the library, by the names that were computed
  · rw [hname]
    decide +kernel
  · have hmem := List.mem_map_of_mem (f := ProjectReference.uniqueName) hr
    rw [hwritten] at hmem
    have hlib : r.uniqueName = "/w/Lib/Lib.csproj" := by simpa using hmem
    rw [hlib]
    decide +kernel

end Aggregate
end PackageGraph
