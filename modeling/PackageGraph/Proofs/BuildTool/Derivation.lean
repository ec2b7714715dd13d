import PackageGraph.BuildTool.Derivation
import PackageGraph.Proofs.FileSystem.Changes
/-!
# Deriving leaves no scratch file

However the tool ends, the scratch file is gone after a graph has been derived, and no other file has been changed but
by the tool. What the tool has written counts only if the tool ends well.
-/
namespace PackageGraph

open Except

/-! ## Scratch files -/

/-- Nothing has changed except where the path leads. -/
def FileSystem.SameBut (path : String) (fs changed : FileSystem) : Prop :=
  ∀ place, place ≠ fs.componentsFrom path → changed.node? place = fs.node? place

namespace ScratchFile

variable {fs made : FileSystem} {directory stem extension path : String}

/-- A scratch file is made at an absolute path, after the directories that are missing. -/
theorem create_eq_ok (h : create fs directory stem extension = .ok (path, made)) :
    Path.isAbsolute path = true ∧ ∃ prepared, fs.AddsDirectories prepared ∧ prepared.SameBut path made := by
  unfold create at h
  split at h
  · cases h
  -- the directories are made first, and only then the file
  · cases hmake : fs.makeDirectories directory with
    | error f =>
      rw [hmake] at h
      cases h
    | ok prepared =>
      rw [hmake] at h
      cases hwrite : prepared.write (Path.absolute fs.workingDirectory (Path.append directory (stem ++ extension))) []
        with
      | error f =>
        simp only [Except.bind, hwrite] at h
        cases h
      | ok written =>
        simp only [Except.bind, hwrite] at h
        obtain ⟨rfl, rfl⟩ := Prod.mk.inj (Except.ok.inj h)
        refine ⟨Path.isAbsolute_absolute fs.isAbsolute_workingDirectory _, prepared,
          FileSystem.addsDirectories_makeDirectories hmake, fun place hplace => ?_⟩
        rw [(FileSystem.write_eq_ok hwrite).1, FileSystem.node?_putNode_of_ne hplace]

/-- Removing the scratch file touches no other place. -/
theorem sameBut_discard (fs : FileSystem) (path : String) : fs.SameBut path (discard fs path).1 := by
  intro place hplace
  unfold discard
  split
  · rfl
  · exact FileSystem.node?_remove_of_ne hplace

/-- What is no directory is removed. -/
theorem exists?_discard (habsolute : Path.isAbsolute path = true) (h : fs.isDirectory path = false) :
    (discard fs path).1.exists? path = false := by
  rw [discard, if_neg (by simp [h])]
  exact FileSystem.exists?_remove habsolute h

end ScratchFile

/-! ## Runs of the tool -/

namespace ToolRun

/-- The tool ends by itself and in time, with exit code zero. -/
def Succeeds (limit : Option Binary64) : ToolRun → Prop
  | .ended exitCode _ _ => isSpent limit = false ∧ exitCode = 0
  | _ => False

/-- The run, if it left these files. -/
def withFiles (files : FileSystem) : ToolRun → ToolRun
  | .missing => .missing
  | .refused fault => .refused fault
  | .endless _ => .endless files
  | .ended exitCode stderr _ => .ended exitCode stderr files

variable {run : ToolRun} {arguments : List String} {limit : Option Binary64}

/-- A run of the tool is accepted exactly if it succeeds within its time. -/
theorem outcome_eq_ok_iff : run.outcome arguments limit = .ok () ↔ run.Succeeds limit := by
  cases run with
  | ended exitCode stderr files =>
    rw [outcome, Succeeds]
    cases isSpent limit <;> simp
  | _ => simp [outcome, Succeeds]

/-- What the run amounts to does not depend on the files. -/
theorem outcome_withFiles (files : FileSystem) :
    (run.withFiles files).outcome arguments limit = run.outcome arguments limit := by
  cases run <;> rfl

end ToolRun

/-- The tool, if it left other files. -/
def BuildTool.leaving (leave : List String → FileSystem → FileSystem) (tool : BuildTool) : BuildTool :=
  fun arguments fs => (tool arguments fs).withFiles (leave arguments fs)

namespace Execution

variable {α β : Type} (x : Execution α) (f : FileSystem → α → Execution β)

theorem result_andThen : (x.andThen f).result = x.result >>= fun a => (f x.files a).result := by
  unfold andThen
  cases x.result <;> rfl

theorem files_andThen (h : ∀ files a, (f files a).files = files) : (x.andThen f).files = x.files := by
  unfold andThen
  cases x.result with
  | error e => rfl
  | ok a => exact h x.files a

end Execution

namespace Derivation

variable (tool : BuildTool) (s : Settings) (fs : FileSystem) (project output : String)
  (limit : Except Error (Option Binary64)) (recursive : Bool)

/-- The files that the tool leaves, which is not started without a command line. -/
def filesLeft : FileSystem :=
  match BuildTool.commandLine s project output recursive with
  | .error _ => fs
  | .ok arguments => (tool arguments fs).filesAfter fs

/-- The tool is started, and ends well. -/
def ToolSucceeds : Prop :=
  ∃ arguments seconds, BuildTool.commandLine s project output recursive = .ok arguments ∧ limit = .ok seconds ∧
    (tool arguments fs).Succeeds seconds

/-- Reading the graph changes no files. -/
theorem files_runTool :
    (runTool tool s fs project output limit recursive).files = filesLeft tool s fs project output recursive := by
  unfold runTool filesLeft
  cases BuildTool.commandLine s project output recursive with
  | error e => rfl
  | ok arguments => exact Execution.files_andThen _ _ fun _ _ => rfl

/-- What running the tool amounts to before the graph is read. -/
def toolOutcome : Except Error Unit :=
  BuildTool.commandLine s project output recursive >>= fun arguments => limit >>= fun seconds =>
    (tool arguments fs).outcome arguments seconds

/-- The graph is read once the tool has been accepted. -/
theorem result_runTool : (runTool tool s fs project output limit recursive).result =
    toolOutcome tool s fs project output limit recursive >>= fun _ =>
      (readGraph (filesLeft tool s fs project output recursive) output).result := by
  unfold runTool toolOutcome filesLeft
  cases BuildTool.commandLine s project output recursive with
  | error e => rfl
  | ok arguments =>
    simp only [Execution.result_andThen, ok_bind]
    rfl

/-- The tool is accepted exactly if there is a command line for it and it succeeds. -/
theorem toolOutcome_eq_ok_iff : toolOutcome tool s fs project output limit recursive = .ok () ↔
    ToolSucceeds tool s fs project output limit recursive := by
  simp only [toolOutcome, ToolSucceeds, bind_eq_ok_iff, ToolRun.outcome_eq_ok_iff]
  simp only [exists_and_left]

/-- What a tool writes has no influence on whether it is accepted. -/
theorem toolOutcome_leaving (leave : List String → FileSystem → FileSystem) :
    toolOutcome (tool.leaving leave) s fs project output limit recursive =
      toolOutcome tool s fs project output limit recursive := by
  simp only [toolOutcome, BuildTool.leaving, ToolRun.outcome_withFiles]

/-! ## Derivations -/

/-- The scratch file of a derivation, and the files after it has been made. -/
def scratch (stem : String) : Except Error (String × FileSystem) :=
  (s.text .scratchDirectory).bind fun directory => ScratchFile.create fs directory stem graphExtension

variable (stem : String) (limit? : Option Value) (recursive? : Option Bool)

/-- Without a scratch file nothing is run. -/
theorem derive_of_scratch_error {e : Error} (h : scratch s fs stem = .error e) :
    derive tool s fs stem project limit? recursive? = .fail (prepared s fs) e := by
  unfold scratch at h
  unfold derive
  rw [h]

/-- With a scratch file the result is that of the tool, and the scratch file is removed from what the tool leaves. -/
theorem derive_of_scratch {path : String} {made : FileSystem} (h : scratch s fs stem = .ok (path, made)) :
    (derive tool s fs stem project limit? recursive?).result =
      (runTool tool s made project path (limit?.getD (s .timeout)).seconds
        (recursive?.getD (s.isOn .recursive))).result ∧
    (derive tool s fs stem project limit? recursive?).files =
      (ScratchFile.discard (filesLeft tool s made project path (recursive?.getD (s.isOn .recursive))) path).1 := by
  unfold scratch at h
  unfold derive
  rw [h, ← files_runTool tool s made project path (limit?.getD (s .timeout)).seconds]
  exact ⟨rfl, rfl⟩

/-- Preparing for the scratch file makes directories and nothing else. -/
theorem addsDirectories_prepared : fs.AddsDirectories (prepared s fs) := by
  unfold prepared
  split
  · exact FileSystem.addsDirectories_directoriesMade fs _
  · exact .refl fs

/-- The scratch file is the only thing that is made beside directories. -/
theorem scratch_eq_ok {path : String} {made : FileSystem} (h : scratch s fs stem = .ok (path, made)) :
    Path.isAbsolute path = true ∧ ∃ prepared, fs.AddsDirectories prepared ∧ prepared.SameBut path made := by
  obtain ⟨directory, -, hcreate⟩ := bind_eq_ok_iff.1 h
  exact ScratchFile.create_eq_ok hcreate

/-- A file with content is read as a graph document. -/
theorem readGraph_of_content {path : String} {content : List UInt8} (h : fs.lookUp path = .ok (.file content))
    (hcontent : content ≠ []) : readGraph fs path = DependencyGraph.load fs path := by
  obtain ⟨byte, bytes, rfl⟩ := List.exists_cons_of_ne_nil hcontent
  rw [readGraph, h]

/-- Without a file, or with nothing in it, the graph is empty. -/
theorem readGraph_of_no_content {path : String} (h : fs.exists? path = false ∨ fs.lookUp path = .ok (.file [])) :
    readGraph fs path = (return Graph.empty) := by
  rcases h with h | h
  · cases hnode : fs.lookUp path with
    | error f => rw [readGraph, hnode]
    | ok node => exact absurd hnode (FileSystem.exists?_eq_false_iff.1 h node)
  · rw [readGraph, h]

/-- A derivation changes nothing but what it makes for the scratch file, and leaves the files as the tool left them
but for the scratch file. This is gone, unless the tool has put a directory in its place. -/
structure CleansUp (path : String) (before made left after : FileSystem) : Prop where
  prepares : ∃ prepared, before.AddsDirectories prepared ∧ prepared.SameBut path made
  keeps : left.SameBut path after
  removes : left.isDirectory path = false → after.exists? path = false

/-- What has been written is read: the empty graph if there is nothing. -/
structure ReadsBack (path : String) (left : FileSystem) (result : Except Error DependencyGraph) : Prop where
  nothing : left.exists? path = false ∨ left.lookUp path = .ok (.file []) → result = .ok Graph.empty
  content : ∀ bytes, left.lookUp path = .ok (.file bytes) → bytes ≠ [] →
    result = (DependencyGraph.load left path).result

/-- The files that the tool leaves in a derivation. -/
def filesOfTool (path : String) (made : FileSystem) : FileSystem :=
  filesLeft tool s made project path (recursive?.getD (s.isOn .recursive))

/-- The tool ends well in a derivation. -/
def EndsWell (path : String) (made : FileSystem) : Prop :=
  ToolSucceeds tool s made project path (limit?.getD (s .timeout)).seconds (recursive?.getD (s.isOn .recursive))

/-- However a derivation ends, it cleans up. Without a scratch file it has made directories at most. Otherwise there is
a graph only if the tool ends well, and it is the one that has been written; if the tool does not end well, the error is
the same whatever it has written. -/
theorem derive_cleans_up :
    match scratch s fs stem with
    | .error e =>
      (derive tool s fs stem project limit? recursive?).result = .error e ∧
      fs.AddsDirectories (derive tool s fs stem project limit? recursive?).files
    | .ok (path, made) =>
      CleansUp path fs made (filesOfTool tool s project recursive? path made)
        (derive tool s fs stem project limit? recursive?).files ∧
      (EndsWell tool s project limit? recursive? path made →
        ReadsBack path (filesOfTool tool s project recursive? path made)
          (derive tool s fs stem project limit? recursive?).result) ∧
      (¬ EndsWell tool s project limit? recursive? path made →
        ∃ e, (derive tool s fs stem project limit? recursive?).result = .error e ∧
          ∀ leave, (derive (tool.leaving leave) s fs stem project limit? recursive?).result = .error e) := by
  cases hscratch : scratch s fs stem with
  | error e =>
    rw [derive_of_scratch_error tool s fs project stem limit? recursive? hscratch]
    exact ⟨rfl, addsDirectories_prepared s fs⟩
  | ok made =>
    -- the scratch file is made, so that the tool is run
    obtain ⟨path, made⟩ := made
    obtain ⟨hresult, hfiles⟩ := derive_of_scratch tool s fs project stem limit? recursive? hscratch
    obtain ⟨habsolute, hmade⟩ := scratch_eq_ok s fs stem hscratch
    refine ⟨?_, fun hends => ?_, fun hends => ?_⟩
    · rw [hfiles]
      exact ⟨hmade, ScratchFile.sameBut_discard _ path, ScratchFile.exists?_discard habsolute⟩
    · rw [hresult, result_runTool, (toolOutcome_eq_ok_iff ..).2 hends, ok_bind]
      refine ⟨fun hnothing => ?_, fun bytes hfile hbytes => ?_⟩
      · exact congrArg Logged.result (readGraph_of_no_content _ hnothing)
      · exact congrArg Logged.result (readGraph_of_content _ hfile hbytes)
    · -- the error is found before the file is read
      rw [EndsWell, ← toolOutcome_eq_ok_iff] at hends
      cases houtcome : toolOutcome tool s made project path (limit?.getD (s .timeout)).seconds
          (recursive?.getD (s.isOn .recursive)) with
      | ok _ => exact absurd houtcome hends
      | error e =>
        refine ⟨e, ?_, fun leave => ?_⟩
        · rw [hresult, result_runTool, houtcome]
          rfl
        · rw [(derive_of_scratch _ s fs project stem limit? recursive? hscratch).1, result_runTool,
            toolOutcome_leaving, houtcome]
          rfl

/-- Settings with a scratch directory under `/w/tmp`. -/
def sampleSettings : Settings := .defaults ⟨[], "/w/tmp", "/root"⟩

/-- Files without that directory. -/
def sampleFiles : FileSystem := ⟨[(["w"], .directory)], ["w"]⟩

/-- A tool that writes a graph to the scratch file. -/
def sampleTool : BuildTool := fun _ fs =>
  let content := "\x7b\"restore\": \x7b\"App\": null\x7d, \"projects\": \x7b\x7d\x7d"
  .ended 0 [] (fs.putNode ["w", "tmp", "NuGet-Scratch", "stem.dg"]
    (.file (content.toList.map fun c => c.toNat.toUInt8)))

/-- A tool that writes a graph to its scratch file, which is gone afterwards. -/
theorem derive_cleans_up_sampleTool :
    ∃ path made, scratch sampleSettings sampleFiles "stem" = .ok (path, made) ∧ made.isFile path = true ∧
      EndsWell sampleTool sampleSettings "App.csproj" none none path made ∧
      (derive sampleTool sampleSettings sampleFiles "stem" "App.csproj" none none).result.isOk = true ∧
      (derive sampleTool sampleSettings sampleFiles "stem" "App.csproj" none none).files.exists? path = false := by
  have hscratch : scratch sampleSettings sampleFiles "stem" =
      .ok ("/w/tmp/NuGet-Scratch/stem.dg", ⟨[(["w"], .directory), (["w", "tmp"], .directory),
        (["w", "tmp", "NuGet-Scratch"], .directory),
        (["w", "tmp", "NuGet-Scratch", "stem.dg"], .file [])], ["w"]⟩) := rfl
  have hcleans := derive_cleans_up sampleTool sampleSettings sampleFiles "App.csproj" "stem" none none
  rw [hscratch] at hcleans
  refine ⟨_, _, hscratch, ?_, ⟨_, _, rfl, rfl, ?_⟩, ?_, hcleans.1.removes ?_⟩
  · decide +kernel
  · exact ⟨by decide +kernel, rfl⟩
  · decide +kernel
  · decide +kernel

end Derivation
end PackageGraph
