import PackageGraph.CommandLine.Run
import PackageGraph.Proofs.Aggregate.Schedule
import PackageGraph.Proofs.BuildTool.Derivation
import PackageGraph.Proofs.DependencyGraph.Acceptance
import PackageGraph.Proofs.Settings.Escapes
/-!
# How runs end

A run ends with one of its exit codes unless an error escapes: before the command begins, when the level of the log
cannot be understood or the log file not be opened, and in the command, when an error has no code. Which files, settings
and variables this takes is said for each command. Projects are worked on at the same time, and the first of them to
fail ends the command, so that the order in which they are done has a say in it.
-/
namespace PackageGraph

open Except

namespace Derivation

end Derivation

namespace CommandLine

variable {schedule : Schedule} {s : Surroundings} {fs : FileSystem} {i : Invocation}

/-- A graph that cannot be written is reported. -/
theorem not_escapes_toJson? (g : DependencyGraph) : ¬ Escapes g.toJson? := by
  unfold DependencyGraph.toJson?
  split
  · exact not_escapes_ok _
  · exact fun h => escapes_error_iff.1 h rfl

/-- An option that is given has its value. -/
theorem exists_of_getD_ne_null {α : Type} {kind : α → Value} {given : Option α}
    (h : (given.map kind).getD .null ≠ .null) : ∃ x, (given.map kind).getD .null = kind x := by
  cases given with
  | none => exact absurd rfl h
  | some x => exact ⟨x, rfl⟩

/-- Options are of the kinds of their settings. -/
theorem isGivenOfKind_settings (options : Options) (setting : Setting) : options.settings.IsGivenOfKind setting := by
  intro v hv hnull
  cases setting with
  | packageSources => cases hv
  | timeout =>
    obtain rfl := Option.some.inj hv
    exact exists_of_getD_ne_null hnull
  | maxConcurrency =>
    obtain rfl := Option.some.inj hv
    exact exists_of_getD_ne_null hnull
  | _ => exact trivial

/-- The settings in effect say how many projects are worked on at a time. -/
theorem exists_slots {env : Environment} {options : Options} {settings : Settings}
    (h : (options.settings.resolve fs env).result = .ok settings) : ∃ slots, settings.slots = .ok slots := by
  obtain ⟨n, hn⟩ : ∃ n, settings .maxConcurrency = .int n :=
    GivenSettings.isOfKind_of_resolve (isGivenOfKind_settings options .maxConcurrency) h
  exact ⟨n.toNat, Settings.slots_of_int hn⟩

/-- Aggregating projects escapes with the settings, or with the first project that fails. -/
theorem escapes_graphDocument_iff {env : Environment} {options : Options} {projects : List String} :
    Escapes (graphDocument schedule fs env options.settings projects).result ↔
      GivenSettings.SettingsEscape options.settings fs env ∨ ∃ settings slots,
        (options.settings.resolve fs env).result = .ok settings ∧ settings.slots = .ok slots ∧
          FailsFirst (fun p => (ProjectOutcome.ofProject fs (.ofFiles fs) p).result) (ProjectEscapes fs)
            (schedule.order slots (Aggregate.projectPaths fs.workingDirectory projects)) := by
  rw [graphDocument, Logged.result_bind, escapes_bind_iff, GivenSettings.escapes_resolve_iff]
  refine or_congr_right (exists_congr fun settings => ?_)
  rw [exists_and_left]
  refine and_congr_right fun hsettings => ?_
  obtain ⟨texts, htexts⟩ := GivenSettings.sources_of_resolve hsettings
  obtain ⟨slots, hslots⟩ := exists_slots hsettings
  simp only [Logged.result_bind, Logged.result_ofExcept, Logged.result_pure, htexts, hslots, ok_bind, Except.ok.injEq,
    exists_eq_left']
  rw [escapes_bind_iff_left, Aggregate.escapes_ofProjectsIn_iff]
  intro a
  rw [escapes_bind_iff_left fun _ => not_escapes_ok _]
  exact not_escapes_toJson? a.toGraph

/-- In some order aggregating projects escapes with one of them exactly if fewer fail before it than are worked on at a
time. -/
theorem exists_escapes_graphDocument_iff {env : Environment} {options : Options} {settings : Settings} {slots : Nat}
    (hsettings : (options.settings.resolve fs env).result = .ok settings) (hslots : settings.slots = .ok slots)
    {projects : List String} :
    (∃ schedule, Escapes (graphDocument schedule fs env options.settings projects).result) ↔
      ∃ before p after, Aggregate.projectPaths fs.workingDirectory projects = before ++ p :: after ∧
        ProjectEscapes fs p ∧
          before.countP (Schedule.fails fun p => (ProjectOutcome.ofProject fs (.ofFiles fs) p).result) < max 1 slots := by
  rw [← Schedule.exists_failsFirst_order_iff]
  refine exists_congr fun schedule => ?_
  have hnone : ¬ GivenSettings.SettingsEscape options.settings fs env := by
    rw [← GivenSettings.escapes_resolve_iff, hsettings]
    exact not_escapes_ok settings
  rw [escapes_graphDocument_iff, or_iff_right hnone]
  simp only [hsettings, Except.ok.injEq, exists_and_left, exists_eq_left', hslots]

/-- A file with a text of single octets. -/
def textFile (content : String) : FileNode := .file (content.toList.map fun c => c.toNat.toUInt8)

/-- A directory with what stands in it, and a tool that may not be started. -/
def holding (nodes : OrderedMap Place FileNode) : Surroundings where
  environment := ⟨[], "/tmp", "/root"⟩
  files := ⟨(["w"], .directory) :: nodes, ["w"]⟩
  tool := fun _ _ => .refused .denied
  stem := "stem"
  wording := Fault.describe

/-- A directory with a configuration file. -/
def configured (content : String) : Surroundings := holding [(["w", "c.yml"], textFile content)]

end CommandLine
end PackageGraph
