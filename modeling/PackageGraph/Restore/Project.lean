import PackageGraph.BuildTool.Derivation
import PackageGraph.Restore.Action
import PackageGraph.Restore.Result
/-!
# Previewing a restore

A preview asks a resolution engine what would become of a project if actions were applied to it. It asks for the
unchanged project first when no lock is known to compare with, then for the changed one. A single new package
that suits some frameworks only is tried once more, for those frameworks alone. Graphs are values, so the graph
that is previewed stays as it is. For a project file the graph is derived with the build tool, and its first root is
the project that is previewed.
-/
namespace PackageGraph

/-- A question to the resolution engine. -/
structure RestoreRequest where
  graph : DependencyGraph
  sources : List String
  /-- Whether nothing may be written. -/
  preview : Bool
  /-- Whether requests to the network are made one at a time. -/
  throttled : Bool
  noCache : Value
  ignoreFailedSources : Value

/-- A resolution engine answers each request in the light of all requests so far, that one the last of them. -/
abbrev RestoreEngine (β : Type) := List RestoreRequest → Except Error (List (RestoreResult β))

/-- Everything that is needed to carry out a change after its preview. -/
structure RestoreDecision (β : Type) where
  lockBefore : Option β
  result : RestoreResult β
  partition : FrameworkPartition
  sources : List String
  actions : List PackageAction
  retried : Bool

namespace RestoreDecision

variable {β : Type}

/-- Whether the last restore succeeded. -/
def success (d : RestoreDecision β) : Bool := d.result.success

/-- Whether packages are only uninstalled. -/
def classification (d : RestoreDecision β) : ActionKind := PackageAction.classify d.actions

end RestoreDecision

/-- What a preview leaves behind beside its decision. -/
structure RestoreTrace where
  requests : List RestoreRequest
  records : List LogRecord

namespace RestoreTrace

/-- Nothing asked and nothing logged. -/
def empty : RestoreTrace := ⟨[], []⟩

end RestoreTrace

/-- A computation that asks a resolution engine, logs, and may end with an error. -/
abbrev Previewing := ExceptT Error (StateM RestoreTrace)

namespace Previewing

variable {α : Type}

/-- Appends records to the log. -/
def logAll (rs : List LogRecord) : Previewing Unit := modify fun t => { t with records := t.records ++ rs }

/-- The outcome together with what was asked and logged. -/
def outcome (x : Previewing α) : Except Error α × RestoreTrace := x.run.run .empty

end Previewing

namespace RestorePreview

variable {β : Type}

/-- The part of the program that logs. -/
def logSource : String := "restore.orchestrator"

/-- The request to restore one project of a graph. -/
def request (s : Settings) (sources : List String) (graph : DependencyGraph) (project : String) :
    RestoreRequest :=
  ⟨graph.withRestore [project], sources, true, s.isOn .disableParallel, s .noCache, s .ignoreFailedSources⟩

/-- Restores one project of a graph. -/
def restore (engine : RestoreEngine β) (s : Settings) (sources : List String) (graph : DependencyGraph)
    (project : String) : Previewing (RestoreResult β) := do
  modify fun t => { t with requests := t.requests ++ [request s sources graph project] }
  match engine (← get).requests with
  | .error e => throw e
  | .ok results =>
    match RestoreResult.for? project results with
    | some result => return result
    | none => throw (.noResult project)

/-- The lock to compare with: the one that is known, or that of the unchanged project. -/
def baseline (engine : RestoreEngine β) (s : Settings) (sources : List String) (graph : DependencyGraph)
    (project : String) : Option β → Previewing (Option β)
  | some lock => return some lock
  | none => return (← restore engine s sources graph project).lock

/-- The package that is tried once more: that of a single install, if the project did not have it before and some
frameworks succeeded while the restore failed. -/
def retried? (spec : PackageSpec) (actions : List PackageAction) (result : RestoreResult β)
    (partition : FrameworkPartition) : Option (String × VersionRange) :=
  match actions with
  | [.install packageId range _ _] =>
    if !spec.hasDependency packageId && partition.isPartial && !result.success then some (packageId, range)
    else none
  | _ => none

/-- What is logged when a package is tried once more. -/
def retryLog (packageId : String) (partition : FrameworkPartition) : LogRecord :=
  .info logSource (packageId ++ " is not compatible with " ++ Text.join ", " partition.failedNames ++
    "; retrying with " ++ Text.join ", " partition.succeededNames)

/-- What is logged when a preview has been finished. -/
def finishedLog (project : String) (d : RestoreDecision β) : LogRecord :=
  .debug logSource "Restore preview finished"
    [("event", .text "preview"), ("component", .text "orchestrator"), ("target", .text project),
      ("outcome", .text (if d.success then "success" else "failure")), ("retried", .flag d.retried)]

/-- Restores the changed project and decides, after a second attempt where one is due. -/
def decide (engine : RestoreEngine β) (s : Settings) (sources : List String) (graph : DependencyGraph)
    (project : String) (spec : PackageSpec) (actions : List PackageAction) (lockBefore : Option β) :
    Previewing (RestoreDecision β) := do
  let updated := PackageAction.applyAll spec actions
  Previewing.logAll (PackageAction.applyAllLog spec actions)
  let first ← restore engine s sources (graph.withProject updated) project
  let partition := FrameworkPartition.ofFailed updated.frameworks first.failedFrameworks
  match retried? spec actions first partition with
  | none => return ⟨lockBefore, first, partition, sources, actions, false⟩
  | some (packageId, range) =>
    let narrowed := spec.setDependency packageId range (some partition.succeeded)
    Previewing.logAll (retryLog packageId partition ::
      spec.setDependencyLog packageId range (some partition.succeeded))
    let second ← restore engine s sources (graph.withProject narrowed) project
    let stillFailed := FrameworkPartition.ofFailed updated.frameworks
      (partition.failed ++ second.failedFrameworks)
    return ⟨lockBefore, second, stillFailed, sources, actions, true⟩

/-- Previews actions on a project of a graph. Without a lock to compare with, the unchanged project is restored
first. -/
def run (engine : RestoreEngine β) (s : Settings) (graph : DependencyGraph) (project : String)
    (actions : List PackageAction) (lock : Option β) : Previewing (RestoreDecision β) := do
  if actions.isEmpty then throw (.usage .noActions)
  match graph.find? project with
  | none => throw (.usage (.unknownProject project))
  | some spec =>
    let sources := PackageAction.consultedSources actions (← s.sources)
    let lockBefore ← baseline engine s sources graph project lock
    let d ← decide engine s sources graph project spec actions lockBefore
    Previewing.logAll [finishedLog project d]
    return d

/-- Derives the graph of a project and previews actions on its first root; nothing when the graph has no roots. -/
def runOnProject (engine : RestoreEngine β) (tool : BuildTool) (s : Settings) (fs : FileSystem)
    (stem project : String) (actions : List PackageAction) (lock : Option β) :
    Execution (Option (RestoreDecision β)) :=
  (Derivation.derive tool s fs stem project none none).andThen fun files graph =>
    match graph.restore with
    | [] => ⟨.ok none, files, [.warning logSource ("No restore inputs found for " ++ project)]⟩
    | root :: _ =>
      let (result, trace) := (run engine s graph root actions lock).outcome
      ⟨result.map some, files, trace.records⟩

end RestorePreview
end PackageGraph
