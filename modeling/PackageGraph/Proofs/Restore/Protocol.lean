import PackageGraph.Proofs.DependencyGraph.Keys
import PackageGraph.Proofs.PackageSpec.Edit
import PackageGraph.Restore.Project
/-!
# The protocol of a preview

Which requests a preview makes, in which order and for which specifications, whatever the engine answers. The
engine is asked for the unchanged project if there is no lock to compare with, then for the changed one, and then
at most once more, for a single new package in the frameworks that succeeded.

`asked_decide` and `asked_run` say what a preview asks and returns; `requests_have_stages` states the protocol.
-/
namespace PackageGraph

/-! ## Running a preview from a trace -/

namespace Previewing

variable {α γ : Type}

/-- The outcome of a computation that begins with a trace. -/
def runFrom (x : Previewing α) (t : RestoreTrace) : Except Error α × RestoreTrace := x.run.run t

@[simp] theorem runFrom_pure (a : α) (t : RestoreTrace) : (pure a : Previewing α).runFrom t = (.ok a, t) := rfl

@[simp] theorem runFrom_throw (e : Error) (t : RestoreTrace) :
    (throw e : Previewing α).runFrom t = (.error e, t) := rfl

/-- Steps in sequence go on from the trace that the first leaves, unless it fails. -/
theorem runFrom_bind (x : Previewing α) (f : α → Previewing γ) (t : RestoreTrace) :
    (x >>= f).runFrom t =
      match x.runFrom t with
      | (.ok a, t') => (f a).runFrom t'
      | (.error e, t') => (.error e, t') := by
  show (ExceptT.bindCont f (x.runFrom t).1).run (x.runFrom t).2 = _
  rcases x.runFrom t with ⟨_ | _, _⟩ <;> rfl

@[simp] theorem runFrom_logAll (rs : List LogRecord) (t : RestoreTrace) :
    (logAll rs).runFrom t = (.ok (), { t with records := t.records ++ rs }) := rfl

@[simp] theorem runFrom_modify (f : RestoreTrace → RestoreTrace) (t : RestoreTrace) :
    (modify f : Previewing Unit).runFrom t = (.ok (), f t) := rfl

@[simp] theorem runFrom_get (t : RestoreTrace) : (get : Previewing RestoreTrace).runFrom t = (.ok t, t) := rfl

@[simp] theorem runFrom_lift (x : Except Error α) (t : RestoreTrace) :
    (liftM x : Previewing α).runFrom t = (x, t) := by
  cases x <;> rfl

/-- What a computation returns and the requests made by then, after those that were made before it. -/
def asked (x : Previewing α) (t : RestoreTrace) : Except Error α × List RestoreRequest :=
  ((x.runFrom t).1, (x.runFrom t).2.requests)

/-- The requests of steps in sequence are those of the first and, unless it fails, of the second. -/
theorem asked_bind (x : Previewing α) (f : α → Previewing γ) (t : RestoreTrace) :
    (x >>= f).asked t =
      match x.runFrom t with
      | (.ok a, t') => (f a).asked t'
      | (.error e, t') => (.error e, t'.requests) := by
  simp only [asked, runFrom_bind]
  rcases x.runFrom t with ⟨_ | _, _⟩ <;> rfl

end Previewing

/-! ## The three stages -/

namespace PackageAction

/-- No action renames the project. -/
theorem uniqueName_apply (s : PackageSpec) (a : PackageAction) : (apply s a).uniqueName = s.uniqueName := by
  rw [apply]
  cases a.kind with
  | install => exact PackageSpec.uniqueName_setDependency ..
  | uninstall => exact PackageSpec.uniqueName_removeDependency ..

/-- Actions do not change the name under which a project stands. -/
theorem uniqueName_applyAll (s : PackageSpec) (actions : List PackageAction) :
    (applyAll s actions).uniqueName = s.uniqueName := by
  induction actions generalizing s with
  | nil => rfl
  | cons a actions ih =>
    show (applyAll (apply s a) actions).uniqueName = s.uniqueName
    rw [ih, uniqueName_apply]

end PackageAction

/-- The request is to restore one project of a graph, in the form of a target, with all other projects as they
are. -/
structure RestoreRequest.AsksFor (q : RestoreRequest) (s : Settings) (sources : List String)
    (graph : DependencyGraph) (project : String) (target : PackageSpec) : Prop where
  roots : q.graph.restore = [project]
  target : q.graph.find? project = some target
  others : ∀ other, other ≠ project → q.graph.find? other = graph.find? other
  names : q.graph.names = graph.names
  sources : q.sources = sources
  preview : q.preview = true
  throttled : q.throttled = s.isOn .disableParallel
  noCache : q.noCache = s .noCache
  ignoreFailedSources : q.ignoreFailedSources = s .ignoreFailedSources

namespace RestorePreview

variable {β : Type}

/-- What the engine says about a project in the light of the requests so far. -/
def answer (engine : RestoreEngine β) (project : String) (history : List RestoreRequest) :
    Except Error (RestoreResult β) :=
  match engine history with
  | .error e => .error e
  | .ok results =>
    match RestoreResult.for? project results with
    | some r => .ok r
    | none => .error (.noResult project)

/-- How the frameworks of the changed project fared in the first attempt. -/
def firstPartition (spec : PackageSpec) (actions : List PackageAction) (first : RestoreResult β) :
    FrameworkPartition :=
  .ofFailed (PackageAction.applyAll spec actions).frameworks first.failedFrameworks

/-- A second attempt is due for a package: it is the only one to install, the project did not have it, and the
first attempt failed although some frameworks succeeded. -/
structure RetryDue (spec : PackageSpec) (actions : List PackageAction) (first : RestoreResult β)
    (packageId : String) (range : VersionRange) : Prop where
  single : ∃ source frameworks, actions = [.install packageId range source frameworks]
  isNew : ∀ d ∈ spec.allDependencies, Text.lower d.name ≠ Text.lower packageId
  someSucceeded : (firstPartition spec actions first).succeeded ≠ []
  someFailed : (firstPartition spec actions first).failed ≠ []
  failed : first.success = false

/-- A package is new when no dependency bears its name in any letter case. -/
theorem not_hasDependency_iff (spec : PackageSpec) (packageId : String) :
    (!spec.hasDependency packageId) = true ↔
      ∀ d ∈ spec.allDependencies, Text.lower d.name ≠ Text.lower packageId := by
  simp [PackageSpec.hasDependency, Dependency.declares]

/-- A restore is partial when some frameworks succeed and some fail. -/
theorem isPartial_iff (p : FrameworkPartition) : p.isPartial = true ↔ p.succeeded ≠ [] ∧ p.failed ≠ [] := by
  simp [FrameworkPartition.isPartial]

/-- The package that is tried once more is the one for which a second attempt is due. -/
theorem retried?_eq_some_iff (spec : PackageSpec) (actions : List PackageAction) (first : RestoreResult β)
    (packageId : String) (range : VersionRange) :
    retried? spec actions first (firstPartition spec actions first) = some (packageId, range) ↔
      RetryDue spec actions first packageId range := by
  constructor
  · intro h
    unfold retried? at h
    -- a retry needs a single action that installs a package
    split at h
    · rename_i id r source frameworks
      split at h
      · rename_i hc
        simp only [Option.some.injEq, Prod.mk.injEq] at h
        obtain ⟨rfl, rfl⟩ := h
        simp only [Bool.and_eq_true, not_hasDependency_iff, isPartial_iff] at hc
        obtain ⟨⟨hnew, hsucceeded, hfailed⟩, hsuccess⟩ := hc
        exact ⟨⟨source, frameworks, rfl⟩, hnew, hsucceeded, hfailed, by simpa using hsuccess⟩
      · cases h
    · cases h
  · rintro ⟨⟨source, frameworks, rfl⟩, hnew, hsucceeded, hfailed, hsuccess⟩
    have hpartial := (isPartial_iff _).2 ⟨hsucceeded, hfailed⟩
    have habsent := (not_hasDependency_iff spec packageId).2 hnew
    simp only [retried?, habsent, hpartial, hsuccess, Bool.not_false, Bool.and_self, if_true]

section

variable (engine : RestoreEngine β) (s : Settings) (sources : List String) (graph : DependencyGraph)
  (project : String) (spec : PackageSpec) (actions : List PackageAction)

/-- The request for the unchanged project, which is made when there is no lock to compare with. -/
def openingRequests : Option β → List RestoreRequest
  | some _ => []
  | none => [request s sources graph project]

/-- The request for the changed project. -/
def changedRequest : RestoreRequest :=
  request s sources (graph.withProject (PackageAction.applyAll spec actions)) project

/-- The request for the project with one package in the frameworks that succeeded. -/
def retryRequest (first : RestoreResult β) (packageId : String) (range : VersionRange) : RestoreRequest :=
  request s sources (graph.withProject
    (spec.setDependency packageId range (some (firstPartition spec actions first).succeeded))) project

/-- A restore asks the engine once, and answers with all that was asked before it in view. -/
theorem runFrom_restore (t : RestoreTrace) :
    (restore engine s sources graph project).runFrom t =
      (answer engine project (t.requests ++ [request s sources graph project]),
        { t with requests := t.requests ++ [request s sources graph project] }) := by
  simp only [restore, Previewing.runFrom_bind, Previewing.runFrom_modify, Previewing.runFrom_get, answer]
  cases engine (t.requests ++ [request s sources graph project]) with
  | error e => rfl
  | ok results =>
    cases h : RestoreResult.for? project results with
    | none => simp [h]
    | some r => simp [h]

theorem runFrom_baseline_none (t : RestoreTrace) :
    (baseline engine s sources graph project none).runFrom t =
      ((answer engine project (t.requests ++ [request s sources graph project])).map RestoreResult.lock,
        { t with requests := t.requests ++ [request s sources graph project] }) := by
  rw [baseline, Previewing.runFrom_bind, runFrom_restore]
  cases answer engine project (t.requests ++ [request s sources graph project]) <;> rfl

/-- What is decided, and asked after a history, once the project to compare with is known. -/
theorem asked_decide (lockBefore : Option β) (t : RestoreTrace) :
    let history := t.requests ++ [changedRequest s sources graph project spec actions]
    (decide engine s sources graph project spec actions lockBefore).asked t =
      match answer engine project history with
      | .error e => (.error e, history)
      | .ok first =>
        let partition := firstPartition spec actions first
        match retried? spec actions first partition with
        | none => (.ok ⟨lockBefore, first, partition, sources, actions, false⟩, history)
        | some (packageId, range) =>
          let history' := history ++ [retryRequest s sources graph project spec actions first packageId range]
          match answer engine project history' with
          | .error e => (.error e, history')
          | .ok second =>
            (.ok ⟨lockBefore, second,
              .ofFailed (PackageAction.applyAll spec actions).frameworks
                (partition.failed ++ second.failedFrameworks), sources, actions, true⟩, history') := by
  intro history
  -- the records of the log differ from step to step, the requests do not
  have hfirst : ∀ records, (restore engine s sources (graph.withProject (PackageAction.applyAll spec actions))
      project).runFrom ⟨t.requests, records⟩ = (answer engine project history, ⟨history, records⟩) :=
    fun records => runFrom_restore ..
  simp only [decide, Previewing.asked_bind, Previewing.runFrom_logAll, hfirst]
  cases answer engine project history with
  | error e => rfl
  | ok first =>
    have hsecond : ∀ packageId range records, (restore engine s sources (graph.withProject
        (spec.setDependency packageId range (some (firstPartition spec actions first).succeeded)))
          project).runFrom ⟨history, records⟩ =
        (answer engine project (history ++ [retryRequest s sources graph project spec actions first packageId range]),
          ⟨history ++ [retryRequest s sources graph project spec actions first packageId range], records⟩) :=
      fun packageId range records => runFrom_restore ..
    have hpartition : FrameworkPartition.ofFailed (PackageAction.applyAll spec actions).frameworks
        first.failedFrameworks = firstPartition spec actions first := rfl
    simp only [hpartition]
    cases retried? spec actions first (firstPartition spec actions first) with
    | none => rfl
    | some found =>
      simp only [Previewing.asked_bind, Previewing.runFrom_logAll, hsecond]
      cases answer engine project
        (history ++ [retryRequest s sources graph project spec actions first found.1 found.2]) with
      | error e => rfl
      | ok second => rfl

/-- What is logged at the end changes neither the decision nor the requests. -/
theorem asked_decide_then_log (lockBefore : Option β) (t : RestoreTrace) :
    (do
      let d ← decide engine s sources graph project spec actions lockBefore
      Previewing.logAll [finishedLog project d]
      return d : Previewing (RestoreDecision β)).asked t =
      (decide engine s sources graph project spec actions lockBefore).asked t := by
  simp only [Previewing.asked_bind, Previewing.runFrom_logAll]
  unfold Previewing.asked
  rcases (decide engine s sources graph project spec actions lockBefore).runFrom t with ⟨_ | _, _⟩ <;> rfl

end

variable (engine : RestoreEngine β) {s : Settings} {graph : DependencyGraph} {project : String}
  {spec : PackageSpec} {actions : List PackageAction}

/-- A preview whose sources are no list of texts ends before it asks anything. -/
theorem asked_run_of_error (hfind : graph.find? project = some spec) (hactions : actions ≠ []) (lock : Option β)
    {e : Error} (hs : s.sources = .error e) :
    (run engine s graph project actions lock).asked .empty = (.error e, []) := by
  have hempty : actions.isEmpty = false := by simpa using hactions
  simp only [run, hempty, hfind, hs]
  rfl

/-- A preview of a project of the graph asks for the unchanged project if there is no lock, and decides then. -/
theorem asked_run (hfind : graph.find? project = some spec) (hactions : actions ≠ []) (lock : Option β)
    {configured : List String} (hs : s.sources = .ok configured) :
    let sources := PackageAction.consultedSources actions configured
    let opening := [request s sources graph project]
    (run engine s graph project actions lock).asked .empty =
      match lock with
      | some lock => (decide engine s sources graph project spec actions (some lock)).asked .empty
      | none =>
        match answer engine project opening with
        | .error e => (.error e, opening)
        | .ok r => (decide engine s sources graph project spec actions r.lock).asked ⟨opening, []⟩ := by
  intro sources opening
  have hempty : actions.isEmpty = false := by simpa using hactions
  -- A run logs what was decided, so `decide` is put in the same form first.
  simp only [← asked_decide_then_log]
  simp only [run, hempty, hfind, hs, Bool.false_eq_true, if_false]
  rw [Previewing.asked_bind, Previewing.runFrom_lift]
  show Previewing.asked (_ >>= _) _ = _
  rw [Previewing.asked_bind]
  cases lock with
  | some lock => rfl
  | none =>
    have hopening : RestoreTrace.empty.requests ++ [request s sources graph project] = opening := rfl
    rw [runFrom_baseline_none, hopening]
    cases answer engine project opening with
    | error e => rfl
    | ok r => rfl

/-! ## The protocol -/

/-- The request for the graph as it is asks for the specification that the graph has of the project. -/
theorem request_asksFor (s : Settings) (sources : List String) (hfind : graph.find? project = some spec) :
    (request s sources graph project).AsksFor s sources graph project spec :=
  ⟨rfl, hfind, fun _ _ => rfl, rfl, rfl, rfl, rfl, rfl, rfl⟩

/-- A graph in which a project was replaced under its own name asks for the replacement. -/
theorem request_withProject_asksFor (s : Settings) (sources : List String) (hfind : graph.find? project = some spec)
    {target : PackageSpec} (hname : target.uniqueName = project) :
    (request s sources (graph.withProject target) project).AsksFor s sources graph project target where
  roots := rfl
  target := DependencyGraph.find?_withProject hname
  others := fun _ hother => DependencyGraph.find?_withProject_of_ne hname hother
  names := DependencyGraph.names_withProject hname hfind
  sources := rfl
  preview := rfl
  throttled := rfl
  noCache := rfl
  ignoreFailedSources := rfl

/-- The requests of a preview by stage: for the unchanged project, for the changed project, and for a single new
package in the frameworks that succeeded. -/
structure Stages (engine : RestoreEngine β) (s : Settings) (sources : List String) (graph : DependencyGraph)
    (project : String) (spec : PackageSpec) (actions : List PackageAction) (lock : Option β)
    (opening changed retry : List RestoreRequest) : Prop where
  /-- The unchanged project is asked for only without a lock to compare with. -/
  opening_of_lock : lock.isSome → opening = []
  opening_of_none : lock = none → ∃ q, opening = [q] ∧ q.AsksFor s sources graph project spec
  /-- The changed project is asked for unless the engine failed before. -/
  changed_eq_nil_iff : changed = [] ↔ lock = none ∧ ∃ e, answer engine project opening = .error e
  changed_of_ne_nil : changed ≠ [] →
    ∃ q, changed = [q] ∧ q.AsksFor s sources graph project (PackageAction.applyAll spec actions)
  /-- A package is tried once more exactly if the first attempt makes a second one due. -/
  retry_ne_nil_iff : retry ≠ [] ↔
    changed ≠ [] ∧ ∃ first packageId range, answer engine project (opening ++ changed) = .ok first ∧
      RetryDue spec actions first packageId range
  retry_of_due : ∀ first packageId range, answer engine project (opening ++ changed) = .ok first →
    RetryDue spec actions first packageId range →
      ∃ q, retry = [q] ∧ q.AsksFor s sources graph project
        (spec.setDependency packageId range (some (firstPartition spec actions first).succeeded))

/-- Once the project to compare with is known, the changed project is asked for, and once more if that is due. -/
theorem asked_decide_requests (s : Settings) (sources : List String)
    (graph : DependencyGraph) (project : String) (spec : PackageSpec) (actions : List PackageAction)
    (lockBefore : Option β) (t : RestoreTrace) :
    let history := t.requests ++ [changedRequest s sources graph project spec actions]
    ∃ retry, ((decide engine s sources graph project spec actions lockBefore).asked t).2 = history ++ retry ∧
      (retry ≠ [] ↔ ∃ first packageId range, answer engine project history = .ok first ∧
        RetryDue spec actions first packageId range) ∧
      ∀ first packageId range, answer engine project history = .ok first →
        RetryDue spec actions first packageId range →
          retry = [retryRequest s sources graph project spec actions first packageId range] := by
  intro history
  have hasked := asked_decide engine s sources graph project spec actions lockBefore t
  simp only at hasked
  rw [hasked]
  cases hfirst : answer engine project history with
  | error e => exact ⟨[], by simp [history], by simp, by simp⟩
  | ok first =>
    simp only
    cases hdue : retried? spec actions first (firstPartition spec actions first) with
    | none =>
      -- no second attempt is due for any package, since none was picked
      have hnot : ∀ packageId range, ¬ RetryDue spec actions first packageId range := by
        intro packageId range h
        rw [(retried?_eq_some_iff ..).2 h] at hdue
        cases hdue
      refine ⟨[], by simp [history], by simp [hnot], ?_⟩
      rintro other packageId range ⟨rfl⟩ h
      exact absurd h (hnot packageId range)
    | some found =>
      have hfound : RetryDue spec actions first found.1 found.2 := (retried?_eq_some_iff ..).1 hdue
      refine ⟨[retryRequest s sources graph project spec actions first found.1 found.2], ?_, ?_, ?_⟩
      · simp only [history]
        split <;> rfl
      · simp only [ne_eq, List.cons_ne_nil, not_false_eq_true, true_iff]
        exact ⟨first, found.1, found.2, rfl, hfound⟩
      · rintro other packageId range ⟨rfl⟩ h
        have hsame : found = (packageId, range) := by
          simpa [(retried?_eq_some_iff ..).2 h] using hdue.symm
        rw [hsame]

/-- A preview whose engine fails on the unchanged project asks for nothing else. -/
theorem requests_of_failed_opening (hfind : graph.find? project = some spec) (hactions : actions ≠ [])
    {configured : List String} (hs : s.sources = .ok configured) {e : Error}
    (he : answer engine project [request s (PackageAction.consultedSources actions configured) graph project] =
      .error e) :
    (run engine s graph project actions none).outcome.2.requests =
      [request s (PackageAction.consultedSources actions configured) graph project] := by
  show ((run engine s graph project actions none).asked .empty).2 = _
  rw [asked_run engine hfind hactions none hs]
  simp only [he]

/-- Every other preview asks for the changed project after that, and once more exactly if that is due. -/
theorem requests_after_opening (hfind : graph.find? project = some spec) (hactions : actions ≠ [])
    {configured : List String} (hs : s.sources = .ok configured) (lock : Option β)
    (hopen : lock = none → ∃ r,
      answer engine project [request s (PackageAction.consultedSources actions configured) graph project] = .ok r) :
    let sources := PackageAction.consultedSources actions configured
    let history := openingRequests s sources graph project lock ++
      [changedRequest s sources graph project spec actions]
    ∃ retry, (run engine s graph project actions lock).outcome.2.requests = history ++ retry ∧
      (retry ≠ [] ↔ ∃ first packageId range, answer engine project history = .ok first ∧
        RetryDue spec actions first packageId range) ∧
      ∀ first packageId range, answer engine project history = .ok first →
        RetryDue spec actions first packageId range →
          retry = [retryRequest s sources graph project spec actions first packageId range] := by
  intro sources history
  show ∃ retry, ((run engine s graph project actions lock).asked .empty).2 = _ ∧ _
  rw [asked_run engine hfind hactions lock hs]
  -- with a lock the change is the first request, and without one it follows the answer to the opening
  cases lock with
  | some lock => exact asked_decide_requests engine s sources graph project spec actions (some lock) .empty
  | none =>
    obtain ⟨r, hr⟩ := hopen rfl
    simp only [hr]
    exact asked_decide_requests engine s sources graph project spec actions r.lock ⟨_, []⟩

/-- Once the project to compare with is known, the requests come in stages. -/
theorem stages_after_opening {sources : List String} (hkeys : graph.IsKeyed) (hfind : graph.find? project = some spec)
    (lock : Option β) (hopen : lock = none → ∃ r, answer engine project [request s sources graph project] = .ok r)
    {retry : List RestoreRequest}
    (hiff : retry ≠ [] ↔ ∃ first packageId range,
      answer engine project (openingRequests s sources graph project lock ++
        [changedRequest s sources graph project spec actions]) = .ok first ∧
      RetryDue spec actions first packageId range)
    (hretry : ∀ first packageId range,
      answer engine project (openingRequests s sources graph project lock ++
        [changedRequest s sources graph project spec actions]) = .ok first →
      RetryDue spec actions first packageId range →
        retry = [retryRequest s sources graph project spec actions first packageId range]) :
    Stages engine s sources graph project spec actions lock (openingRequests s sources graph project lock)
      [changedRequest s sources graph project spec actions] retry := by
  have hname : spec.uniqueName = project := hkeys.uniqueName_eq hfind
  -- each stage has at most one request, so every field is about that request alone
  constructor
  case opening_of_lock =>
    intro hlock
    obtain ⟨_, rfl⟩ := Option.isSome_iff_exists.1 hlock
    rfl
  case opening_of_none =>
    rintro rfl
    exact ⟨_, rfl, request_asksFor s sources hfind⟩
  case changed_eq_nil_iff =>
    refine iff_of_false (by simp) ?_
    rintro ⟨rfl, e, he⟩
    obtain ⟨r, hr⟩ := hopen rfl
    exact absurd (he.symm.trans hr) (by simp)
  case changed_of_ne_nil =>
    intro _
    refine ⟨_, rfl, request_withProject_asksFor s _ hfind ?_⟩
    rw [PackageAction.uniqueName_applyAll, hname]
  case retry_ne_nil_iff => simpa using hiff
  case retry_of_due =>
    intro first packageId range hfirst hdue
    refine ⟨_, hretry first packageId range hfirst hdue, request_withProject_asksFor s _ hfind ?_⟩
    rw [PackageSpec.uniqueName_setDependency, hname]

/-- An engine that fails on the unchanged project ends the preview in its first stage. -/
theorem stages_of_failed_opening {sources : List String} (hfind : graph.find? project = some spec) {e : Error}
    (he : answer engine project [request s sources graph project] = .error e) :
    Stages engine s sources graph project spec actions none [request s sources graph project] [] [] := by
  constructor
  case opening_of_lock => simp
  case opening_of_none => exact fun _ => ⟨_, rfl, request_asksFor s sources hfind⟩
  case changed_eq_nil_iff => simp [he]
  case changed_of_ne_nil => simp
  case retry_ne_nil_iff => simp
  case retry_of_due => simp [he]

/-- The requests of a preview come in stages, whatever the engine answers. A preview whose sources are no list of
texts makes none. -/
theorem requests_have_stages (s : Settings) (hkeys : graph.IsKeyed) (hfind : graph.find? project = some spec)
    (hactions : actions ≠ []) (lock : Option β) :
    match s.sources with
    | .error _ => (run engine s graph project actions lock).outcome.2.requests = []
    | .ok configured =>
      ∃ opening changed retry,
        (run engine s graph project actions lock).outcome.2.requests = opening ++ changed ++ retry ∧
        Stages engine s (PackageAction.consultedSources actions configured) graph project spec actions lock
          opening changed retry := by
  cases hs : s.sources with
  | error e =>
    show ((run engine s graph project actions lock).asked .empty).2 = []
    rw [asked_run_of_error engine hfind hactions lock hs]
  | ok configured =>
    simp only
    by_cases hopen : lock = none → ∃ r,
        answer engine project [request s (PackageAction.consultedSources actions configured) graph project] = .ok r
    · obtain ⟨retry, hrequests, hiff, hretry⟩ := requests_after_opening engine hfind hactions hs lock hopen
      exact ⟨_, _, retry, hrequests, stages_after_opening engine hkeys hfind lock hopen hiff hretry⟩
    · -- the engine failed on the unchanged project, which is the only request then
      obtain ⟨rfl, hfails⟩ := Classical.not_imp.1 hopen
      cases he : answer engine project
          [request s (PackageAction.consultedSources actions configured) graph project] with
      | ok r => exact absurd ⟨r, he⟩ hfails
      | error e =>
        exact ⟨[_], [], [], requests_of_failed_opening engine hfind hactions hs he,
          stages_of_failed_opening engine hfind he⟩

/-! ## A package that suits some frameworks only -/

def net48 : TargetFramework := .plain ⟨Moniker.netFramework, [4, 8], "", ""⟩
def net6 : TargetFramework := .plain ⟨Moniker.netCoreApp, [6, 0], "", ""⟩
def netStandard2 : TargetFramework := .plain ⟨Moniker.netStandard, [2, 0], "", ""⟩

/-- A project for three frameworks, without dependencies. -/
def threeTargets : PackageSpec :=
  ⟨"App", "/src/App/App.csproj", [⟨net48, [], []⟩, ⟨net6, [], []⟩, ⟨netStandard2, [], []⟩], [], none,
    some ⟨.packageReference, "/src/App/App.csproj", "/src/App/App.csproj", "App", "", "", [], [], false, []⟩,
    PackageSpec.defaultVersion⟩

/-- The graph of that project. -/
def threeTargetsGraph : DependencyGraph := ⟨[(threeTargets.filePath, threeTargets)], [threeTargets.filePath]⟩

theorem isKeyed_threeTargetsGraph : threeTargetsGraph.IsKeyed := by
  intro e he
  obtain rfl := List.mem_singleton.1 he
  rfl

theorem find?_threeTargetsGraph : threeTargetsGraph.find? threeTargets.filePath = some threeTargets := by
  simp [threeTargetsGraph, Graph.find?, OrderedMap.get?]

/-- The built-in settings where no variable is set. -/
def plainSettings : Settings := .defaults ⟨[], "/tmp", "/"⟩

/-- An engine for which a package does not suit a framework. -/
def rejecting (packageId : String) (f : TargetFramework) : RestoreEngine Unit := fun history =>
  .ok <| (history.getLast?.bind fun q => q.graph.find? threeTargets.filePath).toList.map fun spec =>
    let checks := spec.targets.map fun g =>
      ⟨g.framework, !(g.framework == f && g.dependencies.any (·.declares packageId))⟩
    ⟨threeTargets.filePath, checks.all CompatibilityCheck.success, checks, none⟩

/-- A package that does not suit .NET Framework takes a preview through all three stages. -/
theorem requests_have_three_stages :
    (run (rejecting "PackageX" net48) plainSettings threeTargetsGraph threeTargets.filePath
      [.install "PackageX" .all none []] none).outcome.2.requests.length = 3 ∧
    ∃ opening changed retry,
      (run (rejecting "PackageX" net48) plainSettings threeTargetsGraph threeTargets.filePath
        [.install "PackageX" .all none []] none).outcome.2.requests = opening ++ changed ++ retry ∧
      Stages (rejecting "PackageX" net48) plainSettings [] threeTargetsGraph threeTargets.filePath threeTargets
        [.install "PackageX" .all none []] none opening changed retry :=
  ⟨by decide +kernel,
    requests_have_stages (rejecting "PackageX" net48) plainSettings isKeyed_threeTargetsGraph
      find?_threeTargetsGraph (by simp) none⟩

end RestorePreview
end PackageGraph
