import PackageGraph.Proofs.Restore.Narrowing
/-!
# How a decision divides the frameworks

A decision divides the target frameworks of the changed project into those that succeeded and those that failed, by
their short names. A framework failed if one of its checks did, in the first attempt or in the second one, so that a
second attempt never makes up for the first. It restores the package in the frameworks alone that did not fail before.
-/
namespace PackageGraph

/-! ## Failed checks -/

/-- A framework with this short name has a failed check. -/
def RestoreResult.Fails {β : Type} (r : RestoreResult β) (f : TargetFramework) : Prop :=
  ∃ c ∈ r.checks, c.success = false ∧ c.framework.shortName = f.shortName

namespace FrameworkPartition

theorem isAmong_append (failed more : List TargetFramework) (f : TargetFramework) :
    isAmong (failed ++ more) f = (isAmong failed f || isAmong more f) := List.any_append

/-- Frameworks that are kept once for each short name have the short names of all of them. -/
theorem isAmong_kept (frameworks : List TargetFramework) (f : TargetFramework) :
    isAmong (frameworks.foldl
      (fun kept g => if kept.any (·.shortName == g.shortName) then kept else kept ++ [g]) []) f =
        isAmong frameworks f := by
  -- the last framework is the one that is kept or not, so the induction goes from the end
  induction frameworks using List.reverseRecOn with
  | nil => rfl
  | append_singleton frameworks g ih =>
    rw [List.foldl_append, List.foldl_cons, List.foldl_nil, isAmong_append, ← ih]
    split
    · rename_i hkept
      cases hg : isAmong [g] f with
      | false => simp
      | true =>
        -- a framework with the short name of the last one was kept before
        have hshort : g.shortName = f.shortName := by simpa [isAmong] using hg
        rw [hshort] at hkept
        rw [isAmong, hkept, Bool.true_or]
    · rw [isAmong_append]

/-- The frameworks that failed are those with a failed check. -/
theorem isAmong_failedFrameworks {β : Type} (r : RestoreResult β) (f : TargetFramework) :
    isAmong r.failedFrameworks f = true ↔ r.Fails f := by
  rw [RestoreResult.failedFrameworks, isAmong_kept]
  simp [isAmong, RestoreResult.Fails]

/-! ## Divided frameworks -/

/-- The partition divides a list of frameworks in its order, and no short name is on both sides. -/
structure Divides (p : FrameworkPartition) (all : List TargetFramework) : Prop where
  succeeded : p.succeeded.Sublist all
  failed : p.failed.Sublist all
  once : (p.succeeded ++ p.failed).Perm all
  shortNames : ∀ f ∈ p.succeeded, ∀ g ∈ p.failed, f.shortName ≠ g.shortName

/-- Frameworks are among the failed ones by their short names. -/
theorem isAmong_congr (failed : List TargetFramework) {f g : TargetFramework} (h : f.shortName = g.shortName) :
    isAmong failed f = isAmong failed g := by
  rw [isAmong, isAmong, h]

/-- The failed frameworks and the others divide all frameworks. -/
theorem divides_ofFailed (all failed : List TargetFramework) : (ofFailed all failed).Divides all where
  succeeded := List.filter_sublist
  failed := List.filter_sublist
  once := by
    have hperm := List.filter_append_perm (fun f => !isAmong failed f) all
    simpa [ofFailed] using hperm
  shortNames f hf g hg hshort := by
    have hsucceeded := (List.mem_filter.1 hf).2
    have hfailed := (List.mem_filter.1 hg).2
    rw [isAmong_congr failed hshort, hfailed] at hsucceeded
    cases hsucceeded

theorem mem_failed_ofFailed {all failed : List TargetFramework} {f : TargetFramework} (hf : f ∈ all) :
    f ∈ (ofFailed all failed).failed ↔ isAmong failed f = true := by
  simp [ofFailed, List.mem_filter, hf]

theorem mem_succeeded_ofFailed {all failed : List TargetFramework} {f : TargetFramework} :
    f ∈ (ofFailed all failed).succeeded ↔ f ∈ all ∧ isAmong failed f = false := by
  simp [ofFailed, List.mem_filter]

/-- The frameworks that failed before are among those that failed in all. -/
theorem isAmong_failed_ofFailed {all failed : List TargetFramework} {f : TargetFramework} (hf : f ∈ all) :
    isAmong (ofFailed all failed).failed f = isAmong failed f := by
  cases h : isAmong failed f with
  | true => exact List.any_eq_true.2 ⟨f, (mem_failed_ofFailed hf).2 h, beq_self_eq_true _⟩
  | false =>
    rw [isAmong, List.any_eq_false]
    intro g hg hshort
    have hg' : isAmong failed g = true := (List.mem_filter.1 hg).2
    rw [isAmong_congr failed (beq_iff_eq.1 hshort), h] at hg'
    cases hg'

end FrameworkPartition

namespace RestorePreview

variable {β : Type}

/-! ## How a decision is made -/

/-- The decision after a first attempt that makes no second one due. -/
def firstDecision (spec : PackageSpec) (sources : List String) (actions : List PackageAction) (lockBefore : Option β)
    (first : RestoreResult β) : RestoreDecision β :=
  ⟨lockBefore, first, firstPartition spec actions first, sources, actions, false⟩

/-- The decision after a second attempt. -/
def retryDecision (spec : PackageSpec) (sources : List String) (actions : List PackageAction) (lockBefore : Option β)
    (first second : RestoreResult β) : RestoreDecision β :=
  ⟨lockBefore, second, .ofFailed (PackageAction.applyAll spec actions).frameworks
    ((firstPartition spec actions first).failed ++ second.failedFrameworks), sources, actions, true⟩

/-- A decision is made after the first attempt, or after a second one that the first made due. -/
structure Decides (engine : RestoreEngine β) (s : Settings) (sources : List String) (graph : DependencyGraph)
    (project : String) (spec : PackageSpec) (actions : List PackageAction) (history : List RestoreRequest)
    (first : RestoreResult β) (d : RestoreDecision β) (requests : List RestoreRequest) : Prop where
  answered : answer engine project history = .ok first
  attempts :
    (d = firstDecision spec sources actions d.lockBefore first ∧ requests = history) ∨
      ∃ packageId range second, RetryDue spec actions first packageId range ∧
        requests = history ++ [retryRequest s sources graph project spec actions first packageId range] ∧
        answer engine project requests = .ok second ∧
        d = retryDecision spec sources actions d.lockBefore first second

variable {engine : RestoreEngine β} {s : Settings} {graph : DependencyGraph} {project : String}
  {spec : PackageSpec} {actions : List PackageAction} {d : RestoreDecision β}

/-- A decision that is made was made after one answer, or after a second one to a retry that was due. -/
theorem decides_of_asked_decide {sources : List String} {lockBefore : Option β} {t : RestoreTrace}
    (h : ((decide engine s sources graph project spec actions lockBefore).asked t).1 = .ok d) :
    ∃ first, Decides engine s sources graph project spec actions
      (t.requests ++ [changedRequest s sources graph project spec actions]) first d
      ((decide engine s sources graph project spec actions lockBefore).asked t).2 := by
  have hasked := asked_decide engine s sources graph project spec actions lockBefore t
  simp only at hasked
  -- the cases follow the requests: the change, whether a retry is due, and the answer to it
  cases hfirst : answer engine project (t.requests ++ [changedRequest s sources graph project spec actions]) with
  | error e =>
    simp only [hfirst] at hasked
    rw [hasked] at h
    cases h
  | ok first =>
    simp only [hfirst] at hasked
    refine ⟨first, hfirst, ?_⟩
    cases hdue : retried? spec actions first (firstPartition spec actions first) with
    | none =>
      simp only [hdue] at hasked
      rw [hasked] at h ⊢
      obtain rfl := Except.ok.inj h
      exact .inl ⟨rfl, rfl⟩
    | some found =>
      simp only [hdue] at hasked
      cases hsecond : answer engine project (t.requests ++ [changedRequest s sources graph project spec actions] ++
          [retryRequest s sources graph project spec actions first found.1 found.2]) with
      | error e =>
        simp only [hsecond] at hasked
        rw [hasked] at h
        cases h
      | ok second =>
        simp only [hsecond] at hasked
        rw [hasked] at h ⊢
        obtain rfl := Except.ok.inj h
        exact .inr ⟨found.1, found.2, second, (retried?_eq_some_iff ..).1 hdue, rfl, hsecond, rfl⟩

/-- A preview that makes a decision was given actions on a project of the graph and sources that it could read, and its
first attempt was answered. -/
theorem decides_of_run {lock : Option β} (h : ((run engine s graph project actions lock).asked .empty).1 = .ok d) :
    ∃ spec configured first, graph.find? project = some spec ∧ s.sources = .ok configured ∧
      firstResult engine s (PackageAction.consultedSources actions configured) graph project spec actions lock =
        .ok first ∧
      Decides engine s (PackageAction.consultedSources actions configured) graph project spec actions
        (openingRequests s (PackageAction.consultedSources actions configured) graph project lock ++
          [changedRequest s (PackageAction.consultedSources actions configured) graph project spec actions])
        first d ((run engine s graph project actions lock).asked .empty).2 := by
  have hactions : actions ≠ [] := by
    rintro rfl
    cases h
  -- whatever stops the run before the change leaves no decision
  cases hfind : graph.find? project with
  | none =>
    have hempty : actions.isEmpty = false := by simpa using hactions
    simp only [run, hempty, hfind] at h
    cases h
  | some spec =>
    cases hs : s.sources with
    | error e =>
      rw [asked_run_of_error engine hfind hactions lock hs] at h
      cases h
    | ok configured =>
      have hasked := asked_run engine hfind hactions lock hs
      simp only at hasked
      rw [hasked] at h ⊢
      cases lock with
      | some lock =>
        obtain ⟨first, hdecides⟩ := decides_of_asked_decide h
        exact ⟨spec, configured, first, rfl, rfl, hdecides.answered, hdecides⟩
      | none =>
        cases hopen : answer engine project
            [request s (PackageAction.consultedSources actions configured) graph project] with
        | error e =>
          simp only [hopen] at h
          cases h
        | ok r =>
          simp only [hopen] at h ⊢
          obtain ⟨first, hdecides⟩ := decides_of_asked_decide h
          refine ⟨spec, configured, first, rfl, rfl, ?_, hdecides⟩
          exact (firstResult_eq_ok_iff ..).2 ⟨fun _ => ⟨r, hopen⟩, hdecides.answered⟩

/-! ## The frameworks of a decision -/

variable {sources : List String} {history requests : List RestoreRequest} {first : RestoreResult β}

/-- The package that is tried once more is declared in the frameworks alone that did not fail before. -/
theorem declaresIn_retry_iff {packageId : String} {range : VersionRange}
    (hdue : RetryDue spec actions first packageId range) (f : TargetFramework) :
    (spec.setDependency packageId range (some (firstPartition spec actions first).succeeded)).DeclaresIn packageId f ↔
      f ∈ (firstPartition spec actions first).succeeded := by
  obtain ⟨source, frameworks, hone⟩ := hdue.single
  constructor
  · intro hdeclares
    obtain ⟨hall, hnone⟩ := PackageSpec.not_declares_of_absent hdue.isNew
    rcases (PackageSpec.declaresIn_setDependency_iff range hall _ f).1 hdeclares with hold | ⟨hf, c, hc, hshort⟩
    · exact absurd hold (hnone f)
    · -- frameworks with one short name fare alike
      have hchanged : f ∈ (PackageAction.applyAll spec actions).frameworks := by
        rw [hone]
        rwa [← PackageSpec.frameworks_setDependency spec packageId range (PackageAction.selection frameworks)] at hf
      have hsucceeded := (FrameworkPartition.mem_succeeded_ofFailed.1 hc).2
      rw [FrameworkPartition.isAmong_congr _ hshort] at hsucceeded
      exact FrameworkPartition.mem_succeeded_ofFailed.2 ⟨hchanged, hsucceeded⟩
  · exact fun hf => (newlyDeclares_of_succeeded hone hdue hf).1

/-- A framework of the changed project failed in the first attempt if one of its checks did. -/
theorem mem_failed_firstPartition {f : TargetFramework} (hf : f ∈ (PackageAction.applyAll spec actions).frameworks) :
    f ∈ (firstPartition spec actions first).failed ↔ first.Fails f := by
  rw [firstPartition, FrameworkPartition.mem_failed_ofFailed hf, FrameworkPartition.isAmong_failedFrameworks]

/-- The frameworks of the changed project succeed unless the answer to the change fails them. -/
theorem mem_succeeded_firstPartition {f : TargetFramework} :
    f ∈ (firstPartition spec actions first).succeeded ↔
      f ∈ (PackageAction.applyAll spec actions).frameworks ∧ ¬ first.Fails f := by
  rw [firstPartition, FrameworkPartition.mem_succeeded_ofFailed, Bool.eq_false_iff, ne_eq,
    FrameworkPartition.isAmong_failedFrameworks]

/-- After a second attempt, the frameworks that failed are those that failed in either. -/
theorem mem_failed_retryDecision {lockBefore : Option β} {second : RestoreResult β} {f : TargetFramework}
    (hf : f ∈ (PackageAction.applyAll spec actions).frameworks) :
    f ∈ (retryDecision spec sources actions lockBefore first second).partition.failed ↔
      first.Fails f ∨ second.Fails f := by
  rw [retryDecision, FrameworkPartition.mem_failed_ofFailed hf, FrameworkPartition.isAmong_append, firstPartition,
    FrameworkPartition.isAmong_failed_ofFailed hf, Bool.or_eq_true, FrameworkPartition.isAmong_failedFrameworks,
    FrameworkPartition.isAmong_failedFrameworks]

/-- What the second attempt asked for: its package in the frameworks that did not fail in the first one. -/
structure NarrowedRetry (engine : RestoreEngine β) (project : String) (spec : PackageSpec)
    (actions : List PackageAction) (first : RestoreResult β) (d : RestoreDecision β) (requests : List RestoreRequest)
    (packageId : String) (target : PackageSpec) : Prop where
  due : ∃ range, RetryDue spec actions first packageId range
  asked : ∃ q, requests.getLast? = some q ∧ q.graph.find? project = some target
  answered : answer engine project requests = .ok d.result
  declaresForAll : target.declaresForAll packageId = false
  declaresIn_iff : ∀ f, target.DeclaresIn packageId f ↔ f ∈ (firstPartition spec actions first).succeeded
  declaresIn_of_succeeded : ∀ f ∈ d.partition.succeeded, target.DeclaresIn packageId f
  not_declaresIn_of_failed : ∀ f, first.Fails f → ¬ target.DeclaresIn packageId f

/-- How a decision divides the frameworks of the changed project. -/
structure DividesFrameworks (engine : RestoreEngine β) (project : String) (spec : PackageSpec)
    (actions : List PackageAction) (first : RestoreResult β) (d : RestoreDecision β)
    (requests : List RestoreRequest) : Prop where
  nodup : (PackageAction.applyAll spec actions).frameworks.Nodup
  divides : d.partition.Divides (PackageAction.applyAll spec actions).frameworks
  result_of_first : d.retried = false → d.result = first
  failed_of_first : d.retried = false → ∀ f ∈ (PackageAction.applyAll spec actions).frameworks,
    (f ∈ d.partition.failed ↔ d.result.Fails f)
  failed_of_retry : d.retried = true → ∀ f ∈ (PackageAction.applyAll spec actions).frameworks,
    (f ∈ d.partition.failed ↔ first.Fails f ∨ d.result.Fails f)
  failed_before : ∀ f ∈ (firstPartition spec actions first).failed, f ∈ d.partition.failed
  retry : d.retried = true →
    ∃ packageId target, NarrowedRetry engine project spec actions first d requests packageId target

/-- Without a retry the frameworks are divided as the answer to the change says. -/
theorem dividesFrameworks_of_first {lockBefore : Option β}
    (hd : d = firstDecision spec sources actions lockBefore first) :
    DividesFrameworks engine project spec actions first d requests where
  nodup := nodup_distinct _
  divides := by
    subst hd
    exact FrameworkPartition.divides_ofFailed _ _
  result_of_first := by
    subst hd
    exact fun _ => rfl
  failed_of_first := by
    subst hd
    exact fun _ f hf => mem_failed_firstPartition hf
  failed_of_retry := by
    subst hd
    nofun
  failed_before := by
    subst hd
    exact fun _ => id
  retry := by
    subst hd
    nofun

/-- After a retry the frameworks that failed before are failed, and so are those that fail in it. -/
theorem dividesFrameworks_of_retry (hkeys : graph.IsKeyed) (hfind : graph.find? project = some spec)
    {packageId : String} {range : VersionRange} {second : RestoreResult β} {lockBefore : Option β}
    (hdue : RetryDue spec actions first packageId range)
    (hrequests : requests =
      history ++ [retryRequest s sources graph project spec actions first packageId range])
    (hsecond : answer engine project requests = .ok second)
    (hd : d = retryDecision spec sources actions lockBefore first second) :
    DividesFrameworks engine project spec actions first d requests := by
  have hname : spec.uniqueName = project := hkeys.uniqueName_eq hfind
  have hfailed : ∀ f ∈ (PackageAction.applyAll spec actions).frameworks,
      (f ∈ d.partition.failed ↔ first.Fails f ∨ d.result.Fails f) := by
    subst hd
    exact fun f hf => mem_failed_retryDecision hf
  have hdivides : d.partition.Divides (PackageAction.applyAll spec actions).frameworks := by
    subst hd
    exact FrameworkPartition.divides_ofFailed _ _
  have hbefore : ∀ f ∈ (firstPartition spec actions first).failed, f ∈ d.partition.failed := by
    intro f hf
    have hmem : f ∈ (PackageAction.applyAll spec actions).frameworks := (List.mem_filter.1 hf).1
    exact (hfailed f hmem).2 (.inl ((mem_failed_firstPartition hmem).1 hf))
  constructor
  case nodup => exact nodup_distinct _
  case divides => exact hdivides
  case result_of_first =>
    subst hd
    nofun
  case failed_of_first =>
    subst hd
    nofun
  case failed_of_retry => exact fun _ => hfailed
  case failed_before => exact hbefore
  case retry =>
    intro _
    refine ⟨packageId, spec.setDependency packageId range (some (firstPartition spec actions first).succeeded), ?_⟩
    constructor
    case due => exact ⟨range, hdue⟩
    case asked =>
      refine ⟨_, by rw [hrequests, List.getLast?_append, List.getLast?_singleton, Option.some_or], ?_⟩
      exact (request_withProject_asksFor s sources hfind
        ((PackageSpec.uniqueName_setDependency ..).trans hname)).target
    case answered =>
      subst hd
      exact hsecond
    case declaresForAll =>
      rw [PackageSpec.declaresForAll_setDependency]
      exact (PackageSpec.not_declares_of_absent hdue.isNew).1
    case declaresIn_iff => exact declaresIn_retry_iff hdue
    case declaresIn_of_succeeded =>
      intro f hf
      -- a framework that succeeded in the end did not fail in the first attempt
      have hmem : f ∈ (PackageAction.applyAll spec actions).frameworks := hdivides.succeeded.subset hf
      have hnot : ¬ first.Fails f := fun hfails =>
        hdivides.shortNames f hf f ((hfailed f hmem).2 (.inl hfails)) rfl
      exact (declaresIn_retry_iff hdue f).2 (mem_succeeded_firstPartition.2 ⟨hmem, hnot⟩)
    case not_declaresIn_of_failed =>
      intro f hfails hdeclares
      exact (mem_succeeded_firstPartition.1 ((declaresIn_retry_iff hdue f).1 hdeclares)).2 hfails

/-- Every decision divides the frameworks of the changed project by how they fared, whatever the engine answers. -/
theorem decision_divides_frameworks (engine : RestoreEngine β) (s : Settings) {graph : DependencyGraph}
    (hkeys : graph.IsKeyed) {project : String} {actions : List PackageAction} {lock : Option β}
    {d : RestoreDecision β} (h : (run engine s graph project actions lock).outcome.1 = .ok d) :
    ∃ spec configured first, graph.find? project = some spec ∧ s.sources = .ok configured ∧
      firstResult engine s (PackageAction.consultedSources actions configured) graph project spec actions lock =
        .ok first ∧
      DividesFrameworks engine project spec actions first d
        (run engine s graph project actions lock).outcome.2.requests := by
  obtain ⟨spec, configured, first, hfind, hs, hfirst, hdecides⟩ := decides_of_run h
  refine ⟨spec, configured, first, hfind, hs, hfirst, ?_⟩
  rcases hdecides.attempts with ⟨hd, -⟩ | ⟨packageId, range, second, hdue, hrequests, hsecond, hd⟩
  · exact dividesFrameworks_of_first hd
  · exact dividesFrameworks_of_retry hkeys hfind hdue hrequests hsecond hd

/-- The preview of a package that does not suit .NET Framework. -/
def unsuitedPreview : Previewing (RestoreDecision Unit) :=
  run (rejecting "PackageX" net48) plainSettings threeTargetsGraph threeTargets.filePath
    [.install "PackageX" .all none []] none

/-- The package is tried once more for .NET and .NET Standard, which succeed. -/
theorem decision_divides_three_targets :
    ∃ d, unsuitedPreview.outcome.1 = .ok d ∧ d.retried = true ∧
      d.partition.succeeded = [net6, netStandard2] ∧ d.partition.failed = [net48] ∧
      ∃ spec configured first, threeTargetsGraph.find? threeTargets.filePath = some spec ∧
        plainSettings.sources = .ok configured ∧
        firstResult (rejecting "PackageX" net48) plainSettings
          (PackageAction.consultedSources [.install "PackageX" .all none []] configured) threeTargetsGraph
          threeTargets.filePath spec [.install "PackageX" .all none []] none = .ok first ∧
        DividesFrameworks (rejecting "PackageX" net48) threeTargets.filePath spec
          [.install "PackageX" .all none []] first d unsuitedPreview.outcome.2.requests := by
  have hdecided : (unsuitedPreview.outcome.1.toOption.map fun d =>
      (d.retried, d.partition.succeeded, d.partition.failed)) = some (true, [net6, netStandard2], [net48]) := by
    decide +kernel
  cases h : unsuitedPreview.outcome.1 with
  | error e =>
    rw [h] at hdecided
    cases hdecided
  | ok d =>
    rw [h] at hdecided
    obtain ⟨hretried, hsucceeded, hfailed⟩ :
        d.retried = true ∧ d.partition.succeeded = [net6, netStandard2] ∧ d.partition.failed = [net48] := by
      simpa [Except.toOption] using hdecided
    exact ⟨d, rfl, hretried, hsucceeded, hfailed,
      decision_divides_frameworks (rejecting "PackageX" net48) plainSettings isKeyed_threeTargetsGraph h⟩

end RestorePreview
end PackageGraph
