import PackageGraph.Proofs.Restore.Protocol
/-!
# Where a preview adds a package

An install may name the frameworks that it is meant for. The first attempt adds the package nowhere else. The
second attempt adds it in every framework that did not fail, whether it was named or not, so that it goes beyond
the action exactly if a framework that was not named did not fail either.
-/
namespace PackageGraph

/-- The package is declared for the framework now, and was not before. -/
def PackageSpec.NewlyDeclares (before after : PackageSpec) (packageId : String) (f : TargetFramework) : Prop :=
  after.DeclaresIn packageId f ∧ ¬ before.DeclaresIn packageId f

/-- The request declares the package newly in frameworks with one of the short names alone, and not for all
frameworks together. -/
def RestoreRequest.AddsOnlyIn (q : RestoreRequest) (project : String) (spec : PackageSpec) (packageId : String)
    (frameworks : List TargetFramework) : Prop :=
  ∀ target, q.graph.find? project = some target →
    (∀ f, spec.NewlyDeclares target packageId f → f.shortName ∈ frameworks.map TargetFramework.shortName) ∧
    (target.declaresForAll packageId = true → spec.declaresForAll packageId = true)

/-- A package that is set in chosen frameworks is new in no framework without a chosen short name. -/
theorem PackageSpec.NewlyDeclares.chosen {spec : PackageSpec} {packageId : String} {range : VersionRange}
    {chosen : List TargetFramework} {f : TargetFramework}
    (h : spec.NewlyDeclares (spec.setDependency packageId range (some chosen)) packageId f) :
    ∃ c ∈ chosen, c.shortName = f.shortName := by
  obtain ⟨hafter, hbefore⟩ := h
  cases hall : spec.declaresForAll packageId with
  | true => exact absurd ((declaresIn_setDependency_of_forAll range _ hall f).1 hafter) hbefore
  | false =>
    rcases (declaresIn_setDependency_iff range hall chosen f).1 hafter with hold | ⟨-, hchosen⟩
    · exact absurd hold hbefore
    · exact hchosen

namespace RestorePreview

variable {β : Type}

/-- The result of the first attempt with the changed project, if a preview gets as far as that. -/
def firstResult (engine : RestoreEngine β) (s : Settings) (sources : List String) (graph : DependencyGraph)
    (project : String) (spec : PackageSpec) (actions : List PackageAction) :
    Option β → Except Error (RestoreResult β)
  | some _ => answer engine project [changedRequest s sources graph project spec actions]
  | none => do
    let opening := [request s sources graph project]
    let _ ← answer engine project opening
    answer engine project (opening ++ [changedRequest s sources graph project spec actions])

/-- The result of the change is there when the engine answers it, and the opening request before it if there is one. -/
theorem firstResult_eq_ok_iff (engine : RestoreEngine β) (s : Settings) (sources : List String)
    (graph : DependencyGraph) (project : String) (spec : PackageSpec) (actions : List PackageAction)
    (lock : Option β) (first : RestoreResult β) :
    firstResult engine s sources graph project spec actions lock = .ok first ↔
      (lock = none → ∃ r, answer engine project [request s sources graph project] = .ok r) ∧
      answer engine project (openingRequests s sources graph project lock ++
        [changedRequest s sources graph project spec actions]) = .ok first := by
  cases lock with
  | some lock => simp [firstResult, openingRequests]
  | none =>
    simp only [firstResult, openingRequests, forall_const]
    cases answer engine project [request s sources graph project] with
    | error e => simp [bind, Except.bind]
    | ok r => simp [bind, Except.bind]

/-! ## What each request adds -/

variable {engine : RestoreEngine β} {s : Settings} {graph : DependencyGraph} {project : String}
  {spec : PackageSpec} {packageId : String}

/-- A request for one target adds a package within frameworks if the target does. -/
theorem addsOnlyIn_iff {q : RestoreRequest} {sources : List String} {target : PackageSpec}
    {frameworks : List TargetFramework} (hq : q.AsksFor s sources graph project target) :
    q.AddsOnlyIn project spec packageId frameworks ↔
      (∀ f, spec.NewlyDeclares target packageId f → f.shortName ∈ frameworks.map TargetFramework.shortName) ∧
      (target.declaresForAll packageId = true → spec.declaresForAll packageId = true) := by
  unfold RestoreRequest.AddsOnlyIn
  constructor
  · exact fun h => h target hq.target
  · rintro h other hother
    obtain rfl : target = other := Option.some.inj (hq.target.symm.trans hother)
    exact h

/-- The unchanged project declares nothing newly. -/
theorem request_addsOnlyIn (s : Settings) (sources : List String) (hfind : graph.find? project = some spec)
    (packageId : String) (frameworks : List TargetFramework) :
    (request s sources graph project).AddsOnlyIn project spec packageId frameworks :=
  (addsOnlyIn_iff (request_asksFor s sources hfind)).2 ⟨fun _ h => absurd h.1 h.2, id⟩

/-- A project with a package set in chosen frameworks declares it newly within others exactly if the frameworks
that gain it have their short names. -/
theorem request_setDependency_addsOnlyIn_iff (s : Settings) (sources : List String) (hkeys : graph.IsKeyed)
    (hfind : graph.find? project = some spec) (range : VersionRange) (chosen frameworks : List TargetFramework) :
    (request s sources (graph.withProject (spec.setDependency packageId range (some chosen)))
      project).AddsOnlyIn project spec packageId frameworks ↔
      ∀ f, spec.NewlyDeclares (spec.setDependency packageId range (some chosen)) packageId f →
        f.shortName ∈ frameworks.map TargetFramework.shortName := by
  have hname : (spec.setDependency packageId range (some chosen)).uniqueName = project := by
    rw [PackageSpec.uniqueName_setDependency, hkeys.uniqueName_eq hfind]
  rw [addsOnlyIn_iff (request_withProject_asksFor s sources hfind hname),
    PackageSpec.declaresForAll_setDependency]
  exact and_iff_left id

section

variable {range : VersionRange} {source : Option String} {frameworks : List TargetFramework}
  {actions : List PackageAction} (hone : actions = [.install packageId range source frameworks])

include hone

/-- The first attempt adds the package in the frameworks that the action names. -/
theorem changedRequest_addsOnlyIn (s : Settings) (sources : List String) (hkeys : graph.IsKeyed)
    (hfind : graph.find? project = some spec) (hframeworks : frameworks ≠ []) :
    (changedRequest s sources graph project spec actions).AddsOnlyIn project spec packageId frameworks := by
  have hselection : PackageAction.selection frameworks = some frameworks := by
    simp [PackageAction.selection, hframeworks]
  have happly : PackageAction.applyAll spec actions = spec.setDependency packageId range (some frameworks) := by
    rw [hone, ← hselection]
    rfl
  rw [changedRequest, happly, request_setDependency_addsOnlyIn_iff s sources hkeys hfind]
  intro f hf
  obtain ⟨c, hc, hshort⟩ := hf.chosen
  exact List.mem_map.2 ⟨c, hc, hshort⟩

/-- A second attempt declares its package newly in every framework that succeeded. -/
theorem newlyDeclares_of_succeeded {first : RestoreResult β} (hdue : RetryDue spec actions first packageId range)
    {f : TargetFramework} (hf : f ∈ (firstPartition spec actions first).succeeded) :
    spec.NewlyDeclares (spec.setDependency packageId range (some (firstPartition spec actions first).succeeded))
      packageId f := by
  obtain ⟨hall, hnew⟩ := PackageSpec.not_declares_of_absent hdue.isNew
  have hmem : f ∈ spec.frameworks := by
    have hchanged : f ∈ (PackageAction.applyAll spec actions).frameworks := (List.mem_filter.1 hf).1
    rw [hone] at hchanged
    rwa [← PackageSpec.frameworks_setDependency spec packageId range (PackageAction.selection frameworks)]
  exact ⟨(PackageSpec.declaresIn_setDependency_iff range hall _ f).2 (.inr ⟨hmem, f, hf, rfl⟩), hnew f⟩

/-- The second attempt stays within the frameworks that the action names if those that succeeded do. -/
theorem retryRequest_addsOnlyIn_iff (s : Settings) (sources : List String) (hkeys : graph.IsKeyed)
    (hfind : graph.find? project = some spec) {first : RestoreResult β}
    (hdue : RetryDue spec actions first packageId range) :
    (retryRequest s sources graph project spec actions first packageId range).AddsOnlyIn project spec packageId
        frameworks ↔
      ∀ f ∈ (firstPartition spec actions first).succeeded,
        f.shortName ∈ frameworks.map TargetFramework.shortName := by
  rw [retryRequest, request_setDependency_addsOnlyIn_iff s sources hkeys hfind]
  constructor
  · exact fun h f hf => h f (newlyDeclares_of_succeeded hone hdue hf)
  · intro h f hf
    obtain ⟨c, hc, hshort⟩ := hf.chosen
    rw [← hshort]
    exact h c hc

/-- The requests before a second attempt add the package in the frameworks that the action names. -/
theorem history_addsOnlyIn (s : Settings) (sources : List String) (hkeys : graph.IsKeyed)
    (hfind : graph.find? project = some spec) (hframeworks : frameworks ≠ []) (lock : Option β) :
    ∀ q ∈ openingRequests s sources graph project lock ++ [changedRequest s sources graph project spec actions],
      q.AddsOnlyIn project spec packageId frameworks := by
  intro q hq
  rcases List.mem_append.1 hq with hq | hq
  · cases lock with
    | some lock => cases hq
    | none => exact List.mem_singleton.1 hq ▸ request_addsOnlyIn s sources hfind packageId frameworks
  · exact List.mem_singleton.1 hq ▸ changedRequest_addsOnlyIn hone s sources hkeys hfind hframeworks

/-- Second attempts, of which there is one if it is due, stay within the frameworks that the action names exactly if
the frameworks that succeeded do. -/
theorem retry_addsOnlyIn_iff (s : Settings) (sources : List String) (hkeys : graph.IsKeyed)
    (hfind : graph.find? project = some spec) {answered : Except Error (RestoreResult β)}
    {retry : List RestoreRequest}
    (hiff : retry ≠ [] ↔ ∃ first packageId range, answered = .ok first ∧ RetryDue spec actions first packageId range)
    (hretry : ∀ first packageId range, answered = .ok first → RetryDue spec actions first packageId range →
      retry = [retryRequest s sources graph project spec actions first packageId range]) :
    (∀ q ∈ retry, q.AddsOnlyIn project spec packageId frameworks) ↔
      ∀ first, answered = .ok first → RetryDue spec actions first packageId range →
        ∀ f ∈ (firstPartition spec actions first).succeeded,
          f.shortName ∈ frameworks.map TargetFramework.shortName := by
  constructor
  · intro h first hfirst hdue
    rw [hretry first packageId range hfirst hdue, List.forall_mem_singleton] at h
    exact (retryRequest_addsOnlyIn_iff hone s sources hkeys hfind hdue).1 h
  · intro h q hq
    -- the package that is tried once more is the one that the action installs
    obtain ⟨first, id, r, hfirst, hdue⟩ := hiff.1 (List.ne_nil_of_mem hq)
    obtain ⟨_, _, hsame⟩ := hdue.single
    obtain ⟨rfl, rfl, -⟩ : packageId = id ∧ range = r ∧ _ := by simpa [hone, PackageAction.install] using hsame
    rw [hretry first _ _ hfirst hdue] at hq
    exact List.mem_singleton.1 hq ▸
      (retryRequest_addsOnlyIn_iff hone s sources hkeys hfind hdue).2 (h first hfirst hdue)

/-- Every request of a preview that installs one package in named frameworks declares the package newly in those
alone, exactly if a second attempt is due only when every framework that succeeded is named. -/
theorem requests_add_only_in_iff (engine : RestoreEngine β) (s : Settings) (hkeys : graph.IsKeyed)
    (hfind : graph.find? project = some spec) (hframeworks : frameworks ≠ []) (lock : Option β) :
    (∀ q ∈ (run engine s graph project actions lock).outcome.2.requests,
      q.AddsOnlyIn project spec packageId frameworks) ↔
    ∀ configured first, s.sources = .ok configured →
      firstResult engine s (PackageAction.consultedSources actions configured) graph project spec actions lock =
        .ok first →
      RetryDue spec actions first packageId range →
      ∀ f ∈ (firstPartition spec actions first).succeeded,
        f.shortName ∈ frameworks.map TargetFramework.shortName := by
  have hactions : actions ≠ [] := by simp [hone]
  cases hs : s.sources with
  | error e =>
    have hnone : (run engine s graph project actions lock).outcome.2.requests = [] :=
      congrArg Prod.snd (asked_run_of_error engine hfind hactions lock hs)
    simp [hnone]
  | ok configured =>
    have hhistory := history_addsOnlyIn hone s (PackageAction.consultedSources actions configured) hkeys hfind
      hframeworks lock
    -- the requests before the retry add the package in its frameworks alone, so that only the retry is in question
    by_cases hopen : lock = none → ∃ r, answer engine project
        [request s (PackageAction.consultedSources actions configured) graph project] = .ok r
    · obtain ⟨retry, hrequests, hiff, hretry⟩ := requests_after_opening engine hfind hactions hs lock hopen
      rw [hrequests, List.forall_mem_append, and_iff_right hhistory,
        retry_addsOnlyIn_iff hone s _ hkeys hfind hiff hretry]
      constructor
      · rintro h _ first ⟨rfl⟩ hfirst
        exact h first ((firstResult_eq_ok_iff ..).1 hfirst).2
      · intro h first hfirst
        exact h configured first rfl ((firstResult_eq_ok_iff ..).2 ⟨hopen, hfirst⟩)
    -- the engine failed on the opening request, after which it is not asked again
    · obtain ⟨rfl, hfails⟩ := Classical.not_imp.1 hopen
      cases he : answer engine project
          [request s (PackageAction.consultedSources actions configured) graph project] with
      | ok r => exact absurd ⟨r, he⟩ hfails
      | error e =>
        rw [requests_of_failed_opening engine hfind hactions hs he]
        refine iff_of_true (fun q hq => hhistory q (List.mem_append_left _ hq)) ?_
        rintro _ first ⟨rfl⟩ hfirst
        exact absurd ((firstResult_eq_ok_iff ..).1 hfirst).1 hopen

end

/-- An install that names every framework of the project stays within them, second attempt included. -/
theorem requests_add_only_in_all_three :
    (run (rejecting "PackageX" net48) plainSettings threeTargetsGraph threeTargets.filePath
      [.install "PackageX" .all none [net48, net6, netStandard2]] none).outcome.2.requests.length = 3 ∧
    ∀ q ∈ (run (rejecting "PackageX" net48) plainSettings threeTargetsGraph threeTargets.filePath
        [.install "PackageX" .all none [net48, net6, netStandard2]] none).outcome.2.requests,
      q.AddsOnlyIn threeTargets.filePath threeTargets "PackageX" [net48, net6, netStandard2] := by
  refine ⟨by decide +kernel, (requests_add_only_in_iff rfl (rejecting "PackageX" net48) plainSettings
    isKeyed_threeTargetsGraph find?_threeTargetsGraph (by simp) none).2 ?_⟩
  intro _ _ _ _ _ f hf
  have hmem : f ∈ [net48, net6, netStandard2] := (List.mem_filter.1 hf).1
  exact List.mem_map.2 ⟨f, hmem, rfl⟩

/-- An install that names .NET Framework and .NET, of which .NET Framework does not suit the package, adds it for
.NET Standard as well. -/
theorem not_requests_add_only_in :
    ¬ ∀ q ∈ (run (rejecting "PackageX" net48) plainSettings threeTargetsGraph threeTargets.filePath
        [.install "PackageX" (.atLeast ⟨1, 0, 0, 0, [], none⟩ (some "1.0.0")) none [net48, net6]]
        none).outcome.2.requests,
      q.AddsOnlyIn threeTargets.filePath threeTargets "PackageX" [net48, net6] := by
  intro h
  -- the third request is the second attempt, for .NET and .NET Standard
  obtain ⟨q, hq, target, htarget, hany⟩ :
      ∃ q ∈ (run (rejecting "PackageX" net48) plainSettings threeTargetsGraph threeTargets.filePath
          [.install "PackageX" (.atLeast ⟨1, 0, 0, 0, [], none⟩ (some "1.0.0")) none [net48, net6]]
          none).outcome.2.requests,
        ∃ target, q.graph.find? threeTargets.filePath = some target ∧
          target.targets.any (fun g =>
            g.framework == netStandard2 && g.dependencies.any (·.declares "PackageX")) = true :=
    ⟨_, List.mem_of_getElem? (i := 2) rfl, _, rfl, by decide +kernel⟩
  have hadded : target.DeclaresIn "PackageX" netStandard2 := by
    obtain ⟨g, hg, hboth⟩ := List.any_eq_true.1 hany
    rw [Bool.and_eq_true, beq_iff_eq] at hboth
    exact ⟨g, hg, hboth⟩
  have hnew : ¬ threeTargets.DeclaresIn "PackageX" netStandard2 :=
    (PackageSpec.not_declares_of_absent (by simp [threeTargets, PackageSpec.allDependencies])).2 _
  have hwithin := (h q hq target htarget).1 netStandard2 ⟨hadded, hnew⟩
  exact absurd hwithin (by decide +kernel)

end RestorePreview
end PackageGraph
