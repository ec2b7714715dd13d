import PackageGraph.Aggregate.Basic
import PackageGraph.Proofs.Except
import PackageGraph.Proofs.OrderedMap
/-!
# The consumers of packages

An aggregate lists under each key the projects that declare it, each once and in their order, whichever description
the keys come from and however the project spells them. Which projects those are does not depend on the order in which
the paths are given.

`get?_addConsumer` says what one project adds, `get?_foldl_addConsumer` what a list of projects adds.
-/
namespace PackageGraph

namespace PackageKey

instance : EquivBEq PackageKey where
  rfl := by simp [BEq.beq, same]
  symm := by
    simp only [BEq.beq, same, Bool.and_eq_true, decide_eq_true_eq]
    exact fun h => ⟨h.1.symm, h.2.symm⟩
  trans := by
    simp only [BEq.beq, same, Bool.and_eq_true, decide_eq_true_eq]
    exact fun h h' => ⟨h.1.trans h'.1, h.2.trans h'.2⟩

end PackageKey

namespace ProjectOutcome

variable {fs : FileSystem} {provider : ProjectProvider} {project : String} {o : ProjectOutcome}

/-- Whether the project asks for a package in a version. -/
def declares (o : ProjectOutcome) (k : PackageKey) : Bool := o.keys.any (·.same k)

/-- The packages that a file lists; none without a file. -/
def listedPackages (fs : FileSystem) (config : String) : List PackageRecord :=
  match (PackageRecord.read fs config).result with
  | .ok (some records) => records
  | _ => []

/-- The keys that a project declares: those of the packages that its file lists, if there is one, and those of the
dependencies of its specification otherwise. -/
def declaredKeys (fs : FileSystem) (provider : ProjectProvider) (project : String) (spec : Option PackageSpec) :
    List PackageKey :=
  let config := beside project ProjectDescriptor.packagesConfigName
  match provider.exists? config with
  | .ok true => (listedPackages fs config).map fun r => .ofVersionText r.packageId r.version
  | _ => (spec.toList.flatMap PackageSpec.allDependencies).map fun d => .ofRange d.name d.range

/-- The keys of a specification are those of its dependencies, in order. -/
theorem dependencyKeys_eq_ok {spec : Option PackageSpec} {keys : List PackageKey}
    (h : dependencyKeys spec = .ok keys) :
    keys = (spec.toList.flatMap PackageSpec.allDependencies).map fun d => .ofRange d.name d.range := by
  cases spec with
  | none =>
    cases h
    rfl
  | some s =>
    have hkey : ∀ (d : Dependency) (key : PackageKey), PackageKey.ofRange? d.name d.range = .ok key →
        id key = .ofRange d.name d.range := by
      intro d key hkey
      unfold PackageKey.ofRange? at hkey
      split at hkey <;> cases hkey
      rfl
    simpa using Except.map_eq_of_mapM_eq_ok h hkey

/-! ## What normalizing a project gives -/

/-- What a project with listed packages comes to: a key for each package of the listing, and a specification from the
data of the project. -/
theorem ofPackagesConfig_eq_ok {config : String}
    (h : (ofPackagesConfig fs provider project config).result = .ok o) :
    o.descriptor = .ofPath project .packagesConfig ∧
      o.keys = ((listedPackages fs config).map fun r => .ofVersionText r.packageId r.version) ∧
        ∃ data, (provider.load project).result = .ok data ∧
          o.spec = (Specification.ofPackagesConfig project data.references).run data.property := by
  simp only [ofPackagesConfig, Logged.result_bind, Logged.result_pure, Except.bind_eq_ok_iff, Except.ok.injEq] at h
  obtain ⟨records, hrecords, data, hdata, rfl⟩ := h
  refine ⟨rfl, ?_, data, hdata, rfl⟩
  rw [listedPackages, hrecords]
  cases records <;> rfl

/-- What a project that is described in JSON comes to: the keys of its specification, which adds the references of the
project to the description. -/
theorem ofProjectJson_eq_ok {description : String}
    (h : (ofProjectJson fs provider project description).result = .ok o) :
    o.descriptor = .ofPath project .projectJson ∧ dependencyKeys o.spec = .ok o.keys ∧
      ∀ s ∈ o.spec, ∃ value described data,
        PackageSpec.ProjectJson.read (ProjectDescriptor.displayName project) description value = .ok described ∧
          (provider.load project).result = .ok data ∧
            s = Specification.ofProjectJson project data.references described := by
  simp only [ofProjectJson, Logged.result_bind, Except.bind_eq_ok_iff] at h
  obtain ⟨value, -, h⟩ := h
  cases value with
  | none =>
    simp only [Logged.result_bind, Logged.result_pure, Logged.result_ofExcept, Except.bind_eq_ok_iff,
      Except.ok.injEq] at h
    obtain ⟨spec, rfl, keys, hkeys, rfl⟩ := h
    exact ⟨rfl, hkeys, fun s hs => absurd hs (Option.not_mem_none s)⟩
  | some value =>
    simp only [Logged.result_bind, Logged.result_pure, Logged.result_ofExcept, Except.bind_eq_ok_iff,
      Except.ok.injEq] at h
    obtain ⟨described, hdescribed, data, hdata, spec, rfl, keys, hkeys, rfl⟩ := h
    exact ⟨rfl, hkeys, fun s hs => ⟨value, described, data, hdescribed, hdata, (Option.some.inj hs).symm⟩⟩

/-- What a project comes to by its package references: the keys of the specification that its data give. -/
theorem ofPackageReferences_eq_ok {cwd : String}
    (h : (ofPackageReferences cwd provider project).result = .ok o) :
    o.descriptor = .ofPath project .packageReference ∧ dependencyKeys o.spec = .ok o.keys ∧
      ∃ data, (provider.load project).result = .ok data ∧
        o.spec = (Specification.ofPackageReferences cwd project data).run data.property := by
  simp only [ofPackageReferences, Logged.result_bind, Logged.result_pure, Logged.result_ofExcept,
    Except.bind_eq_ok_iff, Except.ok.injEq] at h
  obtain ⟨data, hdata, -, -, keys, hkeys, ho⟩ := h
  rw [← ho]
  exact ⟨rfl, hkeys, data, hdata, rfl⟩

/-- A project is normalized by the first of its descriptions. -/
theorem ofProject_cases (h : (ofProject fs provider project).result = .ok o) :
    (provider.exists? (beside project ProjectDescriptor.packagesConfigName) = .ok true ∧
      (ofPackagesConfig fs provider project (beside project ProjectDescriptor.packagesConfigName)).result = .ok o) ∨
    (provider.exists? (beside project ProjectDescriptor.packagesConfigName) = .ok false ∧
      ((ofProjectJson fs provider project (beside project ProjectDescriptor.projectJsonName)).result = .ok o ∨
        (ofPackageReferences fs.workingDirectory provider project).result = .ok o)) := by
  -- the listing is asked for first, and the description only without one
  simp only [ofProject, Logged.result_bind, Logged.result_ofExcept, Except.bind_eq_ok_iff] at h
  obtain ⟨listed, hlisted, h⟩ := h
  cases listed with
  | true =>
    rw [if_pos rfl] at h
    exact .inl ⟨hlisted, h⟩
  | false =>
    rw [if_neg Bool.false_ne_true] at h
    simp only [Logged.result_bind, Logged.result_ofExcept, Except.bind_eq_ok_iff] at h
    obtain ⟨described, -, h⟩ := h
    cases described with
    | true =>
      rw [if_pos rfl] at h
      exact .inr ⟨hlisted, .inl h⟩
    | false =>
      rw [if_neg Bool.false_ne_true] at h
      exact .inr ⟨hlisted, .inr h⟩

/-- A project goes by the name of its file, and its keys are those that it declares. -/
theorem ofProject_eq_ok (h : (ofProject fs provider project).result = .ok o) :
    o.descriptor.name = ProjectDescriptor.displayName project ∧ o.keys = declaredKeys fs provider project o.spec := by
  rcases ofProject_cases h with ⟨hlisted, h⟩ | ⟨hlisted, h | h⟩
  · obtain ⟨hdescriptor, hkeys, -⟩ := ofPackagesConfig_eq_ok h
    simp only [declaredKeys, hlisted]
    exact ⟨by rw [hdescriptor]; rfl, hkeys⟩
  · obtain ⟨hdescriptor, hkeys, -⟩ := ofProjectJson_eq_ok h
    simp only [declaredKeys, hlisted]
    exact ⟨by rw [hdescriptor]; rfl, dependencyKeys_eq_ok hkeys⟩
  · obtain ⟨hdescriptor, hkeys, -⟩ := ofPackageReferences_eq_ok h
    simp only [declaredKeys, hlisted]
    exact ⟨by rw [hdescriptor]; rfl, dependencyKeys_eq_ok hkeys⟩

end ProjectOutcome

namespace Aggregate

variable {fs : FileSystem} {provider : ProjectProvider} {paths paths' : List String}

/-! ## Filling the index -/

/-- A name that is put under keys of which no two are the same stands last under each of them. -/
theorem get?_foldl_update (name : String) {keys : List PackageKey} (hkeys : keys.Pairwise fun k l => (k == l) = false)
    (m : OrderedMap PackageKey (List String)) (k : PackageKey) :
    (keys.foldl (fun m key => OrderedMap.update m key [] (· ++ [name])) m).get? k =
      if keys.any (·.same k) then some ((m.get? k).getD [] ++ [name]) else m.get? k := by
  -- by induction on the keys, for every index that the ones before have filled
  induction keys generalizing m with
  | nil => rfl
  | cons key keys ih =>
    obtain ⟨hkey, hkeys⟩ := List.pairwise_cons.1 hkeys
    rw [List.foldl_cons, ih hkeys, OrderedMap.update, OrderedMap.get?_put, List.any_cons]
    by_cases hk : key == k
    · -- no key that follows is the same
      have hrest : keys.any (·.same k) = false := by
        refine List.any_eq_false.2 fun other hother hsame => ?_
        have hboth : (key == other) = true := BEq.trans hk (BEq.symm hsame)
        rw [hkey other hother] at hboth
        cases hboth
      have hsame : key.same k = true := hk
      rw [hrest, hsame, if_pos hk, OrderedMap.get?_congr m hk]
      rfl
    · have hsame : key.same k = false := Bool.eq_false_iff.2 hk
      rw [if_neg hk, hsame, Bool.false_or]

/-- A project becomes the last consumer of what it declares, and of nothing else. -/
theorem get?_addConsumer (m : OrderedMap PackageKey (List String)) (o : ProjectOutcome) (k : PackageKey) :
    (addConsumer m o).get? k =
      if o.declares k then some ((m.get? k).getD [] ++ [o.descriptor.name]) else m.get? k := by
  have hany : (distinct o.keys).any (·.same k) = o.declares k := by
    show (distinct o.keys).any (· == k) = o.keys.any (· == k)
    rw [List.any_beq', List.any_beq', contains_distinct]
  rw [addConsumer, get?_foldl_update _ (pairwise_distinct o.keys), hany]

/-- The names of the projects that ask for a package in a version. -/
def namesOf (outcomes : List ProjectOutcome) (k : PackageKey) : List String :=
  (outcomes.filter (·.declares k)).map fun o => o.descriptor.name

/-- The names as they are listed: not at all if there is none. -/
def listed (names : List String) : Option (List String) := if names.isEmpty then none else some names

/-- The projects become the last consumers of what they declare, in their order. -/
theorem get?_foldl_addConsumer (m : OrderedMap PackageKey (List String)) (outcomes : List ProjectOutcome)
    (k : PackageKey) :
    (outcomes.foldl addConsumer m).get? k =
      if (namesOf outcomes k).isEmpty then m.get? k else some ((m.get? k).getD [] ++ namesOf outcomes k) := by
  induction outcomes generalizing m with
  | nil => rfl
  | cons o outcomes ih =>
    rw [List.foldl_cons, ih, get?_addConsumer]
    cases ho : o.declares k with
    | false => simp [namesOf, ho]
    | true =>
      have hnames : namesOf (o :: outcomes) k = o.descriptor.name :: namesOf outcomes k := by
        simp [namesOf, ho]
      rw [hnames]
      -- the index holds the name already when the projects that follow add theirs
      cases hrest : namesOf outcomes k <;> simp

/-- Listing a project keeps the keys apart. -/
theorem pairwise_keys_addConsumer {m : OrderedMap PackageKey (List String)} (o : ProjectOutcome)
    (hm : m.keys.Pairwise fun k l => (k == l) = false) :
    (addConsumer m o).keys.Pairwise fun k l => (k == l) = false := by
  unfold addConsumer
  induction distinct o.keys generalizing m with
  | nil => exact hm
  | cons key keys ih => exact ih (OrderedMap.pairwise_keys_put key _ hm)

/-- No two keys of an aggregate are the same. -/
theorem pairwise_keys_foldl_addConsumer {m : OrderedMap PackageKey (List String)} (outcomes : List ProjectOutcome)
    (hm : m.keys.Pairwise fun k l => (k == l) = false) :
    (outcomes.foldl addConsumer m).keys.Pairwise fun k l => (k == l) = false := by
  induction outcomes generalizing m with
  | nil => exact hm
  | cons o outcomes ih => exact ih (pairwise_keys_addConsumer o hm)

/-! ## Projects at paths -/

/-- An aggregate is what comes of each project in turn, put together. -/
theorem ofProjects_eq_ok_iff {a : Aggregate} : (ofProjects fs provider paths).result = .ok a ↔
    ∃ outcomes, (projectPaths fs.workingDirectory paths).mapM
      (fun p => (ProjectOutcome.ofProject fs provider p).result) = .ok outcomes ∧ ofOutcomes outcomes = a := by
  simp only [ofProjects, conclude, outcomes, Logged.result_bind, Logged.result_mapM, Logged.result_logAll,
    Logged.result_pure, Except.bind_eq_ok_iff, Except.ok.injEq, exists_const, true_and]

/-- Projects are aggregated exactly if each of them can be normalized. -/
theorem exists_ofProjects_eq_ok_iff : (∃ a, (ofProjects fs provider paths).result = .ok a) ↔
    ∀ p ∈ projectPaths fs.workingDirectory paths, ∃ o, (ProjectOutcome.ofProject fs provider p).result = .ok o := by
  simp only [ofProjects_eq_ok_iff, ← Except.exists_mapM_eq_ok_iff]
  exact ⟨fun ⟨_, outcomes, h, _⟩ => ⟨outcomes, h⟩, fun ⟨outcomes, h⟩ => ⟨_, outcomes, h, rfl⟩⟩

/-- Whether the project at a path asks for a package in a version. -/
def declaresKey (fs : FileSystem) (provider : ProjectProvider) (k : PackageKey) (project : String) : Bool :=
  match (ProjectOutcome.ofProject fs provider project).result with
  | .ok o => o.declares k
  | .error _ => false

/-- The names that the projects at the paths are shown under, of those that ask for a package in a version. -/
def consumerNames (fs : FileSystem) (provider : ProjectProvider) (paths : List String) (k : PackageKey) :
    List String :=
  ((projectPaths fs.workingDirectory paths).filter (declaresKey fs provider k)).map ProjectDescriptor.displayName

/-- The names of the projects that declare a key, from what normalizing each of them gives. -/
theorem namesOf_eq_map_filter {projects : List String} {outcomes : List ProjectOutcome}
    (h : projects.mapM (fun p => (ProjectOutcome.ofProject fs provider p).result) = .ok outcomes) (k : PackageKey) :
    namesOf outcomes k = (projects.filter (declaresKey fs provider k)).map ProjectDescriptor.displayName := by
  rw [Except.mapM_eq_ok_iff] at h
  induction h with
  | nil => rfl
  | @cons p o projects outcomes ho _ ih =>
    have hdeclares : declaresKey fs provider k p = o.declares k := by rw [declaresKey, ho]
    rw [namesOf, List.filter_cons, List.filter_cons, hdeclares]
    cases o.declares k with
    | false => exact ih
    | true =>
      simp only [if_true, List.map_cons, (ProjectOutcome.ofProject_eq_ok ho).1]
      exact congrArg _ ih

/-- The absolute paths do not depend on the order of the paths but for their own order. -/
theorem projectPaths_perm (cwd : String) (h : paths'.Perm paths) :
    (projectPaths cwd paths').Perm (projectPaths cwd paths) := by
  refine (List.perm_ext_iff_of_nodup (nodup_distinct _) (nodup_distinct _)).2 fun p => ?_
  rw [mem_distinct, mem_distinct]
  exact (h.map _).mem_iff

/-- Other paths in another order give the same consumers in another order. -/
theorem consumerNames_perm (h : paths'.Perm paths) (k : PackageKey) :
    (consumerNames fs provider paths' k).Perm (consumerNames fs provider paths k) :=
  ((projectPaths_perm fs.workingDirectory h).filter _).map _

/-- Whether there are names to list does not depend on their order. -/
theorem listed_perm {names names' : List String} (h : names'.Perm names) :
    Option.Rel List.Perm (listed names') (listed names) := by
  rw [listed, listed, h.isEmpty_eq]
  split
  · exact .none
  · exact .some h

/-- The consumers of a key are the projects that declare it. -/
theorem get?_consumers {a : Aggregate} (h : (ofProjects fs provider paths).result = .ok a) (k : PackageKey) :
    a.consumers.get? k = listed (consumerNames fs provider paths k) := by
  obtain ⟨outcomes, houtcomes, rfl⟩ := ofProjects_eq_ok_iff.1 h
  rw [ofOutcomes, get?_foldl_addConsumer, namesOf_eq_map_filter houtcomes]
  rfl

/-- Projects that can be aggregated in one order can be in every order. -/
theorem exists_ofProjects_eq_ok_of_perm {a : Aggregate} (h : (ofProjects fs provider paths).result = .ok a)
    (hperm : paths'.Perm paths) : ∃ a', (ofProjects fs provider paths').result = .ok a' := by
  rw [exists_ofProjects_eq_ok_iff]
  intro p hp
  rw [(projectPaths_perm fs.workingDirectory hperm).mem_iff] at hp
  exact exists_ofProjects_eq_ok_iff.1 ⟨a, h⟩ p hp

/-- An aggregate lists under each key the names of the projects that declare it, in the order of their paths and as
often as projects of the name do; under keys that no project declares there is nothing. The order of the paths has no
other effect than on the order of the names. -/
theorem consumers_exact {a : Aggregate} (h : (ofProjects fs provider paths).result = .ok a) :
    (a.consumers.keys.Pairwise fun k l => k.same l = false) ∧
    (∀ k, a.consumers.get? k = listed (consumerNames fs provider paths k)) ∧
    (∀ p ∈ projectPaths fs.workingDirectory paths, ∃ o, (ProjectOutcome.ofProject fs provider p).result = .ok o ∧
      o.keys = ProjectOutcome.declaredKeys fs provider p o.spec) ∧
    ∀ paths', paths'.Perm paths → ∃ a', (ofProjects fs provider paths').result = .ok a' ∧
      ∀ k, Option.Rel List.Perm (a'.consumers.get? k) (a.consumers.get? k) := by
  refine ⟨?_, get?_consumers h, ?_, ?_⟩
  · obtain ⟨outcomes, -, rfl⟩ := ofProjects_eq_ok_iff.1 h
    exact pairwise_keys_foldl_addConsumer outcomes .nil
  · -- an aggregate is there only if every project could be normalized
    intro p hp
    obtain ⟨o, ho⟩ := exists_ofProjects_eq_ok_iff.1 ⟨a, h⟩ p hp
    exact ⟨o, ho, (ProjectOutcome.ofProject_eq_ok ho).2⟩
  · intro paths' hperm
    obtain ⟨a', ha'⟩ := exists_ofProjects_eq_ok_of_perm h hperm
    refine ⟨a', ha', fun k => ?_⟩
    rw [get?_consumers ha', get?_consumers h]
    exact listed_perm (consumerNames_perm hperm k)

/-- A provider of two projects of one name that declare a package in different letter case, and of one that lists its
packages in a file. -/
def sampleProvider : ProjectProvider where
  exists? path := .ok (path == "/src/Old/packages.config")
  load path :=
    let name := if path == "/src/App/App.csproj" then "PackageX" else "packagex"
    pure
      { property := fun p => if p == "TargetFrameworks" then "net48;net6.0" else ""
        items := fun type => if type == "PackageReference" then [⟨name, [("Version", "1.0.0")]⟩] else []
        references := [] }

def sampleFiles : FileSystem :=
  let listing := "<packages><package id='PackageX' version='1.0'/></packages>"
  ⟨[(["src"], .directory), (["src", "Old"], .directory),
    (["src", "Old", "packages.config"], .file (listing.toList.map fun c => c.toNat.toUInt8))], []⟩

def samplePaths : List String :=
  ["/src/App/App.csproj", "/src/Old/Old.csproj", "/src/App/../App/App.csproj", "/src/Tools/App.csproj"]

/-- Two projects that ask for one package in a range, and one that lists it in a version. -/
theorem consumers_exact_sampleProvider :
    ∃ a, (ofProjects sampleFiles sampleProvider samplePaths).result = .ok a ∧
      a.consumers = [(⟨"PackageX", "[1.0.0, )"⟩, ["App", "App"]), (⟨"PackageX", "1.0.0"⟩, ["Old"])] ∧
      (∀ k, a.consumers.get? k = listed (consumerNames sampleFiles sampleProvider samplePaths k)) ∧
      ∃ a', (ofProjects sampleFiles sampleProvider samplePaths.reverse).result = .ok a' ∧
        ∀ k, Option.Rel List.Perm (a'.consumers.get? k) (a.consumers.get? k) := by
  have hconsumers : (ofProjects sampleFiles sampleProvider samplePaths).result.map Aggregate.consumers =
      .ok [(⟨"PackageX", "[1.0.0, )"⟩, ["App", "App"]), (⟨"PackageX", "1.0.0"⟩, ["Old"])] := by decide +kernel
  obtain ⟨a, ha, hconsumers⟩ := Except.map_eq_ok_iff.1 hconsumers
  obtain ⟨-, hexact, -, hperm⟩ := consumers_exact ha
  exact ⟨a, ha, hconsumers, hexact, hperm _ (List.reverse_perm _)⟩

end Aggregate
end PackageGraph
