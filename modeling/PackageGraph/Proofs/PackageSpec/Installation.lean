import PackageGraph.Proofs.PackageSpec.Declarations
import PackageGraph.Proofs.VersionRange.Notation
/-!
# Installing and uninstalling

Setting a package in every framework is meant to leave it declared with the range wherever it is declared. That fails
in two ways: a project without target frameworks has no list to which the package is added, and a package that is
declared for all frameworks together keeps its range in the frameworks that declare it once more. Removing a package
goes through every list, so that it takes back what setting the package added.
-/
namespace PackageGraph

namespace Dependency

variable {name other : String} {range : VersionRange} {ds es : List Dependency}

/-! ## Lists without a package -/

/-- Removing a package that a list does not declare leaves the list. -/
theorem removeFrom_eq_self (h : ds.any (·.declares name) = false) : removeFrom name ds = ds := by
  rw [removeFrom, List.filter_eq_self]
  intro d hd
  have hnot : d.declares name ≠ true := List.any_eq_false.1 h d hd
  simpa using hnot

theorem removeFrom_congr (h : Text.lower name = Text.lower other) (ds : List Dependency) :
    removeFrom name ds = removeFrom other ds :=
  List.filter_congr fun d _ => by rw [declares_congr h]

/-- A package that is not in a list is set by adding it at the end. -/
theorem setIn_of_absent (h : ds.any (·.declares name) = false) (range : VersionRange) :
    setIn name range ds = ds ++ [ofRange name range] := by
  rw [setIn, h]
  rfl

/-- Whatever setting a package made of a list without it, removing the package gives the list back. -/
theorem MaySet.removeFrom_eq (hset : MaySet name range ds es) (h : ds.any (·.declares name) = false) :
    removeFrom name es = ds := by
  cases hset with
  | kept => exact removeFrom_eq_self h
  | updated =>
    have hnone : (updateAll name range ds).any (·.declares name) = false := by rw [any_declares_updateAll, h]
    have hsame : updateAll name range ds = ds := by
      rw [updateAll, List.map_congr_left (g := id), List.map_id]
      intro d hd
      exact if_neg (List.any_eq_false.1 h d hd)
    rw [removeFrom_eq_self hnone, hsame]
  | added _ =>
    have hlast : removeFrom name [ofRange name range] = [] := by simp [removeFrom, declares_ofRange]
    rw [removeFrom, List.filter_append, ← removeFrom, ← removeFrom, removeFrom_eq_self h, hlast, List.append_nil]

/-- Removing a package undoes setting it in lists that did not declare it. -/
theorem map_removeFrom_eq {dss ess : List (List Dependency)} (hset : List.Forall₂ (MaySet name range) dss ess)
    (h : ∀ ds ∈ dss, ds.any (·.declares name) = false) : ess.map (removeFrom name) = dss := by
  induction hset with
  | nil => rfl
  | cons hfirst _ ih =>
    obtain ⟨hnone, hrest⟩ := List.forall_mem_cons.1 h
    rw [List.map_cons, hfirst.removeFrom_eq hnone, ih hrest]

/-- A list gets shorter exactly if the package is in it. -/
theorem removalShortens_eq (name : String) (ds : List Dependency) :
    removalShortens name ds = ds.any (·.declares name) := by
  rw [removalShortens, removeFrom, Bool.eq_iff_iff, bne_iff_ne, ne_eq, List.length_filter_eq_length_iff,
    List.any_eq_true]
  simp

end Dependency

namespace PackageSpec

open Dependency

variable {s : PackageSpec} {name other : String} {range : VersionRange}
  {frameworks : Option (List TargetFramework)}

/-- A specification is what it declares and what it is apart from that. -/
theorem eq_of_sections {t : PackageSpec} (hrest : s.withoutDependencies = t.withoutDependencies)
    (hsections : s.sections = t.sections) : s = t := by
  cases s
  cases t
  rw [withoutDependencies, withoutDependencies, PackageSpec.mk.injEq] at hrest
  obtain ⟨rfl, rfl, hgroups, -, rfl, rfl, rfl⟩ := hrest
  obtain ⟨rfl, hdependencies⟩ := List.cons.inj hsections
  congr 1
  -- a group is put together from what it declares and the rest of it
  have hinjective : Function.Injective fun g : FrameworkGroup => ({ g with dependencies := [] }, g.dependencies) := by
    rintro ⟨⟩ ⟨⟩ h
    simp_all
  refine List.map_injective_iff.2 hinjective ?_
  rw [← List.zip_map', ← List.zip_map', hgroups, hdependencies]

/-! ## What an installation reaches -/

/-- The package is declared, and wherever it is declared it has the range. -/
structure Reached (s : PackageSpec) (name : String) (range : VersionRange) : Prop where
  declared : s.hasDependency name = true
  ranged : ∀ d ∈ s.allDependencies, d.declares name = true → (d.range == range) = true

/-- What a framework declares is still declared after a package was set that all of them declare together. -/
theorem mem_allDependencies_of_mem_target (hall : s.declaresForAll name = true) {g : FrameworkGroup}
    (hg : g ∈ s.targets) {d : Dependency} (hd : d ∈ g.dependencies) :
    d ∈ (s.setDependency name range frameworks).allDependencies := by
  rw [PackageSpec.setDependency, if_pos hall]
  exact List.mem_append_right _ (List.mem_flatMap.2 ⟨g, hg, hd⟩)

/-- A package that is set in every framework is declared with the range wherever it is declared, exactly if there is a
list that it is declared in or added to, and no framework declares it with another range beside the declaration for
all frameworks together. -/
theorem setDependency_reaches_iff (s : PackageSpec) (name : String) (range : VersionRange) :
    (s.setDependency name range none).Reached name range ↔
      (s.declaresForAll name = true ∨ s.targets ≠ []) ∧
        (s.declaresForAll name = true → ∀ g ∈ s.targets, ∀ d ∈ g.dependencies, d.declares name = true →
          (d.range == range) = true) := by
  constructor
  · rintro ⟨hdeclared, hranged⟩
    refine ⟨hasDependency_setDependency_iff.1 hdeclared, fun hall g hg d hd hname => ?_⟩
    exact hranged d (mem_allDependencies_of_mem_target hall hg hd) hname
  · rintro ⟨hlist, hframeworks⟩
    refine ⟨hasDependency_setDependency_iff.2 hlist, fun d hd hname => ?_⟩
    rcases range_eq_or_mem_target hd hname with hrange | ⟨hall, g, hg, hd⟩
    · rw [hrange]
      exact VersionRange.beq_refl range
    · exact hframeworks hall g hg d hd hname

/-- A project that declares a package both for all frameworks together and for one of two. -/
def declaredTwice : PackageSpec :=
  let net48 : TargetFramework := .plain ⟨Moniker.netFramework, [4, 8], "", ""⟩
  let net6 : TargetFramework := .plain ⟨Moniker.netCoreApp, [6, 0], "", ""⟩
  let dependency : Dependency := .ofRange "PackageX" (.atLeast ⟨1, 0, 0, 0, [], none⟩ (some "1.0.0"))
  ⟨"App", "/src/project.json", [⟨net6, [dependency], []⟩, ⟨net48, [], []⟩], [dependency], none, none, defaultVersion⟩

/-- A project without target frameworks. -/
def withoutTargets : PackageSpec := ⟨"App", "/src/project.json", [], [], none, none, defaultVersion⟩

/-- One of the declarations keeps its range, and a project without target frameworks does not get the package. -/
theorem not_setDependency_reaches :
    let range : VersionRange := .atLeast ⟨2, 0, 0, 0, [], none⟩ (some "2.0.0")
    ¬ (declaredTwice.setDependency "PackageX" range none).Reached "PackageX" range ∧
      ¬ (withoutTargets.setDependency "PackageX" range none).Reached "PackageX" range := by
  intro range
  constructor
  · rintro ⟨-, hranged⟩
    have hkept : ∃ d ∈ (declaredTwice.setDependency "PackageX" range none).allDependencies,
        d.declares "PackageX" = true ∧ (d.range == range) = false := by
      refine ⟨.ofRange "PackageX" (.atLeast ⟨1, 0, 0, 0, [], none⟩ (some "1.0.0")), ?_, by decide +kernel, by rfl⟩
      have hall : declaredTwice.declaresForAll "PackageX" = true := by decide +kernel
      exact mem_allDependencies_of_mem_target hall List.mem_cons_self List.mem_cons_self
    obtain ⟨d, hd, hname, hother⟩ := hkept
    exact Bool.false_ne_true (hother.symm.trans (hranged d hd hname))
  · rintro ⟨hdeclared, -⟩
    have hnone : (withoutTargets.setDependency "PackageX" range none).hasDependency "PackageX" = false := by rfl
    exact Bool.false_ne_true (hnone.symm.trans hdeclared)

/-! ## What a removal leaves -/

/-- A removal reports whether the package was declared. -/
theorem removalShortens_eq_hasDependency (s : PackageSpec) (name : String) :
    s.removalShortens name = s.hasDependency name := by
  simp only [removalShortens, removalShortens_eq, hasDependency, allDependencies, List.any_append, List.any_flatMap]

/-- Removal from the specification is removal from all its dependencies. -/
theorem allDependencies_removeDependency (s : PackageSpec) (name : String) :
    (s.removeDependency name).allDependencies = removeFrom name s.allDependencies := by
  rw [allDependencies_eq_flatten, allDependencies_eq_flatten, sections_removeDependency, removeFrom,
    List.filter_flatten]
  rfl

/-- A package is declared exactly if removing it leaves fewer declarations. -/
theorem hasDependency_iff_length_lt :
    s.hasDependency name = true ↔ (s.removeDependency name).allDependencies.length < s.allDependencies.length := by
  rw [hasDependency_iff, allDependencies_removeDependency, removeFrom, List.length_filter_lt_length_iff_exists]
  simp

/-- The letter case of the name makes no difference to what is removed. -/
theorem removeDependency_congr (h : Text.lower name = Text.lower other) (s : PackageSpec) :
    s.removeDependency name = s.removeDependency other := by
  simp only [removeDependency, removeFrom_congr h]

/-- The specification `t` is `s` without the package and with everything else, and `reported` says whether the package
was there. -/
structure Removed (s : PackageSpec) (name : String) (t : PackageSpec) (reported : Bool) : Prop where
  absent : t.hasDependency name = false
  /-- Packages of other names are declared as before, and in the same order. -/
  others : List.Forall₂ (fun before after =>
      before.filter (fun d => !d.declares name) = after.filter (fun d => !d.declares name)) s.sections t.sections
  elsewhere : t.withoutDependencies = s.withoutDependencies
  reported : reported = s.hasDependency name

/-- Removal has the effect that is meant by it, and says whether it had any. -/
theorem removed_removeDependency (s : PackageSpec) (name : String) :
    Removed s name (s.removeDependency name) (s.removalShortens name) where
  absent := by
    rw [← Bool.not_eq_true, ← declarations_ne_nil_iff, declarations_removeDependency]
    exact fun h => h rfl
  others := by
    rw [sections_removeDependency, List.forall₂_map_right_iff, List.forall₂_same]
    intro ds _
    rw [removeFrom, List.filter_filter]
    simp only [Bool.and_self]
  elsewhere := withoutDependencies_removeDependency s name
  reported := removalShortens_eq_hasDependency s name

/-! ## Removing what was added -/

section Absent

variable (habsent : s.hasDependency name = false)

include habsent

/-- No section declares a package that the specification does not have. -/
theorem any_declares_of_mem_sections {ds : List Dependency} (hds : ds ∈ s.sections) :
    ds.any (·.declares name) = false := by
  rw [hasDependency, allDependencies_eq_flatten, List.any_flatten, List.any_eq_false] at habsent
  simpa using habsent ds hds

/-- Removing a package that was not declared before it was set gives the specification back. -/
theorem removeDependency_setDependency (range : VersionRange) (frameworks : Option (List TargetFramework)) :
    (s.setDependency name range frameworks).removeDependency name = s := by
  refine eq_of_sections (by simp) ?_
  rw [sections_removeDependency]
  exact map_removeFrom_eq (sections_setDependency s name range frameworks) fun _ => any_declares_of_mem_sections habsent

/-- A package that was not declared is added once to every framework that is selected. -/
theorem length_allDependencies_setDependency (range : VersionRange) (frameworks : Option (List TargetFramework)) :
    (s.setDependency name range frameworks).allDependencies.length =
      s.allDependencies.length + s.targets.countP (FrameworkGroup.isSelected frameworks) := by
  -- the package is declared nowhere, so each selected target gains one declaration and the others none
  have hall : s.declaresForAll name = false := any_declares_of_mem_sections habsent List.mem_cons_self
  have htargets : ∀ g ∈ s.targets, g.dependencies.any (·.declares name) = false := fun g hg =>
    any_declares_of_mem_sections habsent (List.mem_cons_of_mem _ (List.mem_map_of_mem hg))
  simp only [PackageSpec.setDependency, hall, Bool.false_eq_true, if_false, allDependencies, List.length_append,
    Nat.add_assoc]
  congr 1
  generalize s.targets = groups at htargets ⊢
  induction groups with
  | nil => rfl
  | cons g gs ih =>
    obtain ⟨hg, hgs⟩ := List.forall_mem_cons.1 htargets
    rw [List.map_cons, List.flatMap_cons, List.flatMap_cons, List.length_append, List.length_append, ih hgs,
      List.countP_cons]
    split
    · rw [setIn_of_absent hg, List.length_append, List.length_singleton]
      omega
    · omega

end Absent

/-- Removing a package takes back what setting it added: a package that was not declared leaves the specification as
it was, however its name is spelled, and the removal reports whether a framework was selected and so gained a
declaration. Of any specification, a removal takes the declarations of the package, reports whether there were any,
and leaves everything else. -/
theorem removal_undoes_setting (habsent : s.hasDependency name = false) (hname : Text.lower other = Text.lower name)
    (range : VersionRange) (frameworks : Option (List TargetFramework)) :
    (s.setDependency name range frameworks).removeDependency other = s ∧
      ((s.setDependency name range frameworks).removalShortens other = true ↔
        s.allDependencies.length < (s.setDependency name range frameworks).allDependencies.length) ∧
      ((s.setDependency name range frameworks).removalShortens other = true ↔
        ∃ g ∈ s.targets, g.isSelected frameworks = true) ∧
      ∀ (t : PackageSpec) (package : String),
        Removed t package (t.removeDependency package) (t.removalShortens package) := by
  have hcount := length_allDependencies_setDependency habsent range frameworks
  have hback : (s.setDependency name range frameworks).removeDependency other = s := by
    rw [removeDependency_congr hname, removeDependency_setDependency habsent]
  have hreported : (s.setDependency name range frameworks).removalShortens other = true ↔
      s.allDependencies.length < (s.setDependency name range frameworks).allDependencies.length := by
    rw [removalShortens_eq_hasDependency, hasDependency_iff_length_lt, hback]
  refine ⟨hback, hreported, ?_, removed_removeDependency⟩
  rw [hreported, hcount, Nat.lt_add_right_iff_pos, List.countP_pos_iff]

/-- A package that is added to one of two frameworks is removed again under another spelling of its name. -/
theorem removal_undoes_setting_in_one_target :
    let range : VersionRange := .atLeast ⟨2, 0, 0, 0, [], none⟩ (some "2.0.0")
    let net48 : TargetFramework := .plain ⟨Moniker.netFramework, [4, 8], "", ""⟩
    let added := declaredTwice.setDependency "Logging" range (some [net48])
    declaredTwice.hasDependency "Logging" = false ∧ Text.lower "LOGGING" = Text.lower "Logging" ∧
      added.sections.map (List.map Dependency.name) = [["PackageX"], ["PackageX"], ["Logging"]] ∧
      added.removeDependency "LOGGING" = declaredTwice ∧ added.removalShortens "LOGGING" = true := by
  intro range net48 added
  have habsent : declaredTwice.hasDependency "Logging" = false := by decide +kernel
  have hname : Text.lower "LOGGING" = Text.lower "Logging" := by decide +kernel
  obtain ⟨hback, -, hreported, -⟩ := removal_undoes_setting habsent hname range (some [net48])
  have hselected : ∃ g ∈ declaredTwice.targets, g.isSelected (some [net48]) = true :=
    ⟨⟨net48, [], []⟩, List.mem_cons_of_mem _ List.mem_cons_self, by decide +kernel⟩
  exact ⟨habsent, hname, by decide +kernel, hback, hreported.2 hselected⟩

end PackageSpec
end PackageGraph
