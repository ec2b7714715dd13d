import PackageGraph.Proofs.PackageSpec.Declarations
import PackageGraph.Restore.Action
/-!
# The last action for a package decides

Actions are applied one after the other. What one of them may do to a list of declarations is said once, in
`sections_apply`; whatever that keeps, a sequence of actions keeps. In particular an action about another package leaves
the declarations of a package as they are, so that they are in the end what the last action about it made of them.
-/
namespace PackageGraph

open Dependency

namespace PackageAction

/-- Whether the action is about the package, without regard to letter case. -/
def names (a : PackageAction) (name : String) : Bool := Text.lower a.packageId == Text.lower name

/-- Whether the action uninstalls the package. -/
def uninstalls (a : PackageAction) (name : String) : Bool := a.kind == .uninstall && a.names name

/-- The last action about a package. -/
def lastFor? (actions : List PackageAction) (name : String) : Option PackageAction :=
  actions.reverse.find? (·.names name)

/-- What an action may do to a list of declarations. -/
inductive MayEdit (a : PackageAction) (ds : List Dependency) : List Dependency → Prop
  | set {es : List Dependency} (h : MaySet a.packageId a.range ds es) : MayEdit a ds es
  | removed (h : a.kind = .uninstall) : MayEdit a ds (removeFrom a.packageId ds)

variable {s : PackageSpec} {a : PackageAction} {ds es : List Dependency} {name : String}
  {actions earlier later : List PackageAction}

/-- No action after the last one for a package names it. -/
theorem lastFor?_eq_some (h : lastFor? actions name = some a) :
    a.names name = true ∧
      ∃ earlier later, actions = earlier ++ a :: later ∧ ∀ b ∈ later, b.names name = false := by
  -- the search goes backwards, so what it passes over comes after what it finds
  obtain ⟨hname, later, earlier, hreverse, hlater⟩ := List.find?_eq_some_iff_append.1 h
  refine ⟨hname, earlier.reverse, later.reverse, ?_, fun b hb => ?_⟩
  · rw [← List.reverse_reverse actions, hreverse]
    simp
  · simpa using hlater b (List.mem_reverse.1 hb)

/-- An installation sets the range in the frameworks it names, or in all when it names none. -/
theorem apply_of_install (h : a.kind = .install) :
    apply s a = s.setDependency a.packageId a.range (selection a.frameworks) := by
  rw [apply, h]

theorem apply_of_uninstall (h : a.kind = .uninstall) : apply s a = s.removeDependency a.packageId := by
  rw [apply, h]

theorem applyAll_append (s : PackageSpec) (earlier later : List PackageAction) :
    applyAll s (earlier ++ later) = applyAll (applyAll s earlier) later := List.foldl_append

/-! ## Lists of declarations -/

/-- One action edits each section, and adds or removes none. -/
theorem sections_apply (s : PackageSpec) (a : PackageAction) :
    List.Forall₂ (MayEdit a) s.sections (apply s a).sections := by
  cases hkind : a.kind with
  | install =>
    rw [apply_of_install hkind]
    exact (s.sections_setDependency a.packageId a.range (selection a.frameworks)).imp fun _ _ h => .set h
  | uninstall =>
    rw [apply_of_uninstall hkind, PackageSpec.sections_removeDependency, List.forall₂_map_right_iff, List.forall₂_same]
    exact fun ds _ => .removed hkind

/-- What each action keeps of a list, all of them together keep. -/
theorem sections_applyAll {R : List Dependency → List Dependency → Prop} (hrefl : ∀ ds, R ds ds)
    (htrans : ∀ ds es fs, R ds es → R es fs → R ds fs) (hstep : ∀ a ∈ actions, ∀ ds es, MayEdit a ds es → R ds es)
    (s : PackageSpec) : List.Forall₂ R s.sections (applyAll s actions).sections := by
  induction actions generalizing s with
  | nil => exact List.forall₂_same.2 fun ds _ => hrefl ds
  | cons a actions ih =>
    obtain ⟨hfirst, hrest⟩ := List.forall_mem_cons.1 hstep
    exact forall₂_trans htrans ((sections_apply s a).imp hfirst) (ih hrest (apply s a))

/-- An action leaves the declarations of other packages as they are. -/
theorem MayEdit.filter_eq (h : MayEdit a ds es) {p : String → Bool} (hp : p (Text.lower a.packageId) = false) :
    es.filter (fun d => p d.key) = ds.filter (fun d => p d.key) := by
  cases h with
  | set h => exact h.filter_eq hp
  | removed _ =>
    rw [removeFrom, List.filter_filter]
    refine List.filter_congr fun d _ => ?_
    cases hd : d.declares a.packageId with
    | true => simp [declares_iff.1 hd, hp]
    | false => simp

/-- An action keeps the places of the declarations that it does not remove, and everything about them but the range. -/
theorem MayEdit.isPrefix (h : MayEdit a ds es) {p : String → Bool}
    (hp : a.kind = .uninstall → p (Text.lower a.packageId) = false) :
    (ds.filter (fun d => p d.key)).map exceptRange <+: (es.filter (fun d => p d.key)).map exceptRange := by
  cases h with
  | set h =>
    have hfilter := h.isPrefix.filter (fun d => p d.key)
    rwa [List.filter_map, List.filter_map] at hfilter
  | removed h => exact (MayEdit.removed h).filter_eq (hp h) ▸ List.prefix_rfl

/-- What no action is about stays as it is in every list. -/
theorem filter_sections_applyAll {p : String → Bool} (hp : ∀ a ∈ actions, p (Text.lower a.packageId) = false)
    (s : PackageSpec) :
    List.Forall₂ (fun before after => before.filter (fun d => p d.key) = after.filter (fun d => p d.key)) s.sections
      (applyAll s actions).sections :=
  sections_applyAll (R := fun ds es => ds.filter _ = es.filter _) (fun _ => rfl) (fun _ _ _ h h' => h.trans h')
    (fun a ha _ _ h => (h.filter_eq (hp a ha)).symm) s

/-- What no action removes keeps its place in every list, and everything but its range. -/
theorem prefix_sections_applyAll {p : String → Bool}
    (hp : ∀ a ∈ actions, a.kind = .uninstall → p (Text.lower a.packageId) = false) (s : PackageSpec) :
    List.Forall₂ (fun before after => (before.filter (fun d => p d.key)).map exceptRange <+:
      (after.filter (fun d => p d.key)).map exceptRange) s.sections (applyAll s actions).sections :=
  sections_applyAll (R := fun ds es => (ds.filter _).map exceptRange <+: (es.filter _).map exceptRange)
    (fun _ => List.prefix_rfl) (fun _ _ _ h h' => h.trans h') (fun a ha _ _ h => h.isPrefix (hp a ha)) s

/-- The declarations of a package stay as they are while the actions are about others. -/
theorem declarations_applyAll (hother : ∀ a ∈ actions, a.names name = false) (s : PackageSpec) :
    (applyAll s actions).declarations name = s.declarations name := by
  have hsections := filter_sections_applyAll (p := (· == Text.lower name)) hother s
  rw [← List.forall₂_map_right_iff, ← List.forall₂_map_left_iff, List.forall₂_eq_eq_eq] at hsections
  rw [PackageSpec.declarations_eq_flatten, PackageSpec.declarations_eq_flatten]
  exact congrArg List.flatten hsections.symm

/-! ## The rest of a specification -/

/-- Actions change dependencies alone. -/
theorem withoutDependencies_applyAll (s : PackageSpec) (actions : List PackageAction) :
    (applyAll s actions).withoutDependencies = s.withoutDependencies := by
  induction actions generalizing s with
  | nil => rfl
  | cons a actions ih =>
    rw [applyAll, List.foldl_cons, ← applyAll, ih]
    cases hkind : a.kind with
    | install => rw [apply_of_install hkind, PackageSpec.withoutDependencies_setDependency]
    | uninstall => rw [apply_of_uninstall hkind, PackageSpec.withoutDependencies_removeDependency]

theorem declaresOnce_apply (hs : s.DeclaresOnce) (a : PackageAction) : (apply s a).DeclaresOnce := by
  cases hkind : a.kind with
  | install =>
    rw [apply_of_install hkind]
    exact hs.setDependency ..
  | uninstall =>
    rw [apply_of_uninstall hkind]
    exact hs.removeDependency a.packageId

/-- Actions keep every package declared once at most, since each of them does. -/
theorem declaresOnce_applyAll (hs : s.DeclaresOnce) (actions : List PackageAction) :
    (applyAll s actions).DeclaresOnce := by
  induction actions generalizing s with
  | nil => exact hs
  | cons a actions ih => exact ih (declaresOnce_apply hs a)

/-! ## A whole sequence -/

/-- The specification `t` is what the actions make of `s`: a package is declared as the last action about it says, and
as in `s` if none is. -/
structure DecidedByLast (s : PackageSpec) (actions : List PackageAction) (t : PackageSpec) : Prop where
  once : t.DeclaresOnce
  elsewhere : t.withoutDependencies = s.withoutDependencies
  /-- Packages that no action is about are declared as before, and in the same order. -/
  untouched : List.Forall₂ (fun before after =>
      before.filter (fun d => !actions.any (·.names d.name)) = after.filter (fun d => !actions.any (·.names d.name)))
    s.sections t.sections
  uninstalled : ∀ name a, lastFor? actions name = some a → a.kind = .uninstall → t.declarations name = []
  installed : ∀ name a, lastFor? actions name = some a → a.kind = .install →
    (∀ d ∈ t.declarations name, d.range = a.range) ∧ (s.targets ≠ [] → t.declarations name ≠ [])
  /-- What is there at some moment and not uninstalled later keeps its place and everything but its range. -/
  updated : ∀ earlier later, actions = earlier ++ later →
    List.Forall₂ (fun before after =>
        (before.filter (fun d => !later.any (·.uninstalls d.name))).map exceptRange <+:
          (after.filter (fun d => !later.any (·.uninstalls d.name))).map exceptRange)
      (applyAll s earlier).sections t.sections

/-- The declarations of a package after all actions are those after the last one about it. -/
theorem declarations_of_lastFor? (s : PackageSpec) (h : lastFor? actions name = some a) :
    ∃ earlier, (applyAll s actions).declarations name =
      (apply (applyAll s earlier) a).declarations a.packageId := by
  obtain ⟨hname, earlier, later, rfl, hlater⟩ := lastFor?_eq_some h
  refine ⟨earlier, ?_⟩
  have hrun : applyAll s (earlier ++ a :: later) = applyAll (apply (applyAll s earlier) a) later :=
    applyAll_append s earlier (a :: later)
  rw [hrun, declarations_applyAll hlater, PackageSpec.declarations_congr (eq_of_beq hname)]

/-- Actions without a choice of frameworks leave each package as the last action about it says. -/
theorem last_action_decides (hs : s.DeclaresOnce) (hall : ∀ a ∈ actions, a.kind = .install → a.frameworks = []) :
    DecidedByLast s actions (applyAll s actions) where
  once := declaresOnce_applyAll hs actions
  elsewhere := withoutDependencies_applyAll s actions
  untouched := by
    let untouched : String → Bool := fun k => !actions.any fun b => Text.lower b.packageId == k
    have hout : ∀ a ∈ actions, untouched (Text.lower a.packageId) = false := by
      intro a ha
      simpa [untouched] using ⟨a, ha, rfl⟩
    exact filter_sections_applyAll hout s
  uninstalled := by
    intro name a hlast hkind
    obtain ⟨earlier, heq⟩ := declarations_of_lastFor? s hlast
    rw [heq, apply_of_uninstall hkind]
    exact PackageSpec.declarations_removeDependency ..
  installed := by
    intro name a hlast hkind
    have hframeworks : a.frameworks = [] := hall a (List.mem_reverse.1 (List.mem_of_find?_eq_some hlast)) hkind
    have hselection : selection a.frameworks = none := by rw [hframeworks]; rfl
    obtain ⟨earlier, heq⟩ := declarations_of_lastFor? s hlast
    rw [heq, apply_of_install hkind, hselection]
    refine ⟨(declaresOnce_applyAll hs earlier).range_of_mem_declarations, fun htargets => ?_⟩
    refine PackageSpec.declarations_setDependency_ne_nil fun hnone => htargets ?_
    have hrest := congrArg PackageSpec.targets (withoutDependencies_applyAll s earlier)
    simpa [PackageSpec.withoutDependencies, hnone] using hrest.symm
  updated := by
    rintro earlier later rfl
    rw [applyAll_append]
    let stays : String → Bool := fun k => !later.any fun b => b.kind == .uninstall && Text.lower b.packageId == k
    -- an action that removes a package is none of those after which the package stays
    have hout : ∀ a ∈ later, a.kind = .uninstall → stays (Text.lower a.packageId) = false := by
      intro a ha hkind
      simpa [stays] using ⟨a, ha, hkind, rfl⟩
    exact prefix_sections_applyAll hout (applyAll s earlier)

/-- A project that declares packages for all frameworks and for each of two. -/
def twoTargets : PackageSpec :=
  let net48 : TargetFramework := .plain ⟨Moniker.netFramework, [4, 8], "", ""⟩
  let net6 : TargetFramework := .plain ⟨Moniker.netCoreApp, [6, 0], "", ""⟩
  ⟨"App", "/src/App/App.csproj",
    [⟨net48, [.ofRange "PackageX" .all, .ofRange "PackageY" .all], []⟩, ⟨net6, [.ofRange "packagex" .all], []⟩],
    [.ofRange "Logging" .all, .ofRange "Tracing" .all], none, none, PackageSpec.defaultVersion⟩

/-- Two packages get another range, one of them after it was removed, and a third one is removed in the end. -/
def changesOfThree : List PackageAction :=
  let range : VersionRange := .atLeast ⟨2, 0, 0, 0, [], none⟩ (some "2.0.0")
  [.uninstall "packageY", .install "PACKAGEX" range none [], .install "TRACING" range none [],
    .install "packagey" range none [], .uninstall "tracing"]

/-- Packages are found whatever their letter case, and one that was removed first is added at the end. -/
theorem last_action_decides_changesOfThree :
    twoTargets.DeclaresOnce ∧ (∀ a ∈ changesOfThree, a.kind = .install → a.frameworks = []) ∧
    (applyAll twoTargets changesOfThree).sections.map (List.map Dependency.name) =
      [["Logging"], ["PackageX", "packagey"], ["packagex", "packagey"]] ∧
    DecidedByLast twoTargets changesOfThree (applyAll twoTargets changesOfThree) := by
  have honce : twoTargets.DeclaresOnce := ⟨by decide +kernel, by decide +kernel⟩
  have hall : ∀ a ∈ changesOfThree, a.kind = .install → a.frameworks = [] := by
    simp [changesOfThree, install, uninstall]
  exact ⟨honce, hall, by decide +kernel, last_action_decides honce hall⟩

end PackageAction
end PackageGraph
