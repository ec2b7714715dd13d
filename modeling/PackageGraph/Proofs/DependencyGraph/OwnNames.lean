import PackageGraph.Proofs.DependencyGraph.Reader
import PackageGraph.Proofs.Restore.Protocol
/-!
# Projects under their own names

Adding and replacing projects files each under its own unique name, and listing other roots leaves the projects where
they are. Reading a document files them under the names of its entries, which are their own names exactly if no
entry gives its project another one. In such a graph, however it is changed, an edited project takes the place of the
project that was edited; in every other graph it is filed beside it, and a preview restores the project without the
edit.
-/
namespace PackageGraph

namespace DependencyGraph

/-! ## Changes -/

/-- A change that makes a graph from another. -/
inductive Change where
  /-- Files a specification unless its name is taken. -/
  | add (s : PackageSpec)
  /-- Puts a specification in place of the one with its name. -/
  | replace (s : PackageSpec)
  /-- Lists other roots. -/
  | restore (roots : List String)

/-- The graph after a change. -/
def Change.apply (g : DependencyGraph) : Change → DependencyGraph
  | .add s => g.addProject s
  | .replace s => g.withProject s
  | .restore roots => g.withRestore roots

/-- The graph after every change, in order. -/
def changed (g : DependencyGraph) (changes : List Change) : DependencyGraph := changes.foldl Change.apply g

variable {g : DependencyGraph} {name : String} {s t : PackageSpec}

theorem IsKeyed.addProject (hg : g.IsKeyed) (s : PackageSpec) : (g.addProject s).IsKeyed := by
  intro e he
  rcases OrderedMap.mem_of_mem_putNew he with rfl | he
  · rfl
  · exact hg e he

theorem IsKeyed.withProject (hg : g.IsKeyed) (s : PackageSpec) : (g.withProject s).IsKeyed := by
  intro e he
  rcases OrderedMap.mem_of_mem_put he with rfl | he
  · rfl
  · exact hg e he

/-- A change leaves every project under its own name. -/
theorem IsKeyed.apply (hg : g.IsKeyed) (c : Change) : (c.apply g).IsKeyed := by
  cases c with
  | add s => exact hg.addProject s
  | replace s => exact hg.withProject s
  | restore roots => exact hg

/-- Every sequence of changes leaves every project under its own name. -/
theorem IsKeyed.changed (hg : g.IsKeyed) (changes : List Change) : (g.changed changes).IsKeyed := by
  induction changes generalizing g with
  | nil => exact hg
  | cons c changes ih => exact ih (hg.apply c)

/-! ## Edited projects -/

/-- The graph `h` holds `t` under a name and is `g` otherwise, without a further name. -/
structure ReplacesExactly (g h : DependencyGraph) (name : String) (t : PackageSpec) : Prop where
  found : h.find? name = some t
  others : ∀ other, other ≠ name → h.find? other = g.find? other
  names : h.names = g.names
  roots : h.restore = g.restore

/-- An edited project that keeps its name takes the place of the project that was edited. -/
theorem replacesExactly_withProject (hs : g.find? name = some s) (ht : t.uniqueName = name) :
    g.ReplacesExactly (g.withProject t) name t where
  found := find?_withProject ht
  others := fun _ hother => find?_withProject_of_ne ht hother
  names := names_withProject ht hs
  roots := rfl

/-- Edits of the project under a name take effect: an edited project takes its place alone, and every preview that
gets as far as the changed project asks the engine to restore the changed project. -/
structure EditsTakeEffect (g : DependencyGraph) (name : String) (s : PackageSpec) : Prop where
  replaced : ∀ t, t.uniqueName = s.uniqueName → g.ReplacesExactly (g.withProject t) name t
  previewed : ∀ {β : Type} (engine : RestoreEngine β) (settings : Settings) (configured : List String)
    (actions : List PackageAction) (lock : Option β), settings.sources = .ok configured → actions ≠ [] →
    let sources := PackageAction.consultedSources actions configured
    (lock = none → ∃ r, RestorePreview.answer engine name [RestorePreview.request settings sources g name] = .ok r) →
    ∃ q more, (RestorePreview.run engine settings g name actions lock).outcome.2.requests =
        RestorePreview.openingRequests settings sources g name lock ++ q :: more ∧
      q.graph.find? name = some (PackageAction.applyAll s actions)

/-- Edits of a project take effect exactly if it stands under its own name. -/
theorem editsTakeEffect_iff (hs : g.find? name = some s) : g.EditsTakeEffect name s ↔ s.uniqueName = name := by
  constructor
  · intro h
    by_contra hname
    -- an edit that leaves the unique name as it is goes elsewhere, and the project stays as it was
    let t : PackageSpec := { s with version := s.version ++ "+" }
    have hreplaced : (g.withProject t).find? name = some t := (h.replaced t rfl).found
    have hkept : (g.withProject t).find? name = some s := by
      rw [find?_withProject_of_ne (rfl : t.uniqueName = s.uniqueName) (Ne.symm hname), hs]
    have hversion : s.version ++ "+" = s.version :=
      congrArg PackageSpec.version (Option.some.inj (hreplaced.symm.trans hkept))
    simpa using congrArg String.length hversion
  · intro hname
    refine ⟨fun t ht => replacesExactly_withProject hs (ht.trans hname), ?_⟩
    intro β engine settings configured actions lock hsources hactions sources hopen
    obtain ⟨retry, hrequests, -, -⟩ :=
      RestorePreview.requests_after_opening engine hs hactions hsources lock hopen
    refine ⟨RestorePreview.changedRequest settings sources g name s actions, retry, ?_, ?_⟩
    · rw [hrequests, List.append_assoc]
      rfl
    · have happlied : (PackageAction.applyAll s actions).uniqueName = name := by
        rw [PackageAction.uniqueName_applyAll, hname]
      exact find?_withProject happlied

/-! ## Projects of a document -/

namespace Document

/-- The entry gives its project no other unique name than its own, and none of a path to an empty one. -/
def BearsOwnName (e : String × Json) : Prop :=
  (∀ unique ∈ filled? (restoreSection e.2) "projectUniqueName", unique = e.1) ∧
    (e.1 = "" → filled? (restoreSection e.2) "projectPath" = none)

instance (e : String × Json) : Decidable (BearsOwnName e) := inferInstanceAs (Decidable (_ ∧ _))

variable {path : String}

/-- A text that counts is not empty. -/
theorem ne_empty_of_filled? {j : Json} {name text : String} (h : filled? j name = some text) : text ≠ "" := by
  simpa using (Option.filter_eq_some_iff.1 h).2

/-- The project of an entry has the name of the entry exactly if the entry gives it no other. -/
theorem uniqueName_eq_iff_of_readProject {body : Json} (hread : readProject path name body = .ok s) :
    s.uniqueName = name ↔ BearsOwnName (name, body) := by
  obtain ⟨references, -, -, hs⟩ := readProject_eq_ok hread
  rw [hs]
  simp only [PackageSpec.uniqueName, readMetadata, BearsOwnName]
  obtain hunique | ⟨unique, hunique⟩ := Option.eq_none_or_eq_some (filled? (restoreSection body) "projectUniqueName")
  · simp only [hunique, Option.getD_none]
    by_cases hname : name = ""
    · -- the empty name gives way to the path
      subst hname
      obtain hpath | ⟨p, hpath⟩ := Option.eq_none_or_eq_some (filled? (restoreSection body) "projectPath")
      · simp [projectPath, hpath]
      · simpa [projectPath, hpath] using ne_empty_of_filled? hpath
    · simp [hname]
  · have hne : unique ≠ "" := ne_empty_of_filled? hunique
    have hempty : unique.isEmpty = false := by simpa using hne
    simp only [hunique, Option.getD_some, hempty, Bool.false_eq_true, if_false, Option.mem_some, forall_eq']
    exact ⟨fun h => ⟨h, fun hname => absurd (h.trans hname) hne⟩, fun h => h.1⟩

/-- A graph that is read is keyed by name exactly if each project bears the name that it is filed under. -/
theorem isKeyed_iff_of_read {j : Json} (hread : read path j = .ok g) :
    g.IsKeyed ↔ ∀ e ∈ entries j "projects", BearsOwnName e := by
  obtain ⟨-, hconvert⟩ := read_eq_ok_iff.1 hread
  refine (Except.forall_mem_iff_of_mapM_eq_ok (convert_eq_ok hconvert).1 fun e entry hentry => ?_).symm
  obtain ⟨s, hs, rfl⟩ := Except.map_eq_ok_iff.1 hentry
  exact (uniqueName_eq_iff_of_readProject hs).symm

/-- In every graph that is made from one that was read, the projects stand under their own names and edits of them
take effect, exactly if every entry of the document leaves its project the name of the entry. Whatever the document,
edits of a project take effect exactly if it stands under its own name. -/
theorem keyed_after_changes_iff_own_names {j : Json} (hread : read path j = .ok g) :
    ((∀ changes, (g.changed changes).IsKeyed ∧
        ∀ name s, (g.changed changes).find? name = some s → (g.changed changes).EditsTakeEffect name s) ↔
      ∀ e ∈ entries j "projects", BearsOwnName e) ∧
    ∀ changes name s, (g.changed changes).find? name = some s →
      ((g.changed changes).EditsTakeEffect name s ↔ s.uniqueName = name) := by
  rw [← isKeyed_iff_of_read hread]
  refine ⟨⟨fun h => (h []).1, fun hkeyed changes => ⟨hkeyed.changed changes, fun name s hs => ?_⟩⟩,
    fun changes name s hs => editsTakeEffect_iff hs⟩
  exact (editsTakeEffect_iff hs).2 ((hkeyed.changed changes).uniqueName_eq hs)

/-- A project that is named as its entry is, and one that is not named apart from its entry. -/
def namedDocument : Json :=
  .object [("projects", .object [
    ("/src/App/App.csproj", .object [
      ("restore", .object [("projectUniqueName", .text "/src/App/App.csproj"), ("projectPath", .text "App.csproj")]),
      ("dependencies", .object [("PackageX", .text "1.0.0")])]),
    ("Lib", .object [("frameworks", .object [("net6.0", .empty)])])])]

/-- A document of two projects, one named by its path and one by a name of its own. -/
theorem keyed_after_changes_namedDocument :
    ∃ g, read "" namedDocument = .ok g ∧ g.names = ["/src/App/App.csproj", "Lib"] ∧
      ∀ changes, (g.changed changes).IsKeyed ∧
        ∀ name s, (g.changed changes).find? name = some s → (g.changed changes).EditsTakeEffect name s := by
  have hread : read "" namedDocument = .ok ((read "" namedDocument).toOption.getD .empty) := by rfl
  exact ⟨_, hread, by rfl, (keyed_after_changes_iff_own_names hread).1.2 (by decide +kernel)⟩

/-- A project with another name than its entry. -/
def misnamedDocument : Json :=
  .object [("projects", .object [("/src/App/App.csproj", .object [
    ("restore", .object [("projectUniqueName", .text "App")]), ("frameworks", .object [("net6.0", .empty)])])])]

/-- The project does not stand under its own name. With a package added it is filed beside itself, so that a preview
restores it without the package. -/
theorem not_keyed_misnamedDocument :
    ∃ g s, read "" misnamedDocument = .ok g ∧ g.find? "/src/App/App.csproj" = some s ∧ s.uniqueName = "App" ∧
      ¬ g.IsKeyed ∧
      let edited := s.setDependency "PackageX" .all none
      (g.withProject edited).names = ["/src/App/App.csproj", "App"] ∧
        (g.withProject edited).find? "/src/App/App.csproj" = some s ∧ ¬ g.EditsTakeEffect "/src/App/App.csproj" s := by
  refine ⟨_, _, rfl, rfl, rfl, fun h => ?_, rfl, rfl, fun h => ?_⟩
  · have hname := h.uniqueName_eq (show Graph.find? _ "/src/App/App.csproj" = some _ from rfl)
    exact absurd hname (by decide +kernel)
  · exact absurd ((editsTakeEffect_iff rfl).1 h) (by decide +kernel)

end Document
end DependencyGraph
end PackageGraph
