import Mathlib.Logic.Relation
import PackageGraph.Proofs.Except
import PackageGraph.Proofs.OrderedMap
import PackageGraph.Workspace
/-!
# Workspaces and what they show

Whatever is done in a workspace, its names and graphs refer to cells that exist. So a graph of cells shows a project for
each of its names, and what is done to the graph is what is done to the graph of specifications that it shows. An edit
changes what refers to the cell of the edited specification: it shows in the graph from which the specification was
taken, and not in that of which it is a copy.
-/
namespace PackageGraph

open Except

namespace Workspace

variable {w w' w'' : Workspace} {name other graph spec unique : String} {g : Graph Nat} {c : Nat} {s : PackageSpec}
  {f : PackageSpec → PackageSpec}

/-! ## Operations -/

/-- One operation on a workspace that succeeds. -/
inductive Step (w : Workspace) : Workspace → Prop
  | nameNew (name : String) (s : PackageSpec) : Step w (w.nameNew name s)
  | nameGraphOf (name : String) (g : DependencyGraph) : Step w (w.nameGraphOf name g)
  | nameProject {w' : Workspace} (name graph unique : String) (h : w.nameProject name graph unique = .ok w') : Step w w'
  | nameCopy {w' : Workspace} (name source : String) (h : w.nameCopy name source = .ok w') : Step w w'
  | edit {w' : Workspace} (name : String) (f : PackageSpec → PackageSpec) (h : w.edit name f = .ok w') : Step w w'
  | addProject {w' : Workspace} (graph spec : String) (h : w.addProject graph spec = .ok w') : Step w w'
  | nameWithProject {w' : Workspace} (name graph spec : String) (h : w.nameWithProject name graph spec = .ok w') :
    Step w w'
  | addRestore {w' : Workspace} (graph unique : String) (h : w.addRestore graph unique = .ok w') : Step w w'
  | nameWithRestore {w' : Workspace} (name graph : String) (roots : List String)
    (h : w.nameWithRestore name graph roots = .ok w') : Step w w'

theorem cell_eq_ok_iff {c? : Option Nat} : w.cell name = .ok c? ↔ w.specs.get? name = some c? := by
  unfold cell
  cases w.specs.get? name <;> simp

theorem presentCell_eq_ok_iff : w.presentCell name = .ok c ↔ w.cell name = .ok (some c) := by
  rw [presentCell, bind_eq_ok_iff]
  constructor
  · rintro ⟨c?, hc, h⟩
    cases c? with
    | none => cases h
    | some d => rwa [← Except.ok.inj h]
  · exact fun h => ⟨some c, h, rfl⟩

theorem graph_eq_ok_iff : w.graph name = .ok g ↔ w.graphs.get? name = some g := by
  unfold Workspace.graph
  cases w.graphs.get? name <;> simp

/-- A project is added under its unique name, if both the graph and the specification are named. -/
theorem addProject_eq_ok_iff : w.addProject graph spec = .ok w' ↔ ∃ g c, w.graph graph = .ok g ∧
    w.cell spec = .ok (some c) ∧ w.nameGraph graph (g.addUnder (w.uniqueName c) c) = w' := by
  simp only [addProject, bind_eq_ok_iff, pure_eq_ok_iff, presentCell_eq_ok_iff, exists_and_left]

/-- A graph with a project replaced has a name of its own, and the graph it came from stays. -/
theorem nameWithProject_eq_ok_iff : w.nameWithProject name graph spec = .ok w' ↔ ∃ g c, w.graph graph = .ok g ∧
    w.cell spec = .ok (some c) ∧ w.nameGraph name (g.replaceUnder (w.uniqueName c) c) = w' := by
  simp only [nameWithProject, bind_eq_ok_iff, pure_eq_ok_iff, presentCell_eq_ok_iff, exists_and_left]

/-- An edit changes the contents of the cell that the name stands for. -/
theorem edit_eq_ok_iff : w.edit name f = .ok w' ↔
    ∃ c, w.cell name = .ok (some c) ∧ { w with cells := w.cells.modify c f } = w' := by
  simp only [edit, map_eq_ok_iff, presentCell_eq_ok_iff]

/-! ## Cells that exist -/

/-- The cells that a graph refers to exist. -/
def Holds (w : Workspace) (g : Graph Nat) : Prop := ∀ e ∈ g.projects, e.2 < w.cells.length

/-- Names and graphs refer to cells that exist. -/
structure IsClosed (w : Workspace) : Prop where
  specs : ∀ name c, w.specs.get? name = some (some c) → c < w.cells.length
  graphs : ∀ name g, w.graphs.get? name = some g → w.Holds g

/-- A workspace without names is closed. -/
theorem isClosed_empty : empty.IsClosed where
  specs := nofun
  graphs := nofun

theorem IsClosed.lt_of_cell (hw : w.IsClosed) (h : w.cell name = .ok (some c)) : c < w.cells.length :=
  hw.specs name c (cell_eq_ok_iff.1 h)

theorem IsClosed.holds (hw : w.IsClosed) (h : w.graph name = .ok g) : w.Holds g :=
  hw.graphs name g (graph_eq_ok_iff.1 h)

theorem IsClosed.nameGraph (hw : w.IsClosed) (hg : w.Holds g) (name : String) : (w.nameGraph name g).IsClosed where
  specs := hw.specs
  graphs := by
    intro other h hh
    rw [Workspace.nameGraph, OrderedMap.get?_put] at hh
    split at hh
    · rwa [← Option.some.inj hh]
    · exact hw.graphs other h hh

theorem IsClosed.nameCell (hw : w.IsClosed) {c? : Option Nat} (hc : ∀ c, c? = some c → c < w.cells.length)
    (name : String) : ({ w with specs := OrderedMap.put w.specs name c? } : Workspace).IsClosed where
  specs := by
    intro other c h
    rw [OrderedMap.get?_put] at h
    split at h
    · exact hc c (Option.some.inj h)
    · exact hw.specs other c h
  graphs := hw.graphs

/-- More cells leave a workspace closed. -/
theorem IsClosed.withMore (hw : w.IsClosed) (more : List PackageSpec) :
    ({ w with cells := w.cells ++ more } : Workspace).IsClosed where
  specs := fun name c h => by
    rw [List.length_append]
    exact Nat.lt_add_right _ (hw.specs name c h)
  graphs := fun name g h e he => by
    rw [List.length_append]
    exact Nat.lt_add_right _ (hw.graphs name g h e he)

/-- A new cell may be named at once. -/
theorem IsClosed.nameNew (hw : w.IsClosed) (name : String) (s : PackageSpec) : (w.nameNew name s).IsClosed := by
  refine (hw.withMore [s]).nameCell (fun c hc => ?_) name
  obtain rfl := Option.some.inj hc
  simp

/-- A graph holds a cell of the workspace that is added to it. -/
theorem Holds.addUnder (hg : w.Holds g) (hc : c < w.cells.length) (key : String) : w.Holds (g.addUnder key c) := by
  intro e he
  rcases OrderedMap.mem_of_mem_putNew he with rfl | he
  · exact hc
  · exact hg e he

theorem Holds.replaceUnder (hg : w.Holds g) (hc : c < w.cells.length) (key : String) :
    w.Holds (g.replaceUnder key c) := by
  intro e he
  rcases OrderedMap.mem_of_mem_put he with rfl | he
  · exact hc
  · exact hg e he

theorem Holds.addRestore (hg : w.Holds g) (unique : String) : w.Holds (g.addRestore unique) := by
  unfold Graph.addRestore
  split <;> exact hg

theorem Holds.withRestore (hg : w.Holds g) (roots : List String) : w.Holds (g.withRestore roots) := hg

/-- An operation leaves no name and no graph with a cell that does not exist. -/
theorem Step.isClosed (hw : w.IsClosed) (h : Step w w') : w'.IsClosed := by
  cases h with
  | nameNew name s => exact hw.nameNew name s
  | nameGraphOf name g =>
    refine (hw.withMore (g.projects.map (·.2))).nameGraph (fun e he => ?_) name
    obtain ⟨p, hp, rfl⟩ := List.mem_map.1 he
    -- the cells of the new graph are those that were just added
    rw [List.length_append, List.length_map]
    exact Nat.add_lt_add_left (List.snd_lt_of_mem_zipIdx hp) _
  | nameProject name graph unique h =>
    obtain ⟨g, hg, rfl⟩ := map_eq_ok_iff.1 h
    exact hw.nameCell (fun c hc => hw.holds hg _ (OrderedMap.mem_of_get? hc)) name
  | nameCopy name source h =>
    obtain ⟨s, -, rfl⟩ := map_eq_ok_iff.1 h
    exact hw.nameNew name s
  | edit name f h =>
    obtain ⟨c, -, rfl⟩ := edit_eq_ok_iff.1 h
    -- an edit changes what a cell contains and not how many there are
    refine ⟨fun other d hd => ?_, fun other g hg e he => ?_⟩
    · rw [List.length_modify]
      exact hw.specs other d hd
    · rw [List.length_modify]
      exact hw.graphs other g hg e he
  | addProject graph spec h =>
    obtain ⟨g, c, hg, hc, rfl⟩ := addProject_eq_ok_iff.1 h
    exact hw.nameGraph ((hw.holds hg).addUnder (hw.lt_of_cell hc) _) graph
  | nameWithProject name graph spec h =>
    obtain ⟨g, c, hg, hc, rfl⟩ := nameWithProject_eq_ok_iff.1 h
    exact hw.nameGraph ((hw.holds hg).replaceUnder (hw.lt_of_cell hc) _) name
  | addRestore graph unique h =>
    obtain ⟨g, hg, rfl⟩ := map_eq_ok_iff.1 h
    exact hw.nameGraph ((hw.holds hg).addRestore unique) graph
  | nameWithRestore name graph roots h =>
    obtain ⟨g, hg, rfl⟩ := map_eq_ok_iff.1 h
    exact hw.nameGraph ((hw.holds hg).withRestore roots) name

/-- In a workspace that was made by operations, names and graphs refer to cells that exist. -/
theorem isClosed_of_steps (h : Relation.ReflTransGen Step empty w) : w.IsClosed := by
  induction h with
  | refl => exact isClosed_empty
  | tail _ hstep ih => exact hstep.isClosed ih

/-! ## What graphs show -/

/-- The specification in a cell. -/
def look (w : Workspace) (c : Nat) : PackageSpec := (w.cells[c]?).getD default

/-- The graph of specifications that a name stands for. -/
def shown (w : Workspace) (name : String) : Except WorkspaceError DependencyGraph := (w.graph name).map w.contents

/-- A graph shows the specification in each of its cells. -/
theorem contents_eq_map (hg : w.Holds g) : w.contents g = g.map w.look := by
  rw [contents, Graph.map, OrderedMap.mapValues, ← List.filterMap_eq_map]
  congr 1
  refine List.filterMap_congr fun e he => ?_
  show (w.cells[e.2]?).map (e.1, ·) = some (e.1, w.look e.2)
  rw [look, List.getElem?_eq_getElem (hg e he)]
  rfl

/-- A graph shows a project for each of its names. -/
theorem names_contents (hw : w.IsClosed) (h : w.graph name = .ok g) : (w.contents g).names = g.names := by
  rw [contents_eq_map (hw.holds h)]
  simp [Graph.map, Graph.names, OrderedMap.mapValues, Function.comp_def]

/-- In a closed workspace a name for a cell is a name for what the cell contains. -/
theorem spec_eq_ok (hw : w.IsClosed) (h : w.cell spec = .ok (some c)) : w.spec spec = .ok (w.look c) := by
  obtain ⟨s, hs⟩ : ∃ s, w.cells[c]? = some s := ⟨_, List.getElem?_eq_getElem (hw.lt_of_cell h)⟩
  have hspec? : w.spec? spec = .ok (some (w.look c)) := by
    rw [spec?, h, look, hs]
    exact congrArg Except.ok hs
  rw [Workspace.spec, hspec?]
  rfl

theorem uniqueName_eq (hw : w.IsClosed) (h : w.cell spec = .ok (some c)) : w.uniqueName c = (w.look c).uniqueName := by
  rw [uniqueName, look, List.getElem?_eq_getElem (hw.lt_of_cell h)]
  rfl

/-- In a closed workspace a graph of cells is shown as the graph of their contents. -/
theorem shown_eq_ok (hw : w.IsClosed) (h : w.graph name = .ok g) : w.shown name = .ok (g.map w.look) := by
  rw [shown, h, ← contents_eq_map (hw.holds h)]
  rfl

/-- A graph under a name changes nothing but what this name stands for. -/
theorem shown_nameGraph (hg : w.Holds g) (name : String) :
    (w.nameGraph name g).shown name = .ok (g.map w.look) ∧
      ∀ other, other ≠ name → (w.nameGraph name g).shown other = w.shown other := by
  constructor
  · have hgraph : (w.nameGraph name g).graph name = .ok g := graph_eq_ok_iff.2 (OrderedMap.get?_put_self _ _ _)
    rw [shown, hgraph, ← contents_eq_map hg]
    rfl
  · intro other hother
    have hgraph : (w.nameGraph name g).graph other = w.graph other := by
      rw [Workspace.graph, Workspace.nameGraph, OrderedMap.get?_put_of_ne _ _ hother]
      rfl
    rw [shown, hgraph]
    rfl

/-- Asking for a restore does not depend on what stands for the projects. -/
theorem map_addRestore (look : Nat → PackageSpec) (g : Graph Nat) (unique : String) :
    (g.addRestore unique).map look = (g.map look).addRestore unique := by
  unfold Graph.addRestore Graph.map
  split <;> rfl

/-- A specification is filed in the graph that is shown, and in no other. -/
theorem shown_addProject (hw : w.IsClosed) (h : w.addProject graph spec = .ok w') :
    ∃ g s, w.shown graph = .ok g ∧ w.spec spec = .ok s ∧ w'.shown graph = .ok (g.addProject s) ∧
      ∀ other, other ≠ graph → w'.shown other = w.shown other := by
  obtain ⟨g, c, hg, hc, rfl⟩ := addProject_eq_ok_iff.1 h
  obtain ⟨hshown, hothers⟩ := shown_nameGraph ((hw.holds hg).addUnder (hw.lt_of_cell hc) (w.uniqueName c)) graph
  refine ⟨g.map w.look, w.look c, shown_eq_ok hw hg, spec_eq_ok hw hc, hshown.trans (congrArg Except.ok ?_), hothers⟩
  rw [DependencyGraph.addProject, ← uniqueName_eq hw hc, Graph.addUnder, Graph.addUnder, Graph.map, Graph.map,
    ← OrderedMap.putNew_mapValues]

/-- The graph in which a specification stands in place of another is shown under its name; the one that it was made
from stays as it is. -/
theorem shown_nameWithProject (hw : w.IsClosed) (h : w.nameWithProject name graph spec = .ok w') :
    ∃ g s, w.shown graph = .ok g ∧ w.spec spec = .ok s ∧ w'.shown name = .ok (g.withProject s) ∧
      ∀ other, other ≠ name → w'.shown other = w.shown other := by
  obtain ⟨g, c, hg, hc, rfl⟩ := nameWithProject_eq_ok_iff.1 h
  obtain ⟨hshown, hothers⟩ := shown_nameGraph ((hw.holds hg).replaceUnder (hw.lt_of_cell hc) (w.uniqueName c)) name
  refine ⟨g.map w.look, w.look c, shown_eq_ok hw hg, spec_eq_ok hw hc, hshown.trans (congrArg Except.ok ?_), hothers⟩
  rw [DependencyGraph.withProject, ← uniqueName_eq hw hc, Graph.replaceUnder, Graph.replaceUnder, Graph.map, Graph.map,
    ← OrderedMap.put_mapValues]

/-- Asking a graph to restore a project does so in the graph as it is shown, and no other graph changes. -/
theorem shown_addRestore (hw : w.IsClosed) (h : w.addRestore graph unique = .ok w') :
    ∃ g, w.shown graph = .ok g ∧ w'.shown graph = .ok (g.addRestore unique) ∧
      ∀ other, other ≠ graph → w'.shown other = w.shown other := by
  obtain ⟨g, hg, rfl⟩ := map_eq_ok_iff.1 h
  obtain ⟨hshown, hothers⟩ := shown_nameGraph ((hw.holds hg).addRestore unique) graph
  exact ⟨g.map w.look, shown_eq_ok hw hg, by rw [hshown, map_addRestore], hothers⟩

/-- Naming a graph with other roots shows it with these, and every graph of another name as it was. -/
theorem shown_nameWithRestore {roots : List String} (hw : w.IsClosed)
    (h : w.nameWithRestore name graph roots = .ok w') :
    ∃ g, w.shown graph = .ok g ∧ w'.shown name = .ok (g.withRestore roots) ∧
      ∀ other, other ≠ name → w'.shown other = w.shown other := by
  obtain ⟨g, hg, rfl⟩ := map_eq_ok_iff.1 h
  obtain ⟨hshown, hothers⟩ := shown_nameGraph ((hw.holds hg).withRestore roots) name
  exact ⟨g.map w.look, shown_eq_ok hw hg, hshown, hothers⟩

/-- A graph of specifications is shown as it was given. -/
theorem shown_nameGraphOf (w : Workspace) (name : String) (g : DependencyGraph) :
    (w.nameGraphOf name g).shown name = .ok g := by
  have hgraph : (w.nameGraphOf name g).graph name =
      .ok ⟨g.projects.zipIdx.map fun e => (e.1.1, w.cells.length + e.2), g.restore⟩ :=
    graph_eq_ok_iff.2 (OrderedMap.get?_put_self _ _ _)
  -- the new cells hold the specifications in order, so that each number leads to the specification that it is of
  have hcell : ∀ e ∈ g.projects.zipIdx,
      ((w.nameGraphOf name g).cells[w.cells.length + e.2]?).map (e.1.1, ·) = some e.1 := by
    intro e he
    have hmem : g.projects[e.2]? = some e.1 := List.mem_zipIdx_iff_getElem?.1 he
    show ((w.cells ++ g.projects.map (·.2))[w.cells.length + e.2]?).map (e.1.1, ·) = some e.1
    rw [List.getElem?_append_right (Nat.le_add_right _ _), Nat.add_sub_cancel_left, List.getElem?_map, hmem]
    rfl
  rw [shown, hgraph]
  refine congrArg Except.ok (congrArg (⟨·, g.restore⟩ : List (String × PackageSpec) → DependencyGraph) ?_)
  show (g.projects.zipIdx.map fun e => (e.1.1, w.cells.length + e.2)).filterMap
    (fun e => ((w.nameGraphOf name g).cells[e.2]?).map (e.1, ·)) = g.projects
  rw [List.filterMap_map]
  calc
    _ = g.projects.zipIdx.filterMap fun e => some e.1 := List.filterMap_congr hcell
    _ = g.projects.zipIdx.map (·.1) := by
      rw [← List.filterMap_eq_map]
      rfl
    _ = g.projects := List.zipIdx_map_fst 0 g.projects

/-! ## What edits change -/

/-- An edit shows under the names that stand for the same cell, and under no other. -/
theorem spec?_edit (h : w.edit name f = .ok w') :
    ∃ c, w.cell name = .ok (some c) ∧
      (∀ other, w.cell other = .ok (some c) → w'.spec? other = (w.spec? other).map (·.map f)) ∧
        ∀ other, w.cell other ≠ .ok (some c) → w'.spec? other = w.spec? other := by
  obtain ⟨c, hc, rfl⟩ := edit_eq_ok_iff.1 h
  have hcell : ∀ other, ({ w with cells := w.cells.modify c f } : Workspace).cell other = w.cell other := fun _ => rfl
  refine ⟨c, hc, fun other hother => ?_, fun other hother => ?_⟩
  · rw [spec?, spec?, hcell, hother]
    simp [Except.map, List.getElem?_modify]
  · rw [spec?, spec?, hcell]
    cases hd : w.cell other with
    | error e => rfl
    | ok d? =>
      cases d? with
      | none => rfl
      | some d =>
        have hne : c ≠ d := fun hcd => hother (by rw [hd, hcd])
        simp [Except.map, List.getElem?_modify, hne]

/-- An edit shows in a graph for the projects that stand in the same cell, and for no other. -/
theorem contents_edit (hg : w.Holds g) (h : w.edit name f = .ok w') :
    ∃ c, w.cell name = .ok (some c) ∧ w'.contents g = g.map fun d => if c = d then f (w.look d) else w.look d := by
  obtain ⟨c, hc, rfl⟩ := edit_eq_ok_iff.1 h
  have hheld : ({ w with cells := w.cells.modify c f } : Workspace).Holds g := by
    intro e he
    rw [List.length_modify]
    exact hg e he
  refine ⟨c, hc, ?_⟩
  rw [contents_eq_map hheld, Graph.map, Graph.map, OrderedMap.mapValues, OrderedMap.mapValues]
  congr 1
  refine List.map_congr_left fun e he => ?_
  simp only [look, List.getElem?_modify, List.getElem?_eq_getElem (hg e he)]
  split <;> rfl

/-- What is taken from a graph is the project of the graph itself, so that an edit of it shows there. -/
theorem shown_of_nameProject_edit (hw : w.IsClosed) (h : w.nameProject name graph unique = .ok w')
    (hedit : w'.edit name f = .ok w'') :
    ∃ g g', w.shown graph = .ok g ∧ w''.shown graph = .ok g' ∧ g'.find? unique = (g.find? unique).map f := by
  obtain ⟨g, hg, hw'⟩ := map_eq_ok_iff.1 h
  have hgraph' : w'.graph graph = .ok g := by rw [← hw']; exact hg
  have hheld : w'.Holds g := by rw [← hw']; exact hw.holds hg
  obtain ⟨c, hc, hcontents⟩ := contents_edit hheld hedit
  -- the name stands for the cell of the project
  have hfound : g.find? unique = some c := by
    rw [cell_eq_ok_iff, ← hw', OrderedMap.get?_put_self] at hc
    exact Option.some.inj hc
  have hlook : w'.look c = w.look c := by rw [← hw']; rfl
  have hgraph : w''.graph graph = .ok g := by
    obtain ⟨d, -, rfl⟩ := edit_eq_ok_iff.1 hedit
    exact hgraph'
  refine ⟨g.map w.look, w''.contents g, shown_eq_ok hw hg, by rw [shown, hgraph]; rfl, ?_⟩
  rw [Graph.find?] at hfound
  rw [hcontents, Graph.find?, Graph.find?, Graph.map, Graph.map, OrderedMap.get?_mapValues, OrderedMap.get?_mapValues,
    hfound, Option.map_some, Option.map_some, if_pos rfl, hlook, Option.map_some]

/-- A new cell leaves the contents of those before it. -/
theorem look_nameNew (hc : c < w.cells.length) (name : String) (s : PackageSpec) :
    (w.nameNew name s).look c = w.look c := by
  rw [look, look, nameNew, List.getElem?_append_left hc]

/-- A new cell is seen under its own name alone. -/
theorem spec?_nameNew (hw : w.IsClosed) (s : PackageSpec) (h : other ≠ name) :
    (w.nameNew name s).spec? other = w.spec? other := by
  have hcell : (w.nameNew name s).cell other = w.cell other := by
    rw [cell, cell, nameNew, OrderedMap.get?_put_of_ne _ _ h]
  rw [spec?, spec?, hcell]
  cases hc : w.cell other with
  | error e => rfl
  | ok c? =>
    cases c? with
    | none => rfl
    | some c =>
      have hcells : (w.nameNew name s).cells[c]? = w.cells[c]? := List.getElem?_append_left (hw.lt_of_cell hc)
      exact congrArg Except.ok hcells

/-- A copy is a specification of its own, so that an edit of it shows nowhere else. -/
theorem spec?_of_nameCopy_edit (hw : w.IsClosed) (h : w.nameCopy name spec = .ok w')
    (hedit : w'.edit name f = .ok w'') :
    (∀ other, other ≠ name → w''.spec? other = w.spec? other) ∧ ∀ graph, w''.shown graph = w.shown graph := by
  obtain ⟨s, -, rfl⟩ := map_eq_ok_iff.1 h
  have hown : (w.nameNew name s).cell name = .ok (some w.cells.length) :=
    cell_eq_ok_iff.2 (OrderedMap.get?_put_self _ _ _)
  constructor
  · intro other hother
    obtain ⟨c, hc, -, hothers⟩ := spec?_edit hedit
    obtain rfl : w.cells.length = c := Option.some.inj (Except.ok.inj (hown.symm.trans hc))
    rw [← spec?_nameNew hw s hother]
    refine hothers other fun hcell => ?_
    -- a cell that another name stands for is older than the copy
    rw [cell_eq_ok_iff, nameNew, OrderedMap.get?_put_of_ne _ _ hother] at hcell
    exact Nat.lt_irrefl _ (hw.specs other _ hcell)
  · intro graph
    have hgraph : w''.graph graph = w.graph graph := by
      obtain ⟨d, -, rfl⟩ := edit_eq_ok_iff.1 hedit
      rfl
    cases hg : w.graph graph with
    | error e => rw [shown, shown, hgraph, hg]; rfl
    | ok g =>
      have hheld : (w.nameNew name s).Holds g := (hw.nameNew name s).holds hg
      obtain ⟨c, hc, hcontents⟩ := contents_edit hheld hedit
      obtain rfl : w.cells.length = c := Option.some.inj (Except.ok.inj (hown.symm.trans hc))
      rw [shown_eq_ok hw hg, shown, hgraph, hg]
      refine congrArg Except.ok (hcontents.trans ?_)
      rw [Graph.map, Graph.map, OrderedMap.mapValues, OrderedMap.mapValues]
      congr 1
      -- the cells of a graph are older than the copy too, so the edit is not seen through them
      refine List.map_congr_left fun e he => ?_
      have hlt : e.2 < w.cells.length := hw.holds hg e he
      simp only [if_neg (Nat.ne_of_gt hlt), look_nameNew hlt]

end Workspace
end PackageGraph
