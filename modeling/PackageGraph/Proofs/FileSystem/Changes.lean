import PackageGraph.Proofs.Except
import PackageGraph.Proofs.OrderedMap
import PackageGraph.Proofs.Path
/-!
# Changes of files

The place that a path leads to is read off the path. Writing to a place or removing what stands there changes nothing
elsewhere, and making directories adds directories where nothing stood.
-/
namespace PackageGraph.FileSystem

open Except

variable {fs made : FileSystem} {path : String} {place other : Place}

/-! ## Places of paths -/

/-- The components of a path are followed as they are written. -/
theorem eq_of_follow {names : List String} {start : Place} (h : fs.follow start names = .ok place) :
    place = (names.filter fun n => n ≠ "" ∧ n ≠ ".").foldl
      (fun place name => if name = ".." then place.dropLast else place ++ [name]) start := by
  induction names generalizing start with
  | nil => exact (Except.ok.inj h).symm
  | cons name names ih =>
    rw [follow] at h
    split at h
    · cases h
    · cases h
    · split at h
      · cases h
      · split at h
        -- an empty name and a single dot lead nowhere
        · rename_i hskipped
          rw [List.filter_cons_of_neg (by simpa [or_iff_not_imp_left] using hskipped)]
          exact ih h
        · rename_i hname
          rw [List.filter_cons_of_pos (by simpa [not_or] using hname), List.foldl_cons]
          split at h
          -- two dots lead up, every other name down
          · rename_i hup
            rw [if_pos hup]
            exact ih h
          · rename_i hdown
            rw [if_neg hdown]
            exact ih h

/-- A path leads to its components, if it leads anywhere. -/
theorem eq_componentsFrom_of_locate (h : fs.locate path = .ok place) : place = fs.componentsFrom path := by
  unfold locate at h
  split at h
  · cases h
  · split at h
    · cases h
    · split at h
      · cases h
      · exact eq_of_follow h

/-- The components of an absolute path do not depend on the files. -/
theorem componentsFrom_of_isAbsolute (h : Path.isAbsolute path = true) (fs other : FileSystem) :
    fs.componentsFrom path = other.componentsFrom path := by
  have hslash : (path.toList.head? == some '/') = true := h
  simp only [componentsFrom, hslash, if_true]

/-- A path leads to what stands at the place that it locates. -/
theorem lookUp_eq_ok_iff {node : FileNode} : fs.lookUp path = .ok node ↔
    ∃ place, fs.locate path = .ok place ∧ fs.node? place = some node := by
  rw [lookUp, bind_eq_ok_iff]
  refine exists_congr fun place => and_congr_right fun _ => ?_
  cases fs.node? place <;> simp

/-- Nothing stands at a path that leads to nothing. -/
theorem exists?_eq_false_iff : fs.exists? path = false ↔ ∀ node, fs.lookUp path ≠ .ok node := by
  unfold exists?
  cases fs.lookUp path <;> simp [Except.isOk, Except.toBool]

theorem isDirectory_eq_false_iff : fs.isDirectory path = false ↔ fs.lookUp path ≠ .ok .directory := by
  unfold isDirectory
  split
  · rename_i h
    simp [h]
  · rename_i h
    exact iff_of_true rfl h

/-! ## Single places -/

theorem node?_of_ne_root (h : place ≠ []) : fs.node? place = OrderedMap.get? fs.nodes place := by
  rw [node?, if_neg (by simpa using h)]

/-- What is put at a place stands there. -/
theorem node?_putNode_self (h : place ≠ []) (node : FileNode) : (fs.putNode place node).node? place = some node := by
  rw [node?_of_ne_root h, putNode, OrderedMap.get?_put_self]

/-- Nothing changes at any other place. -/
theorem node?_putNode_of_ne (h : other ≠ place) (node : FileNode) :
    (fs.putNode place node).node? other = fs.node? other := by
  unfold node? putNode
  rw [OrderedMap.get?_put_of_ne _ _ h]

/-- Removing a file leaves every other place as it is. -/
theorem node?_remove_of_ne (h : other ≠ fs.componentsFrom path) : (fs.remove path).node? other = fs.node? other := by
  unfold remove
  split
  · rename_i place hplace
    obtain rfl := eq_componentsFrom_of_locate hplace
    unfold node?
    rw [OrderedMap.get?_filter_of_ne _ h]
  · rfl

/-- A path that leads to no directory leads nowhere after what stands there has been removed. -/
theorem exists?_remove (habsolute : Path.isAbsolute path = true) (h : fs.isDirectory path = false) :
    (fs.remove path).exists? path = false := by
  rw [exists?_eq_false_iff]
  intro node hnode
  obtain ⟨place, hlocate, hfound⟩ := lookUp_eq_ok_iff.1 hnode
  cases hbefore : fs.locate path with
  | error f =>
    rw [remove, hbefore] at hlocate
    cases hbefore.symm.trans hlocate
  | ok before =>
    -- both times the path leads to the same place
    have hsame : before = place := by
      rw [eq_componentsFrom_of_locate hbefore, eq_componentsFrom_of_locate hlocate]
      exact componentsFrom_of_isAbsolute habsolute fs _
    subst hsame
    have hroot : before ≠ [] := by
      rintro rfl
      exact isDirectory_eq_false_iff.1 h (lookUp_eq_ok_iff.2 ⟨[], hbefore, rfl⟩)
    rw [node?_of_ne_root hroot, remove, hbefore] at hfound
    cases (OrderedMap.get?_filter_self fs.nodes before).symm.trans hfound

/-- A file that is written stands where its path leads, and nothing changes elsewhere. -/
theorem write_eq_ok {content : List UInt8} (h : fs.write path content = .ok made) :
    made = fs.putNode (fs.componentsFrom path) (.file content) ∧ fs.componentsFrom path ≠ [] := by
  obtain ⟨place, hplace, hwrite⟩ := bind_eq_ok_iff.1 h
  obtain rfl := eq_componentsFrom_of_locate hplace
  split at hwrite
  · cases hwrite
  · rename_i hnode
    refine ⟨(Except.ok.inj hwrite).symm, ?_⟩
    intro hroot
    rw [hroot] at hnode
    cases hnode
  -- a directory stands at the root, and it is not written over
  · rename_i hnode
    have hroot : fs.componentsFrom path ≠ [] := by
      intro hroot
      rw [hroot] at hnode
      cases hnode
    split at hwrite
    · cases hwrite
    · split at hwrite
      · exact ⟨(Except.ok.inj hwrite).symm, hroot⟩
      · cases hwrite
      · cases hwrite

/-! ## Directories -/

/-- Nothing has changed except that there are directories where nothing stood. -/
def AddsDirectories (fs made : FileSystem) : Prop :=
  ∀ place, made.node? place = fs.node? place ∨ fs.node? place = none ∧ made.node? place = some .directory

theorem AddsDirectories.refl (fs : FileSystem) : fs.AddsDirectories fs := fun _ => .inl rfl

/-- Directories that are made in two steps are directories that are made. -/
theorem AddsDirectories.trans {next : FileSystem} (h : fs.AddsDirectories made) (hnext : made.AddsDirectories next) :
    fs.AddsDirectories next := by
  intro place
  rcases h place with hsame | ⟨hnone, hdirectory⟩
  · rw [← hsame]
    exact hnext place
  · refine .inr ⟨hnone, ?_⟩
    rcases hnext place with hkept | ⟨hmissing, -⟩
    · rw [hkept, hdirectory]
    · cases hdirectory.symm.trans hmissing

/-- A directory is made where nothing stands. -/
theorem addsDirectories_putNode (h : fs.node? place = none) : fs.AddsDirectories (fs.putNode place .directory) := by
  have hroot : place ≠ [] := by
    rintro rfl
    cases h
  intro other
  by_cases hother : other = place
  · subst hother
    exact .inr ⟨h, node?_putNode_self hroot .directory⟩
  · exact .inl (node?_putNode_of_ne hother .directory)

/-- Making directories one below the other makes directories and nothing else. -/
theorem addsDirectories_makePlaces {above : Place} {names : List String} (h : fs.makePlaces above names = .ok made) :
    fs.AddsDirectories made := by
  induction names generalizing fs above with
  | nil =>
    obtain rfl := Except.ok.inj h
    exact .refl fs
  | cons name names ih =>
    rw [makePlaces] at h
    split at h
    · exact ih h
    · cases h
    · rename_i hnone
      split at h
      · cases h
      · exact (addsDirectories_putNode hnone).trans (ih h)

/-- So does making all of them on the way to a path. -/
theorem addsDirectories_makeDirectories (h : fs.makeDirectories path = .ok made) : fs.AddsDirectories made := by
  unfold makeDirectories at h
  split at h
  · cases h
  · split at h
    · cases h
    · exact addsDirectories_makePlaces h

/-- What is made before a fault is directories too. -/
theorem addsDirectories_placesMade (fs : FileSystem) (above : Place) (names : List String) :
    fs.AddsDirectories (fs.placesMade above names) := by
  induction names generalizing fs above with
  | nil => exact .refl fs
  | cons name names ih =>
    rw [placesMade]
    split
    · exact ih fs _
    · exact .refl fs
    · rename_i hnone
      split
      · exact .refl fs
      · exact (addsDirectories_putNode hnone).trans (ih _ _)

theorem addsDirectories_directoriesMade (fs : FileSystem) (path : String) :
    fs.AddsDirectories (fs.directoriesMade path) := by
  unfold directoriesMade
  split
  · exact .refl fs
  · exact addsDirectories_placesMade fs _ _

end PackageGraph.FileSystem
