import PackageGraph.Proofs.Path.Normal
import PackageGraph.Proofs.Text.Blank
/-!
# The paths of references

The directory of a normalized path is the path without its last component. So a reference leads from its project one
step up and then along its own path, and how the path of the project is spelled makes no difference.
-/
namespace PackageGraph.Path

open Text

/-- The path of a reference as it is written: from the project one step up, and then along the reference, in which
backslashes separate components too. -/
def writtenReference (cwd project reference : String) : String :=
  append (append (append cwd project) "..") (.ofList (reference.toList.map fun c => if c = '\\' then '/' else c))

/-! ## One path after the other -/

section

variable {base path : String}

/-- An absolute path is not taken from any base. -/
theorem append_of_isAbsolute (h : isAbsolute path = true) : append base path = path := by
  rw [append, if_pos h]

/-- A slash separates the paths, which the first may end with. -/
theorem append_cases (hbase : isAbsolute base = true) (hpath : isAbsolute path = false) :
    (∃ front, base.toList = front ++ ['/'] ∧ (append base path).toList = front ++ '/' :: path.toList) ∨
      (base.toList.getLast? ≠ some '/' ∧ (append base path).toList = base.toList ++ '/' :: path.toList) := by
  obtain ⟨cs, hcs⟩ := isAbsolute_iff.1 hbase
  have hne : base.isEmpty = false := by
    rw [← Bool.not_eq_true, String.isEmpty_iff]
    rintro rfl
    cases hcs
  rw [append, if_neg (by simp [hpath]), hne, Bool.false_or]
  by_cases hlast : base.toList.getLast? = some '/'
  · obtain ⟨front, hfront⟩ := List.getLast?_eq_some_iff.1 hlast
    rw [if_pos (by simp [hlast]), String.toList_append, hfront]
    exact .inl ⟨front, rfl, by simp⟩
  · rw [if_neg (by simp [hlast]), String.toList_append, String.toList_append]
    exact .inr ⟨hlast, by simp⟩

/-- The slashes at the start of a path do not change when no slash follows them. -/
theorem rootMark_append_of_slash {cs ds : List Char} (hcs : cs.head? = some '/')
    (h : cs.getLast? ≠ some '/' ∨ ds.head? ≠ some '/') : rootMark (cs ++ ds) = rootMark cs := by
  obtain ⟨rest, rfl⟩ := List.head?_eq_some_iff.1 hcs
  -- up to three characters decide which slashes are kept
  cases rest with
  | nil => exact rootMark_append (.inr (.inl rfl)) (h.resolve_left (by simp))
  | cons c rest =>
    by_cases hc : c = '/'
    · subst hc
      cases rest with
      | nil => exact rootMark_append (.inr (.inr rfl)) (h.resolve_left (by simp))
      | cons d rest => by_cases hd : d = '/' <;> simp [rootMark, hd]
    · simp [rootMark, hc]

/-- A relative path taken from an absolute base has the root mark of the base. -/
theorem rootMark_toList_append (hbase : isAbsolute base = true) (hpath : isAbsolute path = false) :
    rootMark (append base path).toList = rootMark base.toList := by
  have hhead : base.toList.head? = some '/' := by simpa [isAbsolute] using hbase
  have hnot : path.toList.head? ≠ some '/' := by simpa [isAbsolute] using hpath
  rcases append_cases hbase hpath with ⟨front, hfront, happend⟩ | ⟨hlast, happend⟩
  · have hsplit : front ++ '/' :: path.toList = base.toList ++ path.toList := by simp [hfront]
    rw [happend, hsplit, rootMark_append_of_slash hhead (.inr hnot)]
  · rw [happend, rootMark_append_of_slash hhead (.inl hlast)]

/-- The components of the second path are worked off after those of the first. -/
theorem components_toList_append (hbase : isAbsolute base = true) (hpath : isAbsolute path = false) :
    components (append base path).toList = resolved true (components base.toList ++ splitOn '/' path.toList) := by
  have hsplit : ∀ front : List Char,
      splitOn '/' (front ++ '/' :: path.toList) = splitOn '/' front ++ splitOn '/' path.toList := fun front =>
    splitWhere_append_cons_append rfl front path.toList
  rw [components_eq, components_eq, isEmpty_rootMark, isEmpty_rootMark, hbase, isAbsolute_append hbase,
    resolved_resolved_append]
  rcases append_cases hbase hpath with ⟨front, hfront, happend⟩ | ⟨-, happend⟩
  · -- the first path ends with an empty component, which leads nowhere
    have hend : splitOn '/' (front ++ ['/']) = splitOn '/' front ++ [[]] := splitWhere_append_cons_append rfl front []
    rw [happend, hsplit, hfront, hend, List.append_assoc]
    exact (resolved_eq_of_shortens (.stay _ _ (.inl rfl))).symm
  · rw [happend, hsplit]

end

/-! ## The directory of a normalized path -/

/-- A name without slashes is split off at the slash before it. -/
theorem splitLast_append_cons {name : List Char} (h : '/' ∉ name) (front : List Char) :
    splitLast (front ++ '/' :: name) = (front ++ ['/'], name) := by
  have hrun : (name.reverse ++ '/' :: front.reverse).takeWhile (· != '/') = name.reverse := by
    refine takeWhile_run (fun c hc => ?_) (by simp)
    exact bne_iff_ne.2 fun heq => h (heq ▸ List.mem_reverse.1 hc)
  have hreverse : (front ++ '/' :: name).reverse = name.reverse ++ '/' :: front.reverse := by simp
  have hparts : front ++ '/' :: name = (front ++ ['/']) ++ name := by simp
  rw [splitLast, hreverse, hrun, List.reverse_reverse, hparts, List.length_append, Nat.add_sub_cancel, List.take_left]

/-- The slashes before the last component belong to the directory where nothing else stands before them. -/
theorem directory_of_slashes {mark name : List Char} (hmark : IsMark mark) (hne : mark ≠ []) (hname : '/' ∉ name) :
    directory (.ofList (mark ++ name)) = .ofList mark := by
  obtain ⟨front, rfl, hslashes⟩ : ∃ front, mark = front ++ ['/'] ∧ (front ++ ['/']).all (· == '/') = true := by
    rcases hmark with rfl | rfl | rfl
    · exact absurd rfl hne
    · exact ⟨[], rfl, rfl⟩
    · exact ⟨['/'], rfl, rfl⟩
  rw [List.append_assoc, List.singleton_append, directory, String.toList_ofList, splitLast_append_cons hname]
  exact if_pos hslashes

/-- The slash before the last component goes where something else stands before it. -/
theorem directory_append_cons {c : Char} {name : List Char} (hc : c ≠ '/') (hname : '/' ∉ name) (front : List Char) :
    directory (.ofList (front ++ [c] ++ '/' :: name)) = .ofList (front ++ [c]) := by
  have hslashes : ¬ (front ++ [c] ++ ['/']).all (· == '/') = true := by simp [hc]
  have hend : dropEndWhile (· == '/') (front ++ [c] ++ ['/']) = front ++ [c] := by
    rw [List.append_assoc, List.singleton_append, dropEndWhile_append_cons (by simpa using hc)]
    simp [dropEndWhile]
  rw [directory, String.toList_ofList, splitLast_append_cons hname]
  exact (if_neg hslashes).trans (congrArg String.ofList hend)

theorem joinComponents_cons {cs : List (List Char)} (h : cs ≠ []) (c : List Char) :
    joinComponents (c :: cs) = c ++ '/' :: joinComponents cs := by
  cases cs with
  | nil => exact absurd rfl h
  | cons d cs => rfl

/-- The last component stands after a slash and the components before it. -/
theorem joinComponents_append_singleton {cs : List (List Char)} (h : cs ≠ []) (c : List Char) :
    joinComponents (cs ++ [c]) = joinComponents cs ++ '/' :: c := by
  induction cs with
  | nil => exact absurd rfl h
  | cons d cs ih =>
    by_cases hcs : cs = []
    · subst hcs
      rfl
    · rw [List.cons_append, joinComponents_cons (by simp), ih hcs, joinComponents_cons hcs, List.append_assoc,
        List.cons_append]

theorem pathChars_of_ne_nil {mark : List Char} (h : mark ≠ []) (cs : List (List Char)) :
    pathChars mark cs = mark ++ joinComponents cs := by
  unfold pathChars
  split
  · rename_i hnil
    exact absurd (List.append_eq_nil_iff.1 hnil).1 h
  · rfl

/-- Up to its last component nothing is left of components from the root but for a step up. -/
theorem add_up_of_isReduced {cs : List (List Char)} (h : IsReduced true cs) : add true cs up = cs.dropLast := by
  rcases h.add_up_cases with ⟨init, name, -, -, rfl, hup⟩ | ⟨-, rfl, hup⟩ | ⟨hrooted, -⟩
  · rw [hup, List.dropLast_concat]
  · exact hup
  · cases hrooted

namespace IsNormal

variable {mark : List Char} {cs : List (List Char)} (h : IsNormal mark cs)

include h

/-- Without its last component a path from the root is normalized still. -/
theorem dropLast (hmark : mark ≠ []) : IsNormal mark cs.dropLast := by
  have hrooted : (!mark.isEmpty) = true := by simpa using hmark
  have hreduced : IsReduced true cs := hrooted ▸ h.isReduced
  refine ⟨h.isMark, ?_, fun c hc => h.whole c (List.dropLast_subset _ hc)⟩
  rw [hrooted, ← add_up_of_isReduced hreduced]
  exact isReduced_add hreduced up

/-- Components do not end in a slash. -/
theorem exists_joinComponents_eq (hne : cs ≠ []) : ∃ front c, c ≠ '/' ∧ joinComponents cs = front ++ [c] := by
  obtain ⟨init, last, rfl⟩ := (List.eq_nil_or_concat' cs).resolve_left hne
  have hlast : last ∈ init ++ [last] := by simp
  obtain ⟨front, c, rfl⟩ := (List.eq_nil_or_concat' last).resolve_left (h.isReduced.ne_nil_of_mem hlast)
  have hc : c ≠ '/' := by
    rintro rfl
    exact h.whole _ hlast (by simp)
  by_cases hinit : init = []
  · subst hinit
    exact ⟨front, c, hc, rfl⟩
  · exact ⟨joinComponents init ++ '/' :: front, c, hc, by rw [joinComponents_append_singleton hinit]; simp⟩

/-- The directory of a normal path is the path without its last component. -/
theorem directory_pathChars (hmark : mark ≠ []) :
    directory (.ofList (pathChars mark cs)) = .ofList (pathChars mark cs.dropLast) := by
  rcases List.eq_nil_or_concat' cs with rfl | ⟨init, last, rfl⟩
  · rcases h.isMark with rfl | rfl | rfl
    · exact absurd rfl hmark
    · rfl
    · rfl
  · have hinit : IsNormal mark init := by simpa using h.dropLast hmark
    have hlast : '/' ∉ last := h.whole last (by simp)
    rw [List.dropLast_concat, pathChars_of_ne_nil hmark, pathChars_of_ne_nil hmark]
    -- a single component stands right after the mark, where there is no slash of its own to cut at
    by_cases hnil : init = []
    · rw [hnil, List.nil_append, joinComponents, joinComponents, List.append_nil,
        directory_of_slashes h.isMark hmark hlast]
    · obtain ⟨front, c, hc, hfront⟩ := hinit.exists_joinComponents_eq hnil
      rw [joinComponents_append_singleton hnil, hfront, ← List.append_assoc, ← List.append_assoc,
        directory_append_cons hc hlast]

end IsNormal

theorem rootMark_ne_nil {path : String} (h : isAbsolute path = true) : rootMark path.toList ≠ [] := by
  have hempty := isEmpty_rootMark path
  rw [h] at hempty
  simpa using hempty

/-! ## References -/

/-- Seen from the directory of a normalized path, a path leads one step up from it and then along. -/
theorem normalize_append_directory {path : String} (h : isAbsolute path = true) (relative : String) :
    normalize (append (directory (normalize path)) relative) = normalize (append (append path "..") relative) := by
  by_cases hrelative : isAbsolute relative = true
  · rw [append_of_isAbsolute hrelative, append_of_isAbsolute hrelative]
  · rw [Bool.not_eq_true] at hrelative
    have hmark := rootMark_ne_nil h
    have hnormal := isNormal path.toList
    have hdirectory : (directory (normalize path)).toList =
        pathChars (rootMark path.toList) (components path.toList).dropLast := by
      rw [normalize, normalizeChars_eq, hnormal.directory_pathChars hmark, String.toList_ofList]
    -- both begin as the path does, and have its components without the last one
    have hmarks : rootMark (directory (normalize path)).toList = rootMark (append path "..").toList := by
      rw [hdirectory, (hnormal.dropLast hmark).rootMark_pathChars, rootMark_toList_append h rfl]
    have hcomponents : components (directory (normalize path)).toList = components (append path "..").toList := by
      have hreduced : IsReduced true (components path.toList) := by
        have hreduced := hnormal.isReduced
        rwa [isEmpty_rootMark, h] at hreduced
      have hup : splitOn '/' "..".toList = [up] := rfl
      rw [hdirectory, (hnormal.dropLast hmark).components_pathChars, components_toList_append h rfl, hup,
        resolved_append_singleton, hreduced.resolved_eq, add_up_of_isReduced hreduced]
    have habsolute : isAbsolute (directory (normalize path)) = true := by
      rw [← isEmpty_rootMark, hmarks, isEmpty_rootMark]
      exact isAbsolute_append h
    rw [normalize_eq_iff_parts]
    constructor
    · rw [rootMark_toList_append habsolute hrelative, rootMark_toList_append (isAbsolute_append h) hrelative, hmarks]
    · rw [components_toList_append habsolute hrelative, components_toList_append (isAbsolute_append h) hrelative,
        hcomponents]

variable {cwd : String} (hcwd : isAbsolute cwd = true)

include hcwd

/-- A reference leads from its project one step up and then along its own path. -/
theorem resolveReference_eq (project reference : String) :
    resolveReference cwd project reference = normalize (writtenReference cwd project reference) :=
  normalize_append_directory (isAbsolute_append hcwd) _

/-- A reference is written as an absolute path, whatever it is in the project. -/
theorem isAbsolute_writtenReference (project reference : String) :
    isAbsolute (writtenReference cwd project reference) = true :=
  isAbsolute_append (isAbsolute_append (isAbsolute_append hcwd))

omit hcwd in
/-- A normalized path from the root is the same as seen from everywhere. -/
theorem absolute_normalize {path : String} (h : isAbsolute path = true) :
    absolute cwd (normalize path) = normalize path := by
  rw [absolute, append_of_isAbsolute (isAbsolute_normalize h), normalize_normalize]

end PackageGraph.Path
