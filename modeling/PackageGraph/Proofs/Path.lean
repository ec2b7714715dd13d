import PackageGraph.FileSystem
import PackageGraph.Path
/-!
# Absolute paths

A path that begins at the root still does after it has been normalized, and so does every path as seen from a working
directory.
-/
namespace PackageGraph

namespace Path

/-- A path is absolute when it begins with a slash. -/
theorem isAbsolute_iff {path : String} : isAbsolute path = true ↔ ∃ cs, path.toList = '/' :: cs := by
  rw [isAbsolute, beq_iff_eq, List.head?_eq_some_iff]

/-- The slash at the start is kept. -/
theorem exists_rootMark_cons (cs : List Char) : ∃ mark, rootMark ('/' :: cs) = '/' :: mark := by
  unfold rootMark
  split
  · exact ⟨[], rfl⟩
  · exact ⟨['/'], rfl⟩
  · exact ⟨[], rfl⟩
  · rename_i hnone
    exact absurd rfl (hnone cs)

/-- The normal form of an absolute path is absolute. -/
theorem isAbsolute_normalize {path : String} (h : isAbsolute path = true) : isAbsolute (normalize path) = true := by
  obtain ⟨cs, hcs⟩ := isAbsolute_iff.1 h
  obtain ⟨mark, hmark⟩ := exists_rootMark_cons cs
  rw [normalize, hcs, isAbsolute_iff, String.toList_ofList, normalizeChars, hmark]
  exact ⟨_, rfl⟩

/-- What is seen from an absolute path is absolute. -/
theorem isAbsolute_append {base path : String} (h : isAbsolute base = true) :
    isAbsolute (append base path) = true := by
  obtain ⟨cs, hcs⟩ := isAbsolute_iff.1 h
  rw [append]
  split
  · assumption
  · split
    · rw [isAbsolute_iff, String.toList_append, hcs]
      exact ⟨_, rfl⟩
    · rw [isAbsolute_iff, String.toList_append, String.toList_append, hcs]
      exact ⟨_, rfl⟩

/-- A path is made absolute from an absolute directory. -/
theorem isAbsolute_absolute {cwd : String} (h : isAbsolute cwd = true) (path : String) :
    isAbsolute (absolute cwd path) = true :=
  isAbsolute_normalize (isAbsolute_append h)

/-- The absolute form of a path is not empty, as the normal form of the empty path is a dot. -/
theorem absolute_ne_empty (cwd path : String) : absolute cwd path ≠ "" := by
  have hchars : ∀ cs, normalizeChars cs ≠ [] := by
    intro cs
    unfold normalizeChars
    split
    · exact List.cons_ne_nil _ _
    · assumption
  rw [absolute, normalize, Ne, String.ofList_eq_empty_iff]
  exact hchars _

end Path

theorem FileSystem.isAbsolute_workingDirectory (fs : FileSystem) : Path.isAbsolute fs.workingDirectory = true := by
  rw [workingDirectory, placeText, Path.isAbsolute_iff, String.toList_append]
  exact ⟨_, rfl⟩

end PackageGraph
