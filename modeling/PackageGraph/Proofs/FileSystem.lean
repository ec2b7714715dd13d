import PackageGraph.FileSystem
import PackageGraph.Proofs.Escapes
/-!
# Faults of file operations

Whatever a path leads to, a file operation that fails ends with a fault that has an exit code.
-/
namespace PackageGraph.FileSystem

open Except

variable {fs : FileSystem} {path : String}

/-- Following a path ends in a place, or with a fault that has an exit code. -/
theorem follow_failsOnlyWith (place : Place) (names : List String) :
    FailsOnlyWith Fault.IsReported (fs.follow place names) := by
  induction names generalizing place with
  | nil => exact .ok place
  | cons name names ih =>
    rw [follow]
    split
    · exact .error rfl
    · exact .error rfl
    · split
      · exact .error rfl
      · split
        · exact ih place
        · split
          · exact ih _
          · exact ih _

theorem locate_failsOnlyWith (path : String) : FailsOnlyWith Fault.IsReported (fs.locate path) := by
  unfold locate
  split
  · exact .error rfl
  · split
    · exact .error rfl
    · split
      · exact .error rfl
      · exact follow_failsOnlyWith _ _

theorem lookUp_failsOnlyWith (path : String) : FailsOnlyWith Fault.IsReported (fs.lookUp path) := by
  refine (locate_failsOnlyWith path).bind fun place => ?_
  split
  · exact .ok _
  · exact .error rfl

/-- A file is read, or the fault has an exit code. -/
theorem read_failsOnlyWith (path : String) : FailsOnlyWith Fault.IsReported (fs.read path) := by
  refine (lookUp_failsOnlyWith path).bind fun node => ?_
  cases node with
  | file content => exact .ok content
  | directory => exact .error rfl

/-- So is its text, also where the octets are none. -/
theorem readText_failsOnlyWith (path : String) : FailsOnlyWith Fault.IsReported (fs.readText path) := by
  refine (read_failsOnlyWith path).bind fun bytes => ?_
  split
  · exact .ok _
  · exact .error rfl

/-- What can be read is a file. -/
theorem isFile_of_read {bytes : List UInt8} (h : fs.read path = .ok bytes) : fs.isFile path = true := by
  obtain ⟨node, hnode, hbytes⟩ := bind_eq_ok_iff.1 h
  unfold isFile
  cases node with
  | file content => rw [hnode]
  | directory => cases hbytes

end PackageGraph.FileSystem
