import PackageGraph.Project.Descriptor
import PackageGraph.Project.JsonFile
import PackageGraph.Project.PackageReferences
/-!
# Reading a description by its name

A description is read by the reader for its format, which its file name tells.
-/
namespace PackageGraph

/-- The content of a project description. -/
inductive Description where
  | packages (records : Option (List PackageRecord))
  | json (data : Option Value)
  | references (records : Option (List PackageReferenceRecord))

namespace Description

/-- The format of the description. -/
def format : Description → ProjectFormat
  | .packages _ => .packagesConfig
  | .json _ => .projectJson
  | .references _ => .packageReference

/-- Reads the description at a path; nothing when its name tells no format. -/
def scan (fs : FileSystem) (path : String) : Logged (Option Description) := do
  Logged.ofExcept (requirePath path)
  match ProjectFormat.detect? path with
  | none =>
    Logged.log (.debug "normalizers.scanner" ("No reader for " ++ path) [])
    return none
  | some .packagesConfig => return some (.packages (← PackageRecord.read fs path))
  | some .projectJson => return some (.json (← ProjectJsonFile.read fs path))
  | some .packageReference => return some (.references (← PackageReferenceRecord.read fs path false))

end Description
end PackageGraph
