import PackageGraph.FileSystem
import PackageGraph.Log
import PackageGraph.Xml.Reader
/-!
# Packages listed in a file

A `packages.config` file lists packages as elements anywhere in the document; what is missing from one counts as
empty.
-/
namespace PackageGraph

/-- A package as it is listed. -/
structure PackageRecord where
  packageId : String
  version : String
  targetFramework : String
  developmentDependency : String
  deriving DecidableEq

namespace PackageRecord

/-- Whether the package is used in development only. -/
def isDevelopmentDependency (r : PackageRecord) : Bool := Text.lower (Text.trim r.developmentDependency) == "true"

/-- The record of an element. -/
def ofElement (e : Element) : PackageRecord :=
  ⟨e.attributeText "id", e.attributeText "version", e.attributeText "targetFramework",
    e.attributeText "developmentDependency"⟩

/-- The packages that a document lists. -/
def ofDocument (root : Element) : List PackageRecord :=
  (root.descendants.filter fun e => e.name == "package").map ofElement

end PackageRecord

/-- Refuses a path of white space alone. -/
def requirePath (path : String) : Except Error Unit :=
  if Text.isBlankText path then .error (.usage .emptyPath) else .ok ()

/-- The document in a file; what is no document refuses the file. -/
def FileSystem.readDocument (fs : FileSystem) (path : String) : Except Error Element :=
  match fs.read path with
  | .error f => .error (.fault f)
  | .ok bytes =>
    match Xml.parse bytes with
    | .ok root => .ok root
    | .error .markup => .error (.malformed path (.unreadable .markup))
    | .error f => .error (.fault f)

namespace PackageRecord

/-- The part of the program that logs. -/
def logSource : String := "normalizers.packages_config"

/-- Reads the packages that a file lists; nothing when there is no file. -/
def read (fs : FileSystem) (path : String) : Logged (Option (List PackageRecord)) := do
  Logged.ofExcept (requirePath path)
  if fs.isFile path then
    let records := ofDocument (← Logged.ofExcept (fs.readDocument path))
    Logged.log (.debug logSource ("Read " ++ natText records.length ++ " package(s) from " ++ path) [])
    return some records
  else
    Logged.log (.debug logSource ("No packages.config at " ++ path) [])
    return none

end PackageRecord
end PackageGraph
