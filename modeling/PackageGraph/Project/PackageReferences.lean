import PackageGraph.Project.PackagesConfig
import PackageGraph.VersionRange.Parser
/-!
# Package references in project files

The package references of a project file, wherever they stand in it. The version is the text of the first child
of a reference, or its attribute when it has no children.
-/
namespace PackageGraph

/-- A package reference as it is written. -/
structure PackageReferenceRecord where
  name : String
  version : String
  deriving DecidableEq

namespace PackageReferenceRecord

/-- The range that the version stands for; what is unreadable admits every version. -/
def range (r : PackageReferenceRecord) : VersionRange := .parseOrAll r.version

/-- The version of a reference. -/
def versionOf (e : Element) : String :=
  match e.children with
  | child :: _ => child.trimmedText
  | [] => Text.trim (e.attributeText "Version")

/-- The record of an element; nothing when it includes no package. -/
def ofElement? (e : Element) : Option PackageReferenceRecord :=
  let name := e.attributeText "Include"
  if name.isEmpty then none else some ⟨Text.trim name, versionOf e⟩

/-- The references of a document. -/
def ofDocument (root : Element) : List PackageReferenceRecord :=
  (root.descendants.filter fun e => e.name == "PackageReference").filterMap ofElement?

/-- What is logged when a project file is no document. -/
def unreadableLog (source path : String) : LogRecord :=
  .warning source [.text ("Couldn't parse project file " ++ path ++ ": "), .fault .markup]

/-- Reads the references of a project file; nothing when there is no file. A file that is no document has no
references unless reading is strict. -/
def read (fs : FileSystem) (path : String) (strict : Bool) : Logged (Option (List PackageReferenceRecord)) := do
  Logged.ofExcept (requirePath path)
  if fs.isFile path then
    match fs.readDocument path with
    | .ok root => return some (ofDocument root)
    | .error (.malformed p d) =>
      if strict then throw (.malformed p d)
      else
        Logged.log (unreadableLog "normalizers.package_reference" path)
        return some []
    | .error e => throw e
  else return none

end PackageReferenceRecord
end PackageGraph
