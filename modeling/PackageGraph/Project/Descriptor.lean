import PackageGraph.PackageSpec.Basic
/-!
# Project descriptors

What a project is called and which format its description is in. The name of a file tells the format.
-/
namespace PackageGraph

/-- A project and the format of its description. -/
structure ProjectDescriptor where
  path : String
  name : String
  format : ProjectFormat
  deriving DecidableEq

namespace ProjectDescriptor

/-- The file that lists the packages of a project. -/
def packagesConfigName : String := "packages.config"

/-- The file that describes a project in JSON. -/
def projectJsonName : String := "project.json"

/-- What the extension of a project file ends in. -/
def projectExtensionEnd : String := "proj"

/-- The name that a project is shown under. -/
def displayName (path : String) : String := Path.stem path

/-- The descriptor of the project at an absolute path. -/
def ofPath (path : String) (format : ProjectFormat) : ProjectDescriptor := ⟨path, displayName path, format⟩

end ProjectDescriptor

/-- The format of the description at a path, by its file name. -/
def ProjectFormat.detect? (path : String) : Option ProjectFormat :=
  let name := Text.lower (Path.baseName path)
  if name = ProjectDescriptor.packagesConfigName then some .packagesConfig
  else if name = ProjectDescriptor.projectJsonName then some .projectJson
  else if ProjectDescriptor.projectExtensionEnd.toList.isSuffixOf (Path.extension name).toList then
    some .packageReference
  else none

end PackageGraph
