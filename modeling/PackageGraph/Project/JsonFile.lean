import PackageGraph.Json.Reader
import PackageGraph.Json.Typed
import PackageGraph.Project.PackagesConfig
/-!
# Files in JSON

Reading JSON documents from files, and project descriptions in JSON with every text in its narrowest type.
-/
namespace PackageGraph

/-- The JSON document in a file; a byte order mark is passed over. -/
def FileSystem.readJson (fs : FileSystem) (path : String) : Except Error Json :=
  match fs.read path with
  | .error f => .error (.fault f)
  | .ok bytes =>
    match Utf8.decode? (Utf8.withoutMark bytes) with
    | none => .error (.fault .encoding)
    | some text =>
      match Json.parse text with
      | .ok j => .ok j
      | .error .tooLong => .error (.fault .unreadable)
      | .error .syntaxError => .error (.malformed path (.unreadable .json))

namespace ProjectJsonFile

/-- The part of the program that logs. -/
def logSource : String := "normalizers.project_json"

/-- The typed content of a document, which has to be an object. -/
def ofJson (path : String) (j : Json) : Except Error Value :=
  match j with
  | .object members => Json.typed (.object members)
  | _ => .error (.malformed path .rootNotObject)

/-- Reads a project description; nothing when there is no file. -/
def read (fs : FileSystem) (path : String) : Logged (Option Value) := do
  Logged.ofExcept (requirePath path)
  if fs.isFile path then
    return some (← Logged.ofExcept ((fs.readJson path).bind (ofJson path)))
  else
    Logged.log (.debug logSource ("No project.json at " ++ path) [])
    return none

end ProjectJsonFile
end PackageGraph
