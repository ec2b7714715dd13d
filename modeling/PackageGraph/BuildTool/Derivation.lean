import PackageGraph.BuildTool.Basic
import PackageGraph.DependencyGraph.Reader
import PackageGraph.DependencyGraph.Writer
import PackageGraph.Execution
import PackageGraph.Path
/-!
# Deriving a graph

The build tool writes the graph of a project to a scratch file, which is read back and removed whatever happens.
A tool that ends well without writing anything leaves the empty graph.
-/
namespace PackageGraph

namespace ScratchFile

/-- Makes an empty scratch file, and the directories above it that are missing. The stem is one that no other file
in the directory has. Returns the path of the file. -/
def create (fs : FileSystem) (directory stem extension : String) : Except Error (String × FileSystem) :=
  if extension.isEmpty then .error (.usage .emptyExtension)
  else
    let path := Path.absolute fs.workingDirectory (Path.append directory (stem ++ extension))
    ((fs.makeDirectories directory).bind fun made => (made.write path []).map (path, ·)).mapError .fault

/-- Removes a scratch file. A directory in its place stays, and this is logged. -/
def discard (fs : FileSystem) (path : String) : FileSystem × List LogRecord :=
  if fs.isDirectory path then (fs, [.warning "restore.msbuild" ("Failed to remove temp file: " ++ path)])
  else (fs.remove path, [])

end ScratchFile

namespace Derivation

/-- The part of the program that logs. -/
def logSource : String := "restore.msbuild"

/-- The extension of graph files. -/
def graphExtension : String := ".dg"

/-- The graph in a file; the empty graph when there is no file or nothing in it. -/
def readGraph (fs : FileSystem) (path : String) : Logged DependencyGraph :=
  match fs.lookUp path with
  | .ok (.file (_ :: _)) => DependencyGraph.load fs path
  | _ => return Graph.empty

/-- What is logged when a graph has been derived. -/
def derivedLog (project : String) (g : DependencyGraph) : LogRecord :=
  .debug logSource "Derived dependency graph"
    [("event", .text "dg_generated"), ("component", .text "msbuild"), ("target", .text project),
      ("count", .count g.projects.length)]

/-- What is logged for a result. -/
def resultLog (project : String) : Except Error DependencyGraph → List LogRecord
  | .ok g => [derivedLog project g]
  | .error _ => []

/-- Has the tool write the graph of a project to a file and reads it. -/
def runTool (tool : BuildTool) (s : Settings) (fs : FileSystem) (project output : String)
    (limit : Except Error (Option Binary64)) (recursive : Bool) : Execution DependencyGraph :=
  match BuildTool.commandLine s project output recursive with
  | .error e => .fail fs e
  | .ok arguments =>
    let run := tool arguments fs
    let files := run.filesAfter fs
    let started := [.debug logSource ("Running: " ++ Text.join " " arguments) []]
    let ended : Execution Unit := ⟨limit.bind fun seconds => run.outcome arguments seconds, files, started⟩
    ended.andThen fun files _ => .ofLogged files (readGraph files output)

/-- The files when the scratch file cannot be made: its directory has been tried. -/
def prepared (s : Settings) (fs : FileSystem) : FileSystem :=
  match s.text .scratchDirectory with
  | .ok directory => fs.directoriesMade directory
  | .error _ => fs

/-- Derives the graph of a project. The scratch file gets a stem that is not taken; time limit and recursion are
those of the settings unless others are given. -/
def derive (tool : BuildTool) (s : Settings) (fs : FileSystem) (stem project : String) (limit? : Option Value)
    (recursive? : Option Bool) : Execution DependencyGraph :=
  match (s.text .scratchDirectory).bind fun directory => ScratchFile.create fs directory stem graphExtension with
  | .error e => .fail (prepared s fs) e
  | .ok (output, made) =>
    let run := runTool tool s made project output (limit?.getD (s .timeout)).seconds
      (recursive?.getD (s.isOn .recursive))
    let (files, warnings) := ScratchFile.discard run.files output
    ⟨run.result, files, run.records ++ warnings ++ resultLog project run.result⟩

end Derivation
end PackageGraph
