import PackageGraph.FileSystem
import PackageGraph.Settings.Basic
/-!
# The build tool

The external tool that writes the dependency graph of a project to a file. Whatever a tool does is a function of
its arguments and the files that it finds.
-/
namespace PackageGraph

/-- What becomes of a run of the tool. -/
inductive ToolRun where
  /-- There is no such tool. -/
  | missing
  /-- The tool cannot be started. -/
  | refused (fault : Fault)
  /-- The tool does not end by itself. -/
  | endless (files : FileSystem)
  /-- The tool ends by itself. -/
  | ended (exitCode : Int) (stderr : List UInt8) (files : FileSystem)

/-- A tool, given the command line that starts it and the files that it finds. -/
abbrev BuildTool := List String → FileSystem → ToolRun

namespace ToolRun

/-- The files that the run leaves. -/
def filesAfter (before : FileSystem) : ToolRun → FileSystem
  | .missing | .refused _ => before
  | .endless files => files
  | .ended _ _ files => files

/-- Whether a limit leaves no time at all; a limit that is no number leaves none either. -/
def isSpent : Option Binary64 → Bool
  | none => false
  | some seconds => seconds.isNonPositive || seconds == .nan

/-- What the run amounts to when the tool is given so many seconds. A tool that does not end by itself ends with
its time. -/
def outcome (arguments : List String) (limit : Option Binary64) : ToolRun → Except Error Unit
  | .missing => .error (.tool (.notFound (arguments.headD "")))
  | .refused fault => .error (.fault fault)
  | .endless _ => .error (.tool (.timeout (Text.join " " (arguments.take 2)) (limit.getD .nan)))
  | .ended exitCode stderr _ =>
    if isSpent limit then .error (.tool (.timeout (Text.join " " (arguments.take 2)) (limit.getD .nan)))
    else if exitCode = 0 then .ok ()
    else .error (.tool (.failure (Text.join " " (arguments.take 2)) (some exitCode) (Utf8.decodeLenient stderr)))

end ToolRun

namespace BuildTool

/-- How much the tool is told to say; an empty setting means the default. -/
def verbosity (s : Settings) : String :=
  if s.isOn .verbosity then (s .verbosity).plain else Settings.defaultVerbosity

/-- The argument that names the package sources. Semicolons would divide it, so they are written as escapes. -/
def sourcesArgument (sources : List String) : List String :=
  if sources.isEmpty then [] else ["/p:RestoreSources=" ++ Text.join "%3B" sources]

/-- The command line that has the graph of a project written to a file. -/
def commandLine (s : Settings) (project output : String) (recursive : Bool) : Except Error (List String) := do
  let executable ← s.text .toolPath
  let sources ← if s.isOn .packageSources then s.sources else .ok []
  return [executable, "msbuild", project, "/t:GenerateRestoreGraphFile", "/v:" ++ verbosity s,
      "/p:RestoreGraphOutputPath=" ++ output] ++
    (if recursive then ["/p:RestoreRecursive=true"] else []) ++ sourcesArgument sources

end BuildTool
end PackageGraph
