import PackageGraph.CommandLine.Run
/-!
# The program

Takes a picture of the files below the working directory and beside the paths on the command line, runs on it, and
carries out what the run leaves: files, standard output and log records. No process is started here, so the build
tool is never found.
-/
namespace PackageGraph.Program

/-- The components of an absolute path. -/
def placeOf (path : String) : Place := (Text.fields '/' path).filter (· ≠ "")

/-- The directories that lead to a place, and the place itself. -/
def directoriesTo (place : Place) : List (Place × FileNode) :=
  (List.range place.length).map fun n => (place.take (n + 1), .directory)

/-- What stands in a directory, down to some depth of nesting. Files that cannot be read are left out. -/
def contents (depth : Nat) (path : String) : IO (List (Place × FileNode)) := do
  match depth with
  | 0 => return []
  | depth + 1 =>
    let directory ← IO.FS.realPath path
    let mut found := []
    for entry in ← directory.readDir do
      let place := placeOf path ++ [entry.fileName]
      if ← entry.path.isDir then
        found := found ++ (place, .directory) :: (← contents depth entry.path.toString)
      else
        try
          let bytes ← IO.FS.readBinFile entry.path
          found := found ++ [(place, .file bytes.toList)]
        catch _ => pure ()
    return found

/-- What stands in the directory of a file. -/
def beside (path : String) : IO (List (Place × FileNode)) := do
  try contents 1 (Path.directory path) catch _ => return []

/-- The files that a run on these words may look at. -/
def picture (working : String) (words : List String) : IO FileSystem := do
  let absolute := words.filter fun w => w.toList.head? == some '/'
  let mut nodes := directoriesTo (placeOf working) ++ (← contents 64 working)
  for path in absolute do
    nodes := nodes ++ directoriesTo (placeOf (Path.directory path)) ++ (← beside path)
  return ⟨nodes.foldl (fun m (place, node) => OrderedMap.put m place node) [], placeOf working⟩

/-- The environment of the process, as far as it matters to a run. -/
def environment : IO Environment := do
  let mut bindings : OrderedMap String String := []
  for name in [LogThreshold.levelVariable, Settings.verbosityVariable] do
    if let some value ← IO.getEnv name then
      bindings := OrderedMap.put bindings name value
  return ⟨bindings, (← IO.getEnv "TMPDIR").getD "/tmp", (← IO.getEnv "HOME").getD "/"⟩

/-- Writes what is new or has changed. -/
def store (before after : FileSystem) : IO Unit := do
  for (place, node) in after.nodes do
    if before.node? place != some node then
      match node with
      | .directory => IO.FS.createDirAll (FileSystem.placeText place)
      | .file content => IO.FS.writeBinFile (FileSystem.placeText place) (ByteArray.mk content.toArray)

/-- Runs on the words of a command line. -/
def run (words : List String) : IO UInt32 := do
  let working := (← IO.currentDir).toString
  let files ← picture working words
  let result := CommandLine.run ⟨← environment, files, fun _ _ => .missing, "graph", Fault.describe⟩ words
  store files result.files
  let errors ← IO.getStderr
  for r in result.records do
    errors.putStrLn ("[" ++ r.severity.name ++ "] " ++ r.message.render Fault.describe)
  (← IO.getStdout).putStr result.standardOutput
  match result.exit with
  | .ok code => return code.toUInt32
  | .error e =>
    errors.putStrLn (e.inMessage.render Fault.describe)
    return 1

end PackageGraph.Program

/-- The command line. -/
def main (words : List String) : IO UInt32 := PackageGraph.Program.run words
