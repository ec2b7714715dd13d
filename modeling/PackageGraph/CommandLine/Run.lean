import PackageGraph.CommandLine.Document
import PackageGraph.CommandLine.ExitCode
/-!
# Runs

A run of the program: it reads its command line, makes the document that is asked for, and writes it to a file or
to standard output. What is logged goes to a log file too, line by line, if one is given.
-/
namespace PackageGraph.CommandLine

/-- What a run finds. -/
structure Surroundings where
  environment : Environment
  files : FileSystem
  tool : BuildTool
  /-- The stem of the scratch file, which no other file has. -/
  stem : String
  /-- How faults are worded in the log file. -/
  wording : Fault → String

/-- What a run leaves. -/
structure Conclusion where
  /-- The number that the run exits with, or the error that ended it. -/
  exit : Except Error Nat
  standardOutput : String
  files : FileSystem
  /-- What was logged, down to the threshold. -/
  records : List LogRecord

/-- Where and down to which severity a run logs. -/
structure LogTarget where
  threshold : Severity
  file : Option String
  wording : Fault → String

namespace LogTarget

/-- The records that are logged. -/
def kept (t : LogTarget) (records : List LogRecord) : List LogRecord :=
  records.filter fun r => t.threshold.passes r.severity

/-- The line of a record in a log file. -/
def line (t : LogTarget) (r : LogRecord) : String :=
  r.severity.name ++ " " ++ r.source ++ " " ++ r.message.render t.wording ++ "\n"

/-- Adds lines to the log file, if there is one. -/
def addLines (t : LogTarget) (fs : FileSystem) (lines : List String) : Except Fault FileSystem :=
  match t.file.filter (!·.isEmpty) with
  | none => .ok fs
  | some path => fs.append path (Utf8.encode (Text.join "" lines))

/-- The files once records have been logged. A log file that has gone is no error. -/
def filesWith (t : LogTarget) (fs : FileSystem) (records : List LogRecord) : FileSystem :=
  ((t.addLines fs ((t.kept records).map t.line)).toOption).getD fs

end LogTarget

/-- The part of the program that logs. -/
def logSource : String := "dgpreview"

/-- What is logged at the start. -/
def startLog (kind : CommandKind) : LogRecord :=
  .debug logSource "CLI start"
    [("event", .text "function_entry"), ("component", .text "cli"), ("action", .text kind.name)]

/-- The text of a document as it is written. -/
def documentText (document : Json) : String := document.render ++ "\n"

/-- Writes a document to the file that is given, and logs this. Without a file the document is left for standard
output. -/
def writeDocument (fs : FileSystem) (path : Option String) (document : Json) : Execution String :=
  match path.filter (!·.isEmpty) with
  | none => ⟨.ok (documentText document), fs, []⟩
  | some path =>
    match fs.write path (Utf8.encode (documentText document)) with
    | .error f => .fail fs (.fault f)
    | .ok fs => ⟨.ok "", fs, [.info logSource ("Wrote " ++ path)]⟩

/-- What is logged about an error that the run exits with. -/
def errorLog (e : Error) : List LogRecord :=
  if (ExitCode.ofError? e).isSome then [.error logSource e.inMessage] else []

/-- How a run exits whose command had this result. -/
def exitOf : Except Error String → Except Error Nat
  | .ok _ => .ok ExitCode.success.number
  | .error e =>
    match ExitCode.ofError? e with
    | some code => .ok code.number
    | none => .error e

/-- Goes on with an operation, logging to the file what it logs. -/
def logged {α : Type} (t : LogTarget) (x : Execution α) : Execution α :=
  { x with files := t.filesWith x.files x.records }

/-- Carries out an invocation once its log file has been opened. -/
def carryOut (schedule : Schedule) (s : Surroundings) (t : LogTarget) (opened : FileSystem) (i : Invocation) :
    Conclusion :=
  let begun : Execution Unit := logged t ⟨.ok (), opened, [startLog i.command.kind]⟩
  let written := begun.andThen fun fs _ =>
    (logged t (document schedule s.tool fs s.environment s.stem i)).andThen fun fs document =>
      logged t (writeDocument fs i.options.output document)
  let errors := match written.result with
    | .ok _ => []
    | .error e => errorLog e
  ⟨exitOf written.result, written.result.toOption.getD "", t.filesWith written.files errors,
    t.kept (written.records ++ errors)⟩

/-- Carries out an invocation. A log file that cannot be opened, or a level that cannot be understood, ends the run
before it begins. -/
def perform (schedule : Schedule) (s : Surroundings) (i : Invocation) : Conclusion :=
  match LogThreshold.resolve s.environment (i.options.logLevel.map Severity.name) with
  | .error e => ⟨.error e, "", s.files, []⟩
  | .ok threshold =>
    let target : LogTarget := ⟨threshold, i.options.logFile, s.wording⟩
    match target.addLines s.files [] with
    | .error f => ⟨.error (.fault f), "", s.files, []⟩
    | .ok opened => carryOut schedule s target opened i

/-- Runs the program with the words of a command line. The schedule says which of the projects at work is done next. -/
def runIn (schedule : Schedule) (s : Surroundings) (words : List String) : Conclusion :=
  match Invocation.parse words with
  | .error stop => ⟨.ok stop.exitCode, "", s.files, []⟩
  | .ok i => perform schedule s i

/-- Runs the program with the words of a command line, with projects done in the order of their paths. -/
def run (s : Surroundings) (words : List String) : Conclusion := runIn [] s words

end PackageGraph.CommandLine
