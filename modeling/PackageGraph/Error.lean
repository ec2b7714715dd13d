import PackageGraph.Fault
import PackageGraph.Number.Format
/-!
# Errors

Every error that an operation of this library ends with, and its wording.
-/
namespace PackageGraph

/-- What is wrong with a project description, a graph document or a configuration file. -/
inductive Defect where
  /-- The file does not follow its format. -/
  | unreadable (fault : Fault)
  /-- A project file in JSON is no object. -/
  | rootNotObject
  /-- The graph document departs from its schema at a place. -/
  | schema (place detail : String)
  /-- A framework has no name. -/
  | invalidFramework (name : String)
  /-- The version of a dependency is unreadable. -/
  | dependency (name : String) (reason : VersionError)
  /-- A configuration file is no mapping. -/
  | configRoot
  /-- The section of a configuration file is no mapping. -/
  | configSection (name : String)
  /-- A setting has a value that its kind does not allow. -/
  | settingValue (key value : String)
  /-- A defect that is described in words. -/
  | described (text : String)
  deriving DecidableEq

namespace Defect

/-- The wording of the defect. -/
def message : Defect → Message
  | .unreadable fault => [.fault fault]
  | .rootNotObject => "root element must be a JSON object"
  | .schema place detail => "invalid dependency graph at '" ++ place ++ "': " ++ detail
  | .invalidFramework name => "invalid framework '" ++ name ++ "'"
  | .dependency name reason => Fragment.text ("dependency '" ++ name ++ "': ") :: reason.inMessage
  | .configRoot => "config root must be a mapping"
  | .configSection name => "'" ++ name ++ "' must be a mapping"
  | .settingValue key value => "invalid value for " ++ key ++ ": " ++ value
  | .described text => text

end Defect

/-- A request that cannot be carried out as it stands. -/
inductive UsageError where
  | emptyPath
  | unsupportedFile (path : String)
  | noActions
  | unknownProject (name : String)
  | emptyExtension
  | unknownSettings (names : List String)
  deriving DecidableEq

namespace UsageError

/-- The wording of the error. -/
def message : UsageError → String
  | .emptyPath => "path must not be empty"
  | .unsupportedFile path => "Unsupported file: " ++ path
  | .noActions => "at least one action is required"
  | .unknownProject name => "project " ++ name ++ " is not part of the dependency graph"
  | .emptyExtension => "extension must not be empty"
  | .unknownSettings names => "unknown setting(s): " ++ Text.join ", " names

end UsageError

/-- A failure of the external build tool. -/
inductive ToolError where
  /-- The tool did not end within so many seconds. -/
  | timeout (command : String) (seconds : Binary64)
  /-- The tool ended with a failure. -/
  | failure (command : String) (exitCode : Option Int) (stderr : String)
  /-- There is no such tool. -/
  | notFound (command : String)
  deriving DecidableEq

namespace ToolError

/-- What is reported when the tool is not found. -/
def notFoundText (command : String) : String := "executable not found: " ++ command

/-- The exit code, for failures that have one. -/
def exitCode? : ToolError → Option Int
  | .failure _ code _ => code
  | _ => none

/-- The text that the tool wrote about its failure. -/
def stderr? : ToolError → Option String
  | .timeout _ _ => none
  | .failure _ _ stderr => some stderr
  | .notFound command => some (notFoundText command)

/-- The wording of a failure: what the tool wrote, or else its exit code. -/
def failureText (command : String) (exitCode : Option Int) (stderr : String) : String :=
  let written := Text.trim stderr
  let detail := if written.isEmpty then
      "exit code " ++ match exitCode with
        | some code => intText code
        | none => "None"
    else written
  command ++ " failed: " ++ detail

/-- The wording of the error. -/
def message : ToolError → String
  | .timeout command seconds =>
    command ++ " timed out after " ++ seconds.briefText ++ " seconds and was terminated"
  | .failure command exitCode stderr => failureText command exitCode stderr
  | .notFound command => failureText command none (notFoundText command)

end ToolError

/-- An error that ends an operation. -/
inductive Error where
  | malformed (path : String) (defect : Defect)
  | version (e : VersionError)
  | usage (e : UsageError)
  | tool (e : ToolError)
  /-- The resolution engine gave no result for a project. -/
  | noResult (project : String)
  /-- The operation is left to implementations, which say nothing about it. -/
  | notProvided
  | fault (f : Fault)
  deriving DecidableEq

namespace Error

/-- The wording of the error; a fault is worded elsewhere. -/
def message? : Error → Option Message
  | .malformed path defect => some (Fragment.text ("Malformed descriptor " ++ path ++ ": ") :: defect.message)
  | .version e => e.message?.map Message.ofText
  | .usage e => some (Message.ofText e.message)
  | .tool e => some (Message.ofText e.message)
  | .noResult project => some (Message.ofText ("Resolution engine returned no result for " ++ project))
  | .notProvided => some (Message.ofText "")
  | .fault _ => none

/-- The fault that stands for an error without a wording of its own. -/
def underlyingFault : Error → Fault
  | .fault f => f
  | _ => .unreadable

/-- The error inside another message. -/
def inMessage (e : Error) : Message := e.message?.getD [.fault e.underlyingFault]

end Error
end PackageGraph
