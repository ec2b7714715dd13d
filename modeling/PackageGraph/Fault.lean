import PackageGraph.Version.Parser
/-!
# Faults and messages

A fault is a failure that the reader of an outside format or the file system reports; its wording is not this
library's, so a message keeps the fault itself and is worded when it is shown.
-/
namespace PackageGraph

/-- A failure whose wording comes from outside. -/
inductive Fault where
  /-- A file is no well-formed XML document. -/
  | markup
  /-- A file is no JSON document. -/
  | json
  /-- A file is no YAML document. -/
  | yaml
  /-- A file is not UTF-8 text. -/
  | encoding
  /-- A document names an encoding that does not exist. -/
  | unknownEncoding
  /-- A text has the form of a number, date or identifier but denotes none. -/
  | unreadable
  /-- A number is too large for its place. -/
  | overflow
  /-- A text is required and another value found. -/
  | notText
  /-- A value of another kind is required. -/
  | wrongKind
  /-- A setting is named that does not exist. -/
  | unknownName
  /-- A word is none of those that stand for a value. -/
  | unknownWord
  /-- A text ends before what it has to hold. -/
  | endsEarly
  /-- There is no such file or directory. -/
  | missing
  /-- A directory stands where a file is required. -/
  | isDirectory
  /-- A file stands where a directory is required. -/
  | notDirectory
  /-- The file may not be used in this way. -/
  | denied
  /-- A file stands where a directory is to be made. -/
  | exists
  /-- A value is given by itself. -/
  | endless
  /-- A name of a file is longer than file systems allow. -/
  | nameTooLong
  deriving DecidableEq, Repr

namespace Fault

/-- A short description of the fault. -/
def describe : Fault → String
  | .markup => "not well-formed XML"
  | .json => "not valid JSON"
  | .yaml => "not valid YAML"
  | .encoding => "not UTF-8 text"
  | .unknownEncoding => "unknown encoding"
  | .unreadable => "unreadable value"
  | .overflow => "number out of range"
  | .notText => "not a text"
  | .wrongKind => "value of the wrong kind"
  | .unknownName => "unknown name"
  | .unknownWord => "unknown word"
  | .endsEarly => "text ends early"
  | .missing => "no such file or directory"
  | .isDirectory => "is a directory"
  | .notDirectory => "not a directory"
  | .denied => "permission denied"
  | .exists => "file exists"
  | .endless => "value given by itself"
  | .nameTooLong => "file name too long"

end Fault

/-- A piece of a message. -/
inductive Fragment where
  | text (s : String)
  | fault (f : Fault)
  deriving DecidableEq

/-- A message, worded except for the faults in it. -/
abbrev Message := List Fragment

namespace Message

/-- A message that is worded altogether. -/
def ofText (s : String) : Message := [.text s]

instance : Coe String Message := ⟨ofText⟩

/-- The text of a message, its faults worded by `wording`. -/
def render (wording : Fault → String) (m : Message) : String :=
  Text.join "" (m.map fun
    | .text s => s
    | .fault f => wording f)

end Message

/-- The wording of a version error inside a message. -/
def VersionError.inMessage (e : VersionError) : Message :=
  match e.message? with
  | some s => [.text s]
  | none => [.fault .unreadable]

end PackageGraph
