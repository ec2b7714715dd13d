import PackageGraph.Error
/-!
# Exit codes

The code that tells how a run ended. Errors that the program reports have a code; a few faults are left to whoever
runs it.
-/
namespace PackageGraph

/-- The exit codes. -/
inductive ExitCode where
  | success
  /-- A file could not be read or written. -/
  | fileError
  /-- The request cannot be carried out as it stands. -/
  | usageError
  /-- The build tool failed. -/
  | toolError
  /-- The build tool did not end in time. -/
  | toolTimeout
  deriving DecidableEq, Repr

namespace ExitCode

/-- The number of the code. -/
def number : ExitCode → Nat
  | .success => 0
  | .fileError => 1
  | .usageError => 2
  | .toolError => 3
  | .toolTimeout => 4

/-- The code for a fault, if it has one. -/
def ofFault? : Fault → Option ExitCode
  | .missing | .isDirectory | .notDirectory | .denied | .exists | .nameTooLong => some .fileError
  | .json | .encoding | .unreadable => some .usageError
  | .markup | .yaml | .unknownEncoding | .overflow | .notText | .wrongKind | .unknownName | .unknownWord | .endsEarly
  | .endless => none

/-- The code for an error, if it has one. -/
def ofError? : Error → Option ExitCode
  | .malformed _ _ => some .fileError
  | .version _ | .usage _ => some .usageError
  | .tool (.timeout _ _) => some .toolTimeout
  | .tool _ | .noResult _ => some .toolError
  | .notProvided => none
  | .fault f => ofFault? f

end ExitCode
end PackageGraph
