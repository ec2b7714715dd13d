import PackageGraph.FileSystem
import PackageGraph.Log
/-!
# Executions

What an operation that changes files amounts to: its result, the files that it leaves, and what it logged. An
operation that ends with an error leaves files and records too.
-/
namespace PackageGraph

/-- The result of an operation, and what it leaves behind. -/
structure Execution (α : Type) where
  result : Except Error α
  files : FileSystem
  records : List LogRecord

namespace Execution

variable {α β : Type}

/-- An operation that ends with an error at once. -/
def fail (fs : FileSystem) (e : Error) : Execution α := ⟨.error e, fs, []⟩

/-- An operation that only looks at files. -/
def ofLogged (fs : FileSystem) (x : Logged α) : Execution α := ⟨x.outcome.1, fs, x.outcome.2⟩

/-- An operation that goes on with the result of another. -/
def andThen (x : Execution α) (f : FileSystem → α → Execution β) : Execution β :=
  match x.result with
  | .error e => ⟨.error e, x.files, x.records⟩
  | .ok a => ⟨(f x.files a).result, (f x.files a).files, x.records ++ (f x.files a).records⟩

end Execution
end PackageGraph
