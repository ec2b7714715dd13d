import PackageGraph.Text.Split
import PackageGraph.Text.Blank
/-!
# Paths

Paths are texts with `/` between components. Normalizing is lexical: it drops empty and `.` components and lets
`..` take back the component before it. Exactly two slashes at the start are kept, more count as one.
-/
namespace PackageGraph.Path

open Text

/-- The text up to the last slash with it, and the text after. -/
def splitLast (cs : List Char) : List Char × List Char :=
  let base := (cs.reverse.takeWhile (· != '/')).reverse
  (cs.take (cs.length - base.length), base)

/-- The last component. -/
def baseName (path : String) : String := .ofList (splitLast path.toList).2

/-- The path without its last component and the slashes before that; a path of slashes alone is kept. -/
def directory (path : String) : String :=
  let head := (splitLast path.toList).1
  if head.all (· == '/') then .ofList head else .ofList (dropEndWhile (· == '/') head)

/-- The last component divided before its last point. Points that begin the component do not divide it. -/
def splitExtension (name : List Char) : List Char × List Char :=
  let suffix := (name.reverse.takeWhile (· != '.')).reverse
  let stem := name.take (name.length - suffix.length - 1)
  if suffix.length = name.length ∨ stem.all (· == '.') then (name, []) else (stem, '.' :: suffix)

/-- The extension of the last component, with its point. -/
def extension (path : String) : String := .ofList (splitExtension (splitLast path.toList).2).2

/-- The last component without its extension. -/
def stem (path : String) : String := .ofList (splitExtension (splitLast path.toList).2).1

/-- Whether the path begins at the root. -/
def isAbsolute (path : String) : Bool := path.toList.head? == some '/'

/-- The second path as seen from the first. -/
def append (base path : String) : String :=
  if isAbsolute path then path
  else if base.isEmpty || base.toList.getLast? == some '/' then base ++ path
  else base ++ "/" ++ path

/-- The slashes that a normalized path keeps at its start. -/
def rootMark : List Char → List Char
  | '/' :: '/' :: '/' :: _ => ['/']
  | '/' :: '/' :: _ => ['/', '/']
  | '/' :: _ => ['/']
  | _ => []

/-- Adds a component to the components so far, in reverse; nothing lies above the root. -/
def step (rooted : Bool) (before : List (List Char)) (component : List Char) : List (List Char) :=
  if component = [] ∨ component = ['.'] then before
  else if component = ['.', '.'] then
    match before with
    | [] => if rooted then [] else [component]
    | last :: rest => if last = ['.', '.'] then component :: before else rest
  else component :: before

/-- The components of a path after `.` and `..` have been worked off. -/
def components (cs : List Char) : List (List Char) :=
  ((splitOn '/' cs).foldl (step !(rootMark cs).isEmpty) []).reverse

/-- The components with slashes between them. -/
def joinComponents : List (List Char) → List Char
  | [] => []
  | [c] => c
  | c :: rest => c ++ '/' :: joinComponents rest

/-- The normalized path. -/
def normalizeChars (cs : List Char) : List Char :=
  match rootMark cs ++ joinComponents (components cs) with
  | [] => ['.']
  | path => path

/-- The normalized path. -/
def normalize (path : String) : String := .ofList (normalizeChars path.toList)

/-- The normalized path as seen from a working directory. -/
def absolute (cwd path : String) : String := normalize (append cwd path)

/-- The path that a reference in a project file denotes: backslashes separate components too, and the path is
seen from the directory of the project. -/
def resolveReference (cwd project reference : String) : String :=
  let relative := String.ofList (reference.toList.map fun c => if c = '\\' then '/' else c)
  normalize (append (directory (absolute cwd project)) relative)

end PackageGraph.Path
