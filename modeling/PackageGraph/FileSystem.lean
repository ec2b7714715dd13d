import PackageGraph.Fault
import PackageGraph.OrderedMap
import PackageGraph.Text.Split
import PackageGraph.Text.Utf8
/-!
# File systems

A file system is a tree of directories and files, seen as a map from absolute places to what stands there. A
path is followed component by component, so that every directory on the way has to exist, and a path that ends
in a slash denotes a directory.
-/
namespace PackageGraph

/-- What stands at a place. -/
inductive FileNode where
  | file (content : List UInt8)
  | directory
  deriving DecidableEq

/-- The components that lead from the root to a place. -/
abbrev Place := List String

/-- Files and directories by place, and the directory that relative paths begin at. The root is always there. -/
structure FileSystem where
  nodes : OrderedMap Place FileNode
  current : Place

namespace FileSystem

/-- What stands at a place. -/
def node? (fs : FileSystem) (place : Place) : Option FileNode :=
  if place.isEmpty then some .directory else OrderedMap.get? fs.nodes place

/-- The text of a place. -/
def placeText (place : Place) : String := "/" ++ Text.join "/" place

/-- The working directory. -/
def workingDirectory (fs : FileSystem) : String := placeText fs.current

/-- The greatest number of octets of a name. -/
def nameLimit : Nat := 255

/-- The greatest number of octets of a path. -/
def pathLimit : Nat := 4095

/-- Follows the components from a directory. -/
def follow (fs : FileSystem) : Place → List String → Except Fault Place
  | place, [] => .ok place
  | place, name :: rest =>
    match fs.node? place with
    | none => .error .missing
    | some (.file _) => .error .notDirectory
    | some .directory =>
      if nameLimit < name.utf8ByteSize then .error .nameTooLong
      else if name = "" ∨ name = "." then follow fs place rest
      else if name = ".." then follow fs place.dropLast rest
      else follow fs (place ++ [name]) rest

/-- The place that a path leads to, whether or not something stands there. -/
def locate (fs : FileSystem) (path : String) : Except Fault Place :=
  if path.toList.contains '\x00' then .error .unreadable
  else if path.isEmpty then .error .missing
  else if pathLimit < path.utf8ByteSize then .error .nameTooLong
  else fs.follow (if path.toList.head? == some '/' then [] else fs.current) (Text.fields '/' path)

/-- What stands at a path. -/
def lookUp (fs : FileSystem) (path : String) : Except Fault FileNode := do
  match fs.node? (← fs.locate path) with
  | some node => .ok node
  | none => .error .missing

/-- Whether something stands at a path. -/
def exists? (fs : FileSystem) (path : String) : Bool := (fs.lookUp path).isOk

/-- Whether a file stands at a path. -/
def isFile (fs : FileSystem) (path : String) : Bool :=
  match fs.lookUp path with
  | .ok (.file _) => true
  | _ => false

/-- Whether a directory stands at a path. -/
def isDirectory (fs : FileSystem) (path : String) : Bool :=
  match fs.lookUp path with
  | .ok .directory => true
  | _ => false

/-- The content of a file. -/
def read (fs : FileSystem) (path : String) : Except Fault (List UInt8) := do
  match ← fs.lookUp path with
  | .file content => .ok content
  | .directory => .error .isDirectory

/-- The content of a file as text; a byte order mark belongs to it. -/
def readText (fs : FileSystem) (path : String) : Except Fault String := do
  match Utf8.decode? (← fs.read path) with
  | some text => .ok text
  | none => .error .encoding

/-- Puts a node at a place. -/
def putNode (fs : FileSystem) (place : Place) (node : FileNode) : FileSystem :=
  { fs with nodes := OrderedMap.put fs.nodes place node }

/-- Writes a file, which is made or replaced. -/
def write (fs : FileSystem) (path : String) (content : List UInt8) : Except Fault FileSystem := do
  let place ← fs.locate path
  match fs.node? place with
  | some .directory => .error .isDirectory
  | some (.file _) => .ok (fs.putNode place (.file content))
  | none =>
    if path.toList.getLast? == some '/' then .error .isDirectory
    else
      match fs.node? place.dropLast with
      | some .directory => .ok (fs.putNode place (.file content))
      | some (.file _) => .error .notDirectory
      | none => .error .missing

/-- Adds to the end of a file, which is made if it is missing. -/
def append (fs : FileSystem) (path : String) (content : List UInt8) : Except Fault FileSystem :=
  match fs.read path with
  | .ok before => fs.write path (before ++ content)
  | .error _ => fs.write path content

/-- Removes what stands at a path. -/
def remove (fs : FileSystem) (path : String) : FileSystem :=
  match fs.locate path with
  | .ok place => { fs with nodes := fs.nodes.filter fun (p, _) => p != place }
  | .error _ => fs

/-- Makes the directories at and above a place that are missing, from the root down. -/
def makePlaces (fs : FileSystem) : Place → List String → Except Fault FileSystem
  | _, [] => .ok fs
  | above, name :: rest =>
    let place := above ++ [name]
    match fs.node? place with
    | some .directory => fs.makePlaces place rest
    | some (.file _) => .error (if rest.isEmpty then .exists else .notDirectory)
    | none =>
      if nameLimit < name.utf8ByteSize then .error .nameTooLong
      else (fs.putNode place .directory).makePlaces place rest

/-- The components of a path, seen from the root. -/
def componentsFrom (fs : FileSystem) (path : String) : Place :=
  let names := Text.fields '/' path
  let start := if path.toList.head? == some '/' then [] else fs.current
  (names.filter fun n => n ≠ "" ∧ n ≠ ".").foldl
    (fun place name => if name = ".." then place.dropLast else place ++ [name]) start

/-- Makes the directory at a path and those above it that are missing. -/
def makeDirectories (fs : FileSystem) (path : String) : Except Fault FileSystem :=
  if path.toList.contains '\x00' then .error .unreadable
  else if path.isEmpty then .error .missing
  else fs.makePlaces [] (fs.componentsFrom path)

/-- The directories at and above a place as far as they can be made: a file stands in the way, and a name may be
too long or unreadable. -/
def placesMade (fs : FileSystem) : Place → List String → FileSystem
  | _, [] => fs
  | above, name :: rest =>
    let place := above ++ [name]
    match fs.node? place with
    | some .directory => fs.placesMade place rest
    | some (.file _) => fs
    | none =>
      if nameLimit < name.utf8ByteSize ∨ name.toList.contains '\x00' then fs
      else (fs.putNode place .directory).placesMade place rest

/-- The files after an attempt to make the directory at a path. What has been made above it stays when the rest
cannot be made. -/
def directoriesMade (fs : FileSystem) (path : String) : FileSystem :=
  if path.isEmpty then fs else fs.placesMade [] (fs.componentsFrom path)

/-- The names in the directory at a path; nothing when there is no such directory. -/
def names? (fs : FileSystem) (path : String) : Option (List String) :=
  match fs.locate path with
  | .error _ => none
  | .ok place =>
    match fs.node? place with
    | some .directory =>
      some (fs.nodes.filterMap fun (p, _) =>
        if p.length = place.length + 1 ∧ place.isPrefixOf p then p.getLast? else none)
    | _ => none

end FileSystem
end PackageGraph
