import PackageGraph.Text.Blank
import PackageGraph.Text.LowerCase
import PackageGraph.Text.Split
/-!
# Asset flags

Sets of the asset groups that a dependency contributes. Their text names groups between semicolons or commas,
without regard to letter case; unknown names are passed over. A blank text stands for a default that depends on
the place.
-/
namespace PackageGraph

/-- A kind of asset that a dependency may contribute. -/
inductive AssetGroup where
  | runtime
  | compile
  | build
  | native
  | contentFiles
  | analyzers
  | buildTransitive
  deriving DecidableEq, Repr

namespace AssetGroup

/-- Every group, in the order in which sets are written. -/
def all : List AssetGroup := [.runtime, .compile, .build, .native, .contentFiles, .analyzers, .buildTransitive]

/-- The written name. -/
def name : AssetGroup → String
  | .runtime => "Runtime"
  | .compile => "Compile"
  | .build => "Build"
  | .native => "Native"
  | .contentFiles => "ContentFiles"
  | .analyzers => "Analyzers"
  | .buildTransitive => "BuildTransitive"

end AssetGroup

/-- A set of asset groups. -/
@[ext] structure AssetFlags where
  runtime : Bool
  compile : Bool
  build : Bool
  native : Bool
  contentFiles : Bool
  analyzers : Bool
  buildTransitive : Bool
  deriving DecidableEq, Inhabited

namespace AssetFlags

/-- Whether the set holds a group. -/
def has (f : AssetFlags) : AssetGroup → Bool
  | .runtime => f.runtime
  | .compile => f.compile
  | .build => f.build
  | .native => f.native
  | .contentFiles => f.contentFiles
  | .analyzers => f.analyzers
  | .buildTransitive => f.buildTransitive

/-- The set of the groups that a test picks. -/
def ofTest (p : AssetGroup → Bool) : AssetFlags :=
  ⟨p .runtime, p .compile, p .build, p .native, p .contentFiles, p .analyzers, p .buildTransitive⟩

/-- No group. -/
def none : AssetFlags := ofTest fun _ => false

/-- Every group. -/
def all : AssetFlags := ofTest fun _ => true

/-- One group. -/
def only (g : AssetGroup) : AssetFlags := ofTest (· == g)

/-- The groups of either set. -/
def union (f g : AssetFlags) : AssetFlags := ofTest fun a => f.has a || g.has a

/-- The groups of the first set that the second does not hold. -/
def without (f g : AssetFlags) : AssetFlags := ofTest fun a => f.has a && !g.has a

/-- The groups that a dependency withholds from the consumers of its project unless told otherwise. -/
def defaultPrivate : AssetFlags := ofTest fun a => a == .contentFiles || a == .analyzers || a == .build

/-- The set that a name stands for, without regard to letter case and white space around it. -/
def ofName? (cs : List Char) : Option AssetFlags :=
  let name := String.ofList (Text.lowerChars (Text.trimChars cs))
  if name = "none" then some none
  else if name = "all" then some all
  else (AssetGroup.all.find? fun g => Text.lower g.name == name).map only

/-- Whether the character stands between names. -/
def isSeparator (c : Char) : Bool := c = ';' || c = ','

/-- The groups that a text names. -/
def named (cs : List Char) : AssetFlags :=
  ((Text.splitWhere isSeparator cs).filterMap ofName?).foldl union none

/-- The set that a text stands for; a blank text stands for the default. -/
def parse (text : String) (default : AssetFlags) : AssetFlags :=
  if Text.isBlankText text then default else named text.toList

/-- The set that a text stands for; the default when there is none. -/
def parseOptional (text : Option String) (default : AssetFlags) : AssetFlags := parse (text.getD "") default

/-- The written form: `All`, `None`, or the names of the groups. -/
def text (f : AssetFlags) : String :=
  if f = all then "All"
  else if f = none then "None"
  else Text.join ", " ((AssetGroup.all.filter f.has).map AssetGroup.name)

/-- The groups that a reference includes and those that it withholds, from its three texts. -/
def ofAssets (includeAssets excludeAssets privateAssets : Option String) : AssetFlags × AssetFlags :=
  ((parseOptional includeAssets all).without (parseOptional excludeAssets none),
    parseOptional privateAssets defaultPrivate)

end AssetFlags
end PackageGraph
