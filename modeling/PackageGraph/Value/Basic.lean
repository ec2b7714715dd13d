import PackageGraph.OrderedMap
import PackageGraph.Value.Timestamp
/-!
# Dynamic values

The values that configuration files and project files hold once their scalars have been given their
narrowest type.
-/
namespace PackageGraph

/-- The kinds of collection that a value may lie in. -/
inductive Enclosure where
  | list
  | tuple
  | mapping
  deriving DecidableEq, Repr

/-- A value of a document. The keys of a mapping are distinct and in the order of the document. -/
inductive Value where
  | null
  | bool (b : Bool)
  | int (n : Int)
  | float (x : Binary64)
  | text (s : String)
  | day (d : Date)
  | time (t : Timestamp)
  | guid (hyphenated : String)
  | octets (bytes : List UInt8)
  | list (items : List Value)
  /-- Items that belong together, such as a key and its value. -/
  | tuple (items : List Value)
  /-- Items without repetition. -/
  | set (items : List Value)
  | mapping (entries : List (Value × Value))
  /-- A collection that this value itself lies in. -/
  | enclosing (kind : Enclosure)
  deriving Inhabited

namespace Value

/-- The entry of a mapping under a text key; no other value has entries. -/
def get? (v : Value) (key : String) : Option Value :=
  match v with
  | .mapping entries =>
    (entries.find? fun (k, _) => match k with | .text s => s == key | _ => false).map (·.2)
  | _ => none

/-- The entries of a mapping that have a text key. -/
def members : Value → Option (List (String × Value))
  | .mapping entries => some (entries.filterMap fun (k, v) => match k with | .text s => some (s, v) | _ => none)
  | _ => none

/-- A mapping with text keys. -/
def ofMembers (members : List (String × Value)) : Value :=
  .mapping (members.map fun (k, v) => (.text k, v))

/-- Whether the value is absent, false, zero or empty. -/
def isFalsy : Value → Bool
  | .null => true
  | .bool b => !b
  | .int n => n == 0
  | .float x => x.isZero
  | .text s => s.isEmpty
  | .octets bytes => bytes.isEmpty
  | .list items | .tuple items | .set items => items.isEmpty
  | .mapping entries => entries.isEmpty
  | .day _ | .time _ | .guid _ | .enclosing _ => false

end Value
end PackageGraph
