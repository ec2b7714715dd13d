import PackageGraph.OrderedMap
import PackageGraph.Value.Basic
/-!
# JSON values

Objects keep the order of their members; a member that is written twice keeps its first place and its last
value.
-/
namespace PackageGraph

/-- A JSON value. Numbers without fraction and exponent are whole numbers of any size. -/
inductive Json where
  | null
  | bool (b : Bool)
  | int (n : Int)
  | float (x : Binary64)
  | text (s : String)
  | list (items : List Json)
  | object (members : List (String × Json))
  deriving Inhabited

namespace Json

/-- The member of an object under a name; no other value has members. -/
def get? (j : Json) (name : String) : Option Json :=
  match j with
  | .object members => OrderedMap.get? members name
  | _ => none

/-- The members of an object; no other value has members. -/
def members : Json → List (String × Json)
  | .object members => members
  | _ => []

/-- The items of a list; no other value has items. -/
def items : Json → List Json
  | .list items => items
  | _ => []

/-- The text of a text value. -/
def text? : Json → Option String
  | .text s => some s
  | _ => none

/-- The text of the member under a name, if the member is a text. -/
def textAt? (j : Json) (name : String) : Option String := (j.get? name).bind text?

/-- An object without members. -/
def empty : Json := .object []

/-- The texts as a list. -/
def ofTexts (texts : List String) : Json := .list (texts.map .text)

mutual

/-- The value as a dynamic value, its texts kept as they are. -/
def toValue : Json → Value
  | .null => .null
  | .bool b => .bool b
  | .int n => .int n
  | .float x => .float x
  | .text s => .text s
  | .list items => .list (toValues items)
  | .object members => .mapping (toEntries members)

/-- The items as dynamic values. -/
def toValues : List Json → List Value
  | [] => []
  | j :: js => toValue j :: toValues js

/-- The members as entries of a mapping. -/
def toEntries : List (String × Json) → List (Value × Value)
  | [] => []
  | (name, j) :: rest => (.text name, toValue j) :: toEntries rest

end

end Json

namespace Value

mutual

/-- The value as JSON: dates and identifiers in their plain form, keys of a mapping as texts. -/
def toJson : Value → Json
  | .null => .null
  | .bool b => .bool b
  | .int n => .int n
  | .float x => .float x
  | .text s => .text s
  | .day d => .text d.text
  | .time t => .text t.text
  | .guid g => .text g
  | .list items | .tuple items | .set items => .list (toJsons items)
  | .mapping entries => .object (toMembers entries)
  | .octets _ | .enclosing _ => .null

/-- The items as JSON. -/
def toJsons : List Value → List Json
  | [] => []
  | v :: vs => toJson v :: toJsons vs

/-- The entries with a text key as members of an object. -/
def toMembers : List (Value × Value) → List (String × Json)
  | [] => []
  | (.text name, v) :: rest => (name, toJson v) :: toMembers rest
  | _ :: rest => toMembers rest

end

end Value
end PackageGraph
