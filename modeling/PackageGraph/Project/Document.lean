import PackageGraph.OrderedMap
import PackageGraph.Text.LowerCase
import PackageGraph.Text.Split
import PackageGraph.Xml.Element
/-!
# Project files

Static evaluation of a project file. Nothing that stands under a condition counts, and expressions are left as
they are written. Properties are the children of property groups, of which the last definition counts; items are
the children of item groups. Metadata of an item are found under their exact name first and then under the first name
that differs in letter case alone.
-/
namespace PackageGraph

/-- An item of a project. -/
structure ProjectItem where
  included : String
  metadata : OrderedMap String String
  deriving Inhabited

namespace ProjectItem

/-- The metadata under a name. -/
def metadata? (item : ProjectItem) (name : String) : Option String :=
  match item.metadata.get? name with
  | some value => some value
  | none => (item.metadata.find? fun (key, _) => Text.lower key == Text.lower name).map (·.2)

/-- The metadata under a name; the empty text when there are none. -/
def metadataText (item : ProjectItem) (name : String) : String := (item.metadata? name).getD ""

end ProjectItem

namespace ProjectDocument

/-- Whether an element stands under a condition of its own. -/
def isConditional (e : Element) : Bool := !(e.attributeText "Condition").isEmpty

/-- The children of the groups of a kind, without those under a condition. -/
def groupMembers (root : Element) (group : String) : List Element :=
  ((root.children.filter fun g => g.name == group && !isConditional g).flatMap Element.children).filter
    fun e => !isConditional e

/-- The properties of a project. -/
def properties (root : Element) : OrderedMap String String :=
  OrderedMap.ofPairs ((groupMembers root "PropertyGroup").map fun e => (e.name, e.trimmedText))

/-- The value of a property; the empty text when it is not defined. -/
def property (root : Element) (name : String) : String := ((properties root).get? name).getD ""

/-- The attributes of an item that are no metadata, in lower case. -/
def reservedAttributes : List String := ["include", "update", "remove", "condition", "exclude"]

/-- The metadata of an item: its attributes and then its children, of which a later one replaces an earlier. -/
def metadata (e : Element) : OrderedMap String String :=
  e.children.foldl (fun m child => OrderedMap.put m child.name child.trimmedText)
    (e.attributes.filter fun (key, _) => !reservedAttributes.contains (Text.lower key))

/-- The items that an element includes, one for each entry between semicolons. -/
def itemsOf (e : Element) : List ProjectItem :=
  (((Text.fields ';' (e.attributeText "Include")).map Text.trim).filter fun s => !s.isEmpty).map
    fun included => ⟨included, metadata e⟩

/-- The items of a type. -/
def items (root : Element) (type : String) : List ProjectItem :=
  ((groupMembers root "ItemGroup").filter fun e => e.name == type).flatMap itemsOf

end ProjectDocument
end PackageGraph
