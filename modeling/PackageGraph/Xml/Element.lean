import PackageGraph.OrderedMap
import PackageGraph.Text.Blank
import PackageGraph.Text.LowerCase
/-!
# Elements

The tree of a markup document, as its readers see it: elements with their local names, attributes, children, and
the text before the first child. Attributes in a name space carry it in braces before their name.
-/
namespace PackageGraph

/-- An element of a document. -/
structure Element where
  /-- The name without its name space. -/
  name : String
  attributes : OrderedMap String String
  /-- The text before the first child. -/
  text : String
  children : List Element
  deriving Inhabited

namespace Element

/-- The value of an attribute. -/
def attribute? (e : Element) (name : String) : Option String := e.attributes.get? name

/-- The value of an attribute; the empty text when it is missing. -/
def attributeText (e : Element) (name : String) : String := (e.attribute? name).getD ""

/-- The text before the first child without white space around it. -/
def trimmedText (e : Element) : String := Text.trim e.text

mutual

/-- The element and every element below it, in document order. -/
def descendants : Element → List Element
  | ⟨name, attributes, text, children⟩ => ⟨name, attributes, text, children⟩ :: descendantsOf children

/-- The elements of a list and every element below them, in document order. -/
def descendantsOf : List Element → List Element
  | [] => []
  | e :: es => descendants e ++ descendantsOf es

end

/-- The children with a name. -/
def childrenNamed (e : Element) (name : String) : List Element := e.children.filter (·.name == name)

end Element
end PackageGraph
