import PackageGraph.Xml.Element
import PackageGraph.Xml.Encoding
import PackageGraph.Xml.Prolog
/-!
# Reading XML

The tree of a document. The builder takes one token at a time and keeps the elements that are still open, each
with the name spaces in force inside it. A document is refused as soon as it breaks a rule of well-formedness or
of name spaces, such as a qualifier without a name space or an attribute given twice.
-/
namespace PackageGraph.Xml

/-- The name space of the reserved qualifier `xml`. -/
def reservedSpace : String := "http://www.w3.org/XML/1998/namespace"

/-- The name space of name space declarations, which nothing may be bound to. -/
def declarationSpace : String := "http://www.w3.org/2000/xmlns/"

/-- Name spaces by qualifier. -/
abbrev Scope := OrderedMap String String

/-- The qualifier that an attribute declares a name space for: `some none` is the default. -/
def Attribute.declares? (a : Attribute) : Option (Option String) :=
  match a.name.qualifier with
  | some q => if q = "xmlns" then some (some a.name.base) else none
  | none => if a.name.base = "xmlns" then some none else none

/-- Whether a name space may be bound to a qualifier or be the default. -/
def isBinding (qualifier : Option String) (space : String) : Bool :=
  if space.toList.contains '\x7d' then false
  else
    match qualifier with
    | none => space != reservedSpace && space != declarationSpace
    | some q =>
      if q = "xmlns" then false
      else if q = "xml" then space == reservedSpace
      else !space.isEmpty && space != reservedSpace && space != declarationSpace

/-- The name spaces in force inside an element; the default name space is no part of them. -/
def Scope.enter? (scope : Scope) (attributes : List Attribute) : Option Scope :=
  attributes.foldlM (fun scope a =>
    match a.declares? with
    | none => some scope
    | some qualifier =>
      if isBinding qualifier a.value then
        some (match qualifier with
          | none => scope
          | some q => OrderedMap.put scope q a.value)
      else none) scope

/-- The name of an attribute with its name space in braces. -/
def Scope.expand? (scope : Scope) (name : Name) : Option String :=
  match name.qualifier with
  | none => some name.base
  | some q => (OrderedMap.get? scope q).map fun space => "\x7b" ++ space ++ "\x7d" ++ name.base

/-- Whether no element of the list occurs twice. -/
def hasNoDuplicate {α : Type} [BEq α] : List α → Bool
  | [] => true
  | x :: xs => !xs.contains x && hasNoDuplicate xs

/-- The attributes of an element under their full names, without the declarations of name spaces. -/
def Scope.attributes? (scope : Scope) (attributes : List Attribute) : Option (OrderedMap String String) := do
  if !hasNoDuplicate (attributes.map Attribute.name) then none
  else
    let plain := attributes.filter fun a => a.declares?.isNone
    let full ← plain.mapM fun a => (scope.expand? a.name).map (·, a.value)
    if hasNoDuplicate (full.map (·.1)) then return full else none

/-- An element whose end has not been read: its text and its children so far are in reverse. -/
structure OpenElement where
  written : Name
  scope : Scope
  attributes : OrderedMap String String
  text : List Char
  children : List Element

namespace OpenElement

/-- Begins an element inside a scope. -/
def begin? (outer : Scope) (name : Name) (attributes : List Attribute) : Option OpenElement := do
  let scope ← outer.enter? attributes
  let _ ← scope.expand? name
  return ⟨name, scope, ← scope.attributes? attributes, [], []⟩

/-- The finished element. -/
def finish (o : OpenElement) : Element := ⟨o.written.base, o.attributes, .ofList o.text.reverse, o.children.reverse⟩

/-- Adds text, which counts only before the first child. -/
def addText (o : OpenElement) (chars : List Char) : OpenElement :=
  if o.children.isEmpty then { o with text := chars.reverse ++ o.text } else o

/-- Adds a child. -/
def addChild (o : OpenElement) (e : Element) : OpenElement := { o with children := e :: o.children }

end OpenElement

/-- The elements that are open, the innermost first, and the root once it is finished. -/
structure TreeState where
  opened : List OpenElement
  root : Option Element

namespace TreeState

/-- Nothing has been read. -/
def start : TreeState := ⟨[], none⟩

/-- Takes a token. -/
def step? (s : TreeState) : Token → Option TreeState
  | .openTag name attributes =>
    match s.opened, s.root with
    | [], none => (OpenElement.begin? [("xml", reservedSpace)] name attributes).map fun o => ⟨[o], none⟩
    | [], some _ => none
    | o :: os, root => (OpenElement.begin? o.scope name attributes).map fun new => ⟨new :: o :: os, root⟩
  | .closeTag name =>
    match s.opened with
    | [] => none
    | o :: os =>
      if o.written = name then
        match os with
        | [] => some ⟨[], some o.finish⟩
        | parent :: rest => some ⟨parent.addChild o.finish :: rest, s.root⟩
      else none
  | .text chars =>
    match s.opened with
    | [] => if chars.all isSpace then some s else none
    | o :: os => some { s with opened := o.addText chars :: os }
  | .quoted chars =>
    match s.opened with
    | [] => none
    | o :: os => some { s with opened := o.addText chars :: os }

end TreeState

/-- The tree of a document whose octets have been decoded. -/
def parseChars? (standsAlone : Bool) (cs : List Char) : Option Element := do
  let (type, rest) ← prolog? standsAlone (cs.length + 1) none cs
  if type.entities.exceeds cs.length rest then none
  let state ← (← scan? type rest).foldlM TreeState.step? .start
  match state.opened with
  | [] => state.root
  | _ :: _ => none

/-- The tree of a document. -/
def parse (bytes : List UInt8) : Except Fault Element := do
  let (text, standsAlone) ← documentText bytes
  match parseChars? standsAlone text with
  | some e => .ok e
  | none => .error .markup

end PackageGraph.Xml
