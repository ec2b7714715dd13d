import PackageGraph.Json.Basic
import PackageGraph.Value.Text
/-!
# Shapes of documents

A shape says which kinds of values a document holds at which places. `conforms` decides whether a document has a
shape, `violations` lists what keeps it from having it, each with its place. Of several violations the one at the
least place is reported.
-/
namespace PackageGraph.Json

/-- A step from a value to a value in it. -/
inductive Step where
  | member (name : String)
  | item (index : Nat)
  deriving DecidableEq

/-- The written form of a step. -/
def Step.text : Step → String
  | .member name => name
  | .item index => natText index

/-- The order of steps from one value. -/
def Step.compare : Step → Step → Ordering
  | .member a, .member b => Ord.compare a b
  | .item i, .item j => Ord.compare i j
  | .item _, .member _ => .lt
  | .member _, .item _ => .gt

/-- The steps from the root of a document to a value. -/
abbrev Place := List Step

/-- The order of places: step by step, a place before those inside it. -/
def Place.compare : Place → Place → Ordering
  | [], [] => .eq
  | [], _ :: _ => .lt
  | _ :: _, [] => .gt
  | a :: as, b :: bs => (a.compare b).then (Place.compare as bs)

/-- The kinds of values that a shape tells apart. -/
inductive Kind where
  | text
  | flag
  | whole
  | list
  | object
  deriving DecidableEq

/-- The written name of a kind. -/
def Kind.name : Kind → String
  | .text => "string"
  | .flag => "boolean"
  | .whole => "integer"
  | .list => "array"
  | .object => "object"

/-- Whether a value is of a kind. A number with a fraction of zero is whole. -/
def isOf : Kind → Json → Bool
  | .text, .text _ => true
  | .flag, .bool _ => true
  | .whole, .int _ => true
  | .whole, .float x => x.isWhole
  | .list, .list _ => true
  | .object, .object _ => true
  | _, _ => false

/-- What a document is required to look like. -/
inductive Shape where
  /-- Any value. -/
  | anything
  /-- A text, a flag or a whole number. -/
  | scalar (kind : Kind)
  /-- A list whose items have a shape. -/
  | listOf (item : Shape)
  /-- An object with the required members, in which the named members have their shapes and every other member
  the last one. -/
  | record (required : List String) (fields : List (String × Shape)) (others : Shape)
  /-- A value of one of two shapes. -/
  | either (first second : Shape)

namespace Shape

/-- A text. -/
def text : Shape := .scalar .text

/-- An object of any members. -/
def object : Shape := .record [] [] .anything

/-- An object in which every member has a shape. -/
def mapOf (s : Shape) : Shape := .record [] [] s

/-- An object in which the named members have their shapes. -/
def withFields (fields : List (String × Shape)) : Shape := .record [] fields .anything

mutual

/-- Whether a document has a shape. -/
def conforms : Shape → Json → Bool
  | .anything, _ => true
  | .scalar kind, j => isOf kind j
  | .listOf item, .list items => items.all fun j => conforms item j
  | .listOf _, _ => false
  | .record required fields others, .object members =>
    (required.all fun name => OrderedMap.contains members name) && fieldsConform fields members &&
      members.all fun (name, j) => (fields.map (·.1)).contains name || conforms others j
  | .record _ _ _, _ => false
  | .either first second, j => conforms first j || conforms second j

/-- Whether the members have the shapes of the fields of their names. -/
def fieldsConform : List (String × Shape) → List (String × Json) → Bool
  | [], _ => true
  | (name, s) :: rest, members =>
    (members.all fun (n, j) => n != name || conforms s j) && fieldsConform rest members

end

end Shape

/-- What keeps a value from having a shape. -/
inductive Mismatch where
  | wrongKind (found : Json) (expected : Kind)
  | missingMember (name : String)
  | noAlternative (found : Json)

/-- The wording of a mismatch. -/
def Mismatch.message : Mismatch → String
  | .wrongKind found expected => found.toValue.inspect ++ " is not of type '" ++ expected.name ++ "'"
  | .missingMember name => Text.quoted name ++ " is a required property"
  | .noAlternative found => found.toValue.inspect ++ " is not valid under any of the given schemas"

/-- A mismatch and where it is. -/
structure Violation where
  place : Place
  mismatch : Mismatch

namespace Shape

mutual

/-- What keeps the value at a place from having a shape. -/
def violationsAt (place : Place) : Shape → Json → List Violation
  | .anything, _ => []
  | .scalar kind, j => if isOf kind j then [] else [⟨place, .wrongKind j kind⟩]
  | .listOf item, j =>
    match j with
    | .list items => items.zipIdx.flatMap fun (j, i) => violationsAt (place ++ [.item i]) item j
    | j => [⟨place, .wrongKind j .list⟩]
  | .record required fields others, j =>
    match j with
    | .object members =>
      (required.filter fun name => !OrderedMap.contains members name).map (⟨place, .missingMember ·⟩) ++
        fieldViolations place fields members ++
        members.flatMap fun (name, j) =>
          if (fields.map (·.1)).contains name then [] else violationsAt (place ++ [.member name]) others j
    | j => [⟨place, .wrongKind j .object⟩]
  | .either first second, j =>
    if conforms first j || conforms second j then [] else [⟨place, .noAlternative j⟩]

/-- What keeps the members from having the shapes of the fields of their names. -/
def fieldViolations (place : Place) : List (String × Shape) → List (String × Json) → List Violation
  | [], _ => []
  | (name, s) :: rest, members =>
    (members.flatMap fun (n, j) => if n == name then violationsAt (place ++ [.member name]) s j else []) ++
      fieldViolations place rest members

end

/-- The violation at the least place, the first of those at one place. -/
def least : List Violation → Option Violation
  | [] => none
  | v :: vs =>
    match least vs with
    | none => some v
    | some w => if w.place.compare v.place = .lt then some w else some v

/-- The violation of a shape that is reported. -/
def firstViolation (s : Shape) (j : Json) : Option Violation := least (violationsAt [] s j)

end Shape
end PackageGraph.Json
