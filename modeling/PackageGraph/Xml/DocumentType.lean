import PackageGraph.Xml.Declaration
import PackageGraph.Xml.Expansion
/-!
# Document types

What the declarations of a document type mean for the document: the entities, which attributes have values of words,
and which values attributes have that are not written. Of several declarations of one name the first counts.
Declarations that follow a reference to something outside the document do not count, because they might have been
declared there before, unless the document stands alone.
-/
namespace PackageGraph.Xml

/-- An attribute with its value. -/
structure Attribute where
  name : Name
  value : String
  deriving DecidableEq

/-- What is declared of an attribute. -/
structure AttributeRule where
  name : Name
  isTokenized : Bool
  /-- The value of an attribute that is not written. -/
  fallback : Option String
  deriving DecidableEq

/-- What has been declared. -/
structure DocumentType where
  /-- Whether the document stands alone. -/
  standsAlone : Bool
  entities : Entities
  /-- The rules for the attributes of elements. -/
  rules : OrderedMap Name (List AttributeRule)
  /-- Whether declarations count. -/
  counts : Bool

/-- The replacement text that a literal declares: characters by number are replaced at once, references to
entities later. -/
def replacement? : Nat → List Char → Option (List Char)
  | 0, _ => none
  | _ + 1, [] => some []
  | fuel + 1, '&' :: cs => do
    let (r, rest) ← reference? cs
    let more ← replacement? fuel rest
    match r with
    | .char c => return c :: more
    | .entity name => return '&' :: name.toList ++ ';' :: more
  | fuel + 1, c :: cs => if c = '%' then none else (replacement? fuel cs).map (c :: ·)

/-- What an entity stands for by its declaration. -/
def EntityContent.entity? : EntityContent → Option Entity
  | .written chars => (replacement? (chars.length + 1) chars).map .internal
  | .outside => some .external

/-- Words with one blank between them. -/
def tokenized (s : String) : String :=
  Text.join " " (((Text.splitOn ' ' s.toList).filter fun word => !word.isEmpty).map .ofList)

/-- The value of an attribute by the type that is declared for it. -/
def AttributeRule.apply (rule : AttributeRule) (value : String) : String :=
  if rule.isTokenized then tokenized value else value

namespace DocumentType

/-- Nothing has been declared. -/
def none (standsAlone : Bool) : DocumentType := ⟨standsAlone, ⟨[], true⟩, [], true⟩

/-- Part of the declarations is outside the document. -/
def extendedOutside (d : DocumentType) : DocumentType :=
  { d with entities := { d.entities with isComplete := d.standsAlone } }

/-- A reference to declarations outside the document has been met. -/
def refersOutside (d : DocumentType) : DocumentType := { d.extendedOutside with counts := d.standsAlone }

/-- The rules for the attributes of an element. -/
def rulesOf (d : DocumentType) (element : Name) : List AttributeRule :=
  (OrderedMap.get? d.rules element).getD []

/-- Takes in the declaration of an attribute. -/
def addAttribute? (element : Name) (d : DocumentType) (a : AttributeDeclaration) : Option DocumentType := do
  let fallback ← match a.fallback with
    | some written =>
      if d.entities.exceeds written.length written then Option.none
      else (attributeValue? d.entities written).map some
    | Option.none => some Option.none
  let rule : AttributeRule := ⟨a.name, a.isTokenized, Option.none⟩
  let rules := d.rulesOf element
  if rules.any fun r => r.name = a.name then return d
  let rule := { rule with fallback := fallback.map rule.apply }
  return { d with rules := OrderedMap.put d.rules element (rules ++ [rule]) }

/-- Takes in a declaration. -/
def add? (d : DocumentType) (declared : Declaration) : Option DocumentType :=
  if !d.counts then some d
  else
    match declared with
    | .other => some d
    | .parameterEntity content => content.entity?.map fun _ => d
    | .entity name content => content.entity?.map fun entity =>
      { d with entities := { d.entities with table := OrderedMap.putNew d.entities.table name entity } }
    | .attributes element declared => declared.foldlM (addAttribute? element) d

/-- The attributes of an element: those that are written, and the others for which a value is declared. -/
def attributesOf (d : DocumentType) (element : Name) (written : List Attribute) : List Attribute :=
  let rules := d.rulesOf element
  let given := written.map fun a =>
    match rules.find? fun r => r.name = a.name with
    | some rule => { a with value := rule.apply a.value }
    | Option.none => a
  given ++ rules.filterMap fun r =>
    if written.any fun a => a.name = r.name then Option.none else r.fallback.map (Attribute.mk r.name)

end DocumentType
end PackageGraph.Xml
