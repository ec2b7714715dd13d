import PackageGraph.OrderedMap
import PackageGraph.Text.DecimalDigit
import PackageGraph.Xml.Characters
/-!
# References and entities

A reference stands for one character or for the replacement text of an entity. An entity may refer to others
but not to itself, so that the number of declared entities bounds how deeply references nest.
-/
namespace PackageGraph.Xml

/-- What follows an ampersand. -/
inductive Reference where
  | char (c : Char)
  | entity (name : String)
  deriving DecidableEq

/-- What an entity stands for: replacement text, or something outside the document. -/
inductive Entity where
  | internal (text : List Char)
  | external
  deriving DecidableEq

/-- The declared entities. -/
structure Entities where
  /-- The entities by name. -/
  table : OrderedMap String Entity
  /-- Whether these are all entities; otherwise a name may stand for one that is declared outside the document. -/
  isComplete : Bool

/-- What an entity stands for. -/
def Entities.get? (entities : Entities) (name : String) : Option Entity := OrderedMap.get? entities.table name

/-- The value of a hexadecimal digit. -/
def hexValue? (c : Char) : Option Nat :=
  if c.isDigit then some (c.toNat - 48)
  else if 'a' ≤ c ∧ c ≤ 'f' then some (c.toNat - 87)
  else if 'A' ≤ c ∧ c ≤ 'F' then some (c.toNat - 55)
  else none

/-- The number that digits to a base denote; there has to be at least one digit. -/
def number? (base : Nat) (digits : List Char) : Option Nat :=
  if digits.isEmpty then none
  else
    digits.foldlM (fun n c =>
      match hexValue? c with
      | some d => if d < base then some (n * base + d) else none
      | none => none) 0

/-- The character with this number, if it may stand in a document. -/
def charOf? (n : Nat) : Option Char :=
  if n.isValidChar ∧ n ≠ 0 ∧ isDocumentChar (Char.ofNat n) then some (Char.ofNat n) else none

/-- Reads what follows an ampersand. -/
def reference? : List Char → Option (Reference × List Char)
  | '#' :: 'x' :: cs => do
    let (digits, rest) ← cutAt? [';'] cs
    return (.char (← (number? 16 digits).bind charOf?), rest)
  | '#' :: cs => do
    let (digits, rest) ← cutAt? [';'] cs
    return (.char (← (number? 10 digits).bind charOf?), rest)
  | cs => do
    let (name, rest) ← plainName? cs
    match rest with
    | ';' :: rest => return (.entity (.ofList name), rest)
    | _ => none

/-- The characters that every document has names for. -/
def predefined? (name : String) : Option Char :=
  if name = "lt" then some '<'
  else if name = "gt" then some '>'
  else if name = "amp" then some '&'
  else if name = "quot" then some '"'
  else if name = "apos" then some '\''
  else none

/-- The value of an attribute whose written form has no quotes around it any more: white space counts as blanks,
and `entity?` gives the value of an entity. -/
def attributeChars? (entity? : String → Option (List Char)) : Nat → List Char → Option (List Char)
  | 0, _ => none
  | _ + 1, [] => some []
  | fuel + 1, '&' :: cs => do
    let (r, rest) ← reference? cs
    let chars ← match r with
      | .char c => some [c]
      | .entity name =>
        match predefined? name with
        | some c => some [c]
        | none => entity? name
    return chars ++ (← attributeChars? entity? fuel rest)
  | fuel + 1, c :: cs =>
    if c = '<' then none
    else (attributeChars? entity? fuel cs).map ((if isSpace c then ' ' else c) :: ·)

/-- The value of an entity inside an attribute; one that is declared outside the document has none. -/
def entityChars? (entities : Entities) : Nat → String → Option (List Char)
  | 0, _ => none
  | depth + 1, name =>
    match entities.get? name with
    | some (.internal text) => attributeChars? (entityChars? entities depth) (text.length + 1) text
    | some .external => none
    | none => if entities.isComplete then none else some []

/-- The value of an attribute. -/
def attributeValue? (entities : Entities) (written : List Char) : Option String :=
  (attributeChars? (entityChars? entities (entities.table.length + 1)) (written.length + 1) written).map .ofList

end PackageGraph.Xml
