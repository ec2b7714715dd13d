import PackageGraph.Text.Split
import PackageGraph.Xml.Characters
/-!
# Declarations of XML documents

What a document type may declare: entities, attributes, elements and notations. A declaration is first divided into
its parts, white space between them being left out, and the grammar of declarations is one of lists of parts.
-/
namespace PackageGraph.Xml

/-! ## Parts -/

/-- A part of a declaration. -/
inductive Part where
  | name (n : Name)
  /-- A word that is no name, such as one that begins with a digit. -/
  | nameToken
  /-- A name with a mark of how often it may occur. -/
  | repeatedName
  /-- A word after a number sign. -/
  | keyword (word : String)
  | literal (chars : List Char)
  | openGroup
  /-- A parenthesis with the mark after it of how often the group may occur. -/
  | closeGroup (mark : Option Char)
  | comma
  | bar
  | percent
  /-- The bracket in which the declarations of a document type begin. -/
  | bracket
  /-- The end of the declaration. -/
  | close
  deriving DecidableEq

/-- A part that is a given word. -/
@[match_pattern] def Part.word (s : String) : Part := .name ⟨none, s⟩

/-- Whether the text goes on with white space or one of these characters. -/
def goesOnWith (cs : List Char) (allowed : List Char) : Bool :=
  cs.head?.any fun c => isSpace c || allowed.contains c

/-- The name that a word is, with at most one colon in it. -/
def nameOfWord? (word : List Char) : Option Name :=
  if !word.head?.any isNameStart then none
  else
    match Text.splitOn ':' word with
    | [base] => some ⟨none, .ofList base⟩
    | [qualifier, base] => if base.isEmpty then none else some ⟨some (.ofList qualifier), .ofList base⟩
    | _ => none

/-- Reads a word, which ends before white space or a mark. -/
def word? (cs : List Char) : Option (Part × List Char) := do
  let word := cs.takeWhile fun c => isNameChar c || c = ':'
  let rest := cs.drop word.length
  if word.isEmpty then none
  match nameOfWord? word, rest with
  | some _, '?' :: rest | some _, '*' :: rest | some _, '+' :: rest => return (.repeatedName, rest)
  | some n, _ => if goesOnWith rest ">),|[%".toList then return (.name n, rest) else none
  | none, _ => if goesOnWith rest ">),|[%".toList then return (.nameToken, rest) else none

/-- Reads what follows a number sign. -/
def keyword? (cs : List Char) : Option (Part × List Char) := do
  let (word, rest) ← plainName? cs
  if goesOnWith rest ")>%|".toList then return (.keyword (.ofList word), rest) else none

/-- Reads a text between quotes. -/
def quotedPart? (cs : List Char) : Option (Part × List Char) := do
  let (chars, rest) ← literal? cs
  if goesOnWith rest ">%[".toList then return (.literal chars, rest) else none

/-- Reads a part. -/
def part? : List Char → Option (Part × List Char)
  | '>' :: rest => some (.close, rest)
  | '[' :: rest => some (.bracket, rest)
  | '(' :: rest => some (.openGroup, rest)
  | ')' :: '*' :: rest => some (.closeGroup (some '*'), rest)
  | ')' :: '?' :: rest => some (.closeGroup (some '?'), rest)
  | ')' :: '+' :: rest => some (.closeGroup (some '+'), rest)
  | ')' :: rest => if goesOnWith rest ">,|)".toList then some (.closeGroup none, rest) else none
  | ',' :: rest => some (.comma, rest)
  | '|' :: rest => some (.bar, rest)
  | '%' :: rest => if goesOnWith rest ['%'] then some (.percent, rest) else none
  | '#' :: rest => keyword? rest
  | '"' :: rest => quotedPart? ('"' :: rest)
  | '\'' :: rest => quotedPart? ('\'' :: rest)
  | cs => word? cs

/-- The parts up to one of those that end the reading, with that one. -/
def partsUpTo? (ends : List Part) : Nat → List Char → Option (List Part × Part × List Char)
  | 0, _ => none
  | fuel + 1, cs => do
    let (part, rest) ← part? (skipSpace cs)
    if ends.contains part then return ([], part, rest)
    let (parts, last, rest) ← partsUpTo? ends fuel rest
    return (part :: parts, last, rest)

/-! ## Entities and notations -/

/-- Whether a character may stand in a public identifier. -/
def isPublicChar (c : Char) : Bool :=
  c.isAlphanum || c = ' ' || c = '\r' || c = '\n' || "-'()+,./:=?;!*#@$_%".toList.contains c

/-- The parts after an identifier of something outside the document. -/
def afterExternal? : List Part → Option (List Part)
  | .word "SYSTEM" :: .literal _ :: rest => some rest
  | .word "PUBLIC" :: .literal identifier :: .literal _ :: rest =>
    if identifier.all isPublicChar then some rest else none
  | _ => none

/-- Whether a document type, of which these are the parts before its bracket, is partly declared outside the
document. -/
def isExtended? : List Part → Option Bool
  | [.name _] => some false
  | .name _ :: rest => if afterExternal? rest = some [] then some true else none
  | _ => none

/-- What an entity is declared to be: a text as it is written, or something outside the document. -/
inductive EntityContent where
  | written (chars : List Char)
  | outside
  deriving DecidableEq

/-- A declared attribute. -/
structure AttributeDeclaration where
  name : Name
  /-- Whether its values are words, so that it does not matter how many blanks stand around them. -/
  isTokenized : Bool
  /-- The value of an attribute that is not written, as it is written in the declaration. -/
  fallback : Option (List Char)
  deriving DecidableEq

/-- A declaration. -/
inductive Declaration where
  | entity (name : String) (content : EntityContent)
  /-- An entity for declarations. -/
  | parameterEntity (content : EntityContent)
  | attributes (element : Name) (declared : List AttributeDeclaration)
  /-- A declaration on which no value depends. -/
  | other
  deriving DecidableEq

/-- The content of an entity for declarations. -/
def parameterContent? : List Part → Option EntityContent
  | [.literal chars] => some (.written chars)
  | parts => if afterExternal? parts = some [] then some .outside else none

/-- The content of an entity, which may be in a notation of its own if it is outside the document. -/
def entityContent? : List Part → Option EntityContent
  | [.literal chars] => some (.written chars)
  | parts =>
    match afterExternal? parts with
    | some [] | some [.word "NDATA", .name ⟨none, _⟩] => some .outside
    | _ => none

/-- An entity declaration. -/
def entityDeclaration? : List Part → Option Declaration
  | .percent :: .name ⟨none, _⟩ :: rest => (parameterContent? rest).map .parameterEntity
  | .name ⟨none, name⟩ :: rest => (entityContent? rest).map (.entity name)
  | _ => none

/-- Whether the parts declare a notation, whose public identifier may stand alone. -/
def isNotation : List Part → Bool
  | [.name ⟨none, _⟩, .word "PUBLIC", .literal identifier] => identifier.all isPublicChar
  | .name ⟨none, _⟩ :: rest => afterExternal? rest = some []
  | _ => false

/-! ## Attributes -/

/-- The parts after a group of alternatives whose parenthesis has been read. -/
def afterAlternatives? (isMember : Part → Bool) : List Part → Option (List Part)
  | member :: .closeGroup none :: rest => if isMember member then some rest else none
  | member :: .bar :: rest => if isMember member then afterAlternatives? isMember rest else none
  | _ => none

/-- The types of attributes whose values are words. -/
def wordTypes : List String := ["ID", "IDREF", "IDREFS", "ENTITY", "ENTITIES", "NMTOKEN", "NMTOKENS"]

/-- Whether a part may be a value of an enumeration. -/
def isEnumerated : Part → Bool
  | .name _ | .nameToken => true
  | _ => false

/-- Whether a part may be the name of a notation. -/
def isNotationName : Part → Bool
  | .name ⟨none, _⟩ => true
  | _ => false

/-- The type of an attribute: whether its values are words, and the parts after it. -/
def attributeType? : List Part → Option (Bool × List Part)
  | .word "NOTATION" :: .openGroup :: rest => (afterAlternatives? isNotationName rest).map (true, ·)
  | .openGroup :: rest => (afterAlternatives? isEnumerated rest).map (true, ·)
  | .word "CDATA" :: rest => some (false, rest)
  | .word type :: rest => if wordTypes.contains type then some (true, rest) else none
  | _ => none

/-- What becomes of an attribute that is not written, and the parts after it. -/
def fallback? : List Part → Option (Option (List Char) × List Part)
  | .keyword "IMPLIED" :: rest | .keyword "REQUIRED" :: rest => some (none, rest)
  | .keyword "FIXED" :: .literal chars :: rest | .literal chars :: rest => some (some chars, rest)
  | _ => none

/-- The attributes that parts declare. -/
def attributeList? : Nat → List Part → Option (List AttributeDeclaration)
  | _, [] => some []
  | 0, _ => none
  | fuel + 1, .name name :: rest => do
    let (isTokenized, rest) ← attributeType? rest
    let (fallback, rest) ← fallback? rest
    return ⟨name, isTokenized, fallback⟩ :: (← attributeList? fuel rest)
  | _, _ => none

/-- A declaration of the attributes of an element. -/
def attributeDeclaration? : List Part → Option Declaration
  | .name element :: rest => (attributeList? rest.length rest).map (.attributes element)
  | _ => none

/-! ## Elements -/

/-- What may follow the first part of a group of text and elements: names between bars, and the end. -/
def isMixedRest : List Part → Bool
  | [.closeGroup mark] => mark = some '*'
  | .bar :: .name _ :: rest => isMixedRest rest
  | _ => false

/-- Whether a part may stand in a group of elements. -/
def isGroupMember : Part → Bool
  | .name _ | .repeatedName => true
  | _ => false

/-- Whether parts are the rest of nested groups. `groups` are the marks that divide the open groups, the innermost
first, as far as they are known, and `wantsMember` tells whether a member has to come next. One group has one mark. -/
def areGroups : List (Option Part) → Bool → List Part → Bool
  | [], _, rest => rest.isEmpty
  | _, _, [] => false
  | groups, true, part :: rest =>
    if part = .openGroup then areGroups (none :: groups) true rest
    else isGroupMember part && areGroups groups false rest
  | mark :: groups, false, part :: rest =>
    match part with
    | .closeGroup _ => areGroups groups false rest
    | .comma | .bar => (mark = none || mark = some part) && areGroups (some part :: groups) true rest
    | _ => false

/-- Whether parts are the content of an element. -/
def isContentModel : List Part → Bool
  | [.word "EMPTY"] | [.word "ANY"] => true
  | [.openGroup, .keyword "PCDATA", .closeGroup none] => true
  | .openGroup :: .keyword "PCDATA" :: rest => isMixedRest rest
  | .openGroup :: rest => areGroups [none] true rest
  | _ => false

/-- Whether the parts declare an element. -/
def isElement : List Part → Bool
  | .name _ :: rest => isContentModel rest
  | _ => false

/-! ## All declarations -/

/-- The declaration that parts after an opening word make up. -/
def declarationOf? (word : String) (parts : List Part) : Option Declaration :=
  if word = "ENTITY" then entityDeclaration? parts
  else if word = "ATTLIST" then attributeDeclaration? parts
  else if word = "ELEMENT" then if isElement parts then some .other else none
  else if word = "NOTATION" then if isNotation parts then some .other else none
  else none

/-- Reads a declaration from its opening word on, which white space follows. -/
def declared? (cs : List Char) : Option (Declaration × List Char) := do
  let (word, rest) ← plainName? cs
  let (parts, _, rest) ← partsUpTo? [.close] (rest.length + 1) (← afterSpace? rest)
  return (← declarationOf? (.ofList word) parts, rest)

end PackageGraph.Xml
