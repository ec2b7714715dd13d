import PackageGraph.Xml.DocumentType
/-!
# Tokens of XML documents

The tags and texts of a document, in order. Comments and processing instructions leave no token. Text that stands
in the document as it is differs from text that was quoted or referred to, which may not stand outside the root.
-/
namespace PackageGraph.Xml

/-- A token. -/
inductive Token where
  | openTag (name : Name) (attributes : List Attribute)
  | closeTag (name : Name)
  /-- Text as it stands in the document. -/
  | text (chars : List Char)
  /-- Text that was quoted or referred to. -/
  | quoted (chars : List Char)
  deriving DecidableEq

/-- The text after a comment whose opening mark has been read. -/
def afterComment? (cs : List Char) : Option (List Char) := do
  let (_, rest) ← cutAt? "--".toList cs
  match rest with
  | '>' :: rest => some rest
  | _ => none

/-- The text after a processing instruction whose opening mark has been read. -/
def afterInstruction? (cs : List Char) : Option (List Char) := do
  let (target, rest) ← plainName? cs
  if String.ofList (target.map Char.toLower) = "xml" then none
  else
    match rest with
    | '?' :: '>' :: rest => some rest
    | c :: rest => if isSpace c then (cutAt? "?>".toList rest).map (·.2) else none
    | [] => none

/-- The attributes of a tag, whether the tag closes its element, and the text after the tag. -/
def attributes? (entities : Entities) : Nat → List Char → Option ((List Attribute × Bool) × List Char)
  | 0, _ => none
  | fuel + 1, cs =>
    match skipSpace cs with
    | '>' :: rest => some (([], false), rest)
    | '/' :: '>' :: rest => some (([], true), rest)
    | _ => do
      let rest ← afterSpace? cs
      let (name, rest) ← name? rest
      match skipSpace rest with
      | '=' :: rest =>
        let (written, rest) ← literal? (skipSpace rest)
        let value ← attributeValue? entities written
        let ((attributes, closes), rest) ← attributes? entities fuel rest
        return ((⟨name, value⟩ :: attributes, closes), rest)
      | _ => none

/-- What stands between one piece of markup and the next: the text of it and the rest. -/
def plainText? : List Char → Option (List Char × List Char)
  | [] => some ([], [])
  | c :: cs =>
    if c = '<' ∨ c = '&' then some ([], c :: cs)
    else if c = ']' ∧ "]>".toList.isPrefixOf cs then none
    else (plainText? cs).map fun (text, rest) => (c :: text, rest)

/-- The tokens of a text in a document of a type; `entity?` gives those of an entity. -/
def tokens? (type : DocumentType) (entity? : String → Option (List Token)) :
    Nat → List Char → Option (List Token)
  | 0, _ => none
  | _ + 1, [] => some []
  | fuel + 1, '<' :: '!' :: '-' :: '-' :: cs => do
    tokens? type entity? fuel (← afterComment? cs)
  | fuel + 1, '<' :: '!' :: cs => do
    let (text, rest) ← cutAt? "]]>".toList (← afterWord? "[CDATA[" cs)
    return .quoted text :: (← tokens? type entity? fuel rest)
  | fuel + 1, '<' :: '?' :: cs => do
    tokens? type entity? fuel (← afterInstruction? cs)
  | fuel + 1, '<' :: '/' :: cs => do
    let (name, rest) ← name? cs
    match skipSpace rest with
    | '>' :: rest => return .closeTag name :: (← tokens? type entity? fuel rest)
    | _ => none
  | fuel + 1, '<' :: cs => do
    let (name, rest) ← name? cs
    let ((attributes, closes), rest) ← attributes? type.entities (fuel + 1) rest
    let more ← tokens? type entity? fuel rest
    return .openTag name (type.attributesOf name attributes) :: if closes then .closeTag name :: more else more
  | fuel + 1, '&' :: cs => do
    let (r, rest) ← reference? cs
    let found ← match r with
      | .char c => some [.quoted [c]]
      | .entity name =>
        match predefined? name with
        | some c => some [.quoted [c]]
        | none => entity? name
    return found ++ (← tokens? type entity? fuel rest)
  | fuel + 1, c :: cs => do
    let (text, rest) ← plainText? (c :: cs)
    return .text text :: (← tokens? type entity? fuel rest)

/-- How many elements are open after a token, if it does not close one too many. -/
def openAfter? (depth : Nat) : Token → Option Nat
  | .openTag .. => some (depth + 1)
  | .closeTag _ => if depth = 0 then none else some (depth - 1)
  | _ => some depth

/-- Whether the tokens open and close elements in equal number. -/
def areBalanced (ts : List Token) : Bool := ts.foldlM openAfter? 0 == some 0

/-- Text that an entity brings in counts as quoted. -/
def Token.fromEntity : Token → Token
  | .text chars => .quoted chars
  | t => t

/-- The tokens of an entity, whose elements begin and end within it. -/
def entityTokens? (type : DocumentType) : Nat → String → Option (List Token)
  | 0, _ => none
  | depth + 1, name =>
    match type.entities.get? name with
    | some (.internal text) => do
      let ts ← tokens? type (entityTokens? type depth) (text.length + 1) text
      if areBalanced ts then return .quoted [] :: ts.map Token.fromEntity else none
    | _ => none

/-- The tokens of a document of a type after its prolog. -/
def scan? (type : DocumentType) (cs : List Char) : Option (List Token) :=
  tokens? type (entityTokens? type (type.entities.table.length + 1)) (cs.length + 1) cs

end PackageGraph.Xml
