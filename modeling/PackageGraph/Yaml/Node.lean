import PackageGraph.Yaml.Scalar
import PackageGraph.Yaml.Token
/-!
# Nodes of a YAML text

The nodes that tokens describe. A reference stands for the node that was named before it, so one node may be part
of several others, and even of itself: nodes stand in a table and hold each other by their places in it.
-/
namespace PackageGraph.Yaml

/-- What a node holds. -/
inductive Content where
  | scalar (text : String)
  | sequence (items : List Nat)
  | mapping (entries : List (Nat × Nat))
  deriving Inhabited, DecidableEq

/-- A node with its full tag. -/
structure Node where
  tag : String
  content : Content
  deriving Inhabited, DecidableEq

/-- The nodes of a document, with the place of the outermost one. -/
structure NodeGraph where
  nodes : Array Node
  root : Nat

namespace Node

/-- The tag of a scalar: without one, and without quotes, it follows from the text. -/
def scalarTag (tag : Option String) (text : String) (plain : Bool) : String :=
  match tag with
  | none => if plain then implicitTag text else standardTag "str"
  | some tag => if tag == unspecifiedTag then implicitTag text else tag

/-- The tag of a collection, which is the standard one of its kind unless another is given. -/
def collectionTag (tag : Option String) (kind : String) : String :=
  match tag.filter (· != unspecifiedTag) with
  | none => standardTag kind
  | some tag => tag

/-! ## What reading hands on -/

/-- The tokens that follow and the fault after them, the nodes so far, the names given to some of them, and what the
handles of tags stand for. -/
structure State where
  tokens : List Token
  fault : Option Fault
  nodes : Array Node
  names : List (String × Nat)
  handles : TagHandles

/-- What is read from tokens, and the state after it. -/
abbrev Reader (α : Type) := StateT State (Except Fault) α

/-- The next token. Where a fault ends the tokens, looking for another one meets it. -/
def next? : Reader (Option Token) := do
  let s ← get
  match s.tokens, s.fault with
  | t :: _, _ => return some t
  | [], none => return none
  | [], some f => throw f

/-- Whether the next token is one of a list; a text that ends has none. -/
def nextIn (ts : List Token) : Reader Bool := return (← next?).any ts.contains

/-- Passes over the next token. -/
def drop : Reader Unit := modify fun s => { s with tokens := s.tokens.tail }

/-- Passes over the next token if it is this one. -/
def accept (t : Token) : Reader Bool := do
  if (← next?) == some t then
    drop
    return true
  else return false

/-- Passes over the next token, which has to be this one. -/
def expect (t : Token) : Reader Unit := do
  if !(← accept t) then throw .yaml

/-- Puts a node at the end of the table. -/
def add (node : Node) : Reader Nat := modifyGet fun s => (s.nodes.size, { s with nodes := s.nodes.push node })

/-- The node that stands where none is written. -/
def empty : Reader Nat := add ⟨scalarTag none "" true, .scalar ""⟩

/-- What a node says of itself before its content. -/
structure Properties where
  name : Option String
  tag : Option String

/-- Reads a tag if there is one. -/
def tagged : Reader (Option TagSpelling) := do
  match ← next? with
  | some (.tag t) =>
    drop
    return some t
  | _ => return none

/-- Reads the name of a node if there is one. -/
def anchored : Reader (Option String) := do
  match ← next? with
  | some (.anchor name) =>
    drop
    return some name
  | _ => return none

/-- The tag that a spelling denotes in this document. -/
def resolved : Option TagSpelling → Reader (Option String)
  | none => return none
  | some spelling => do
    match spelling.resolve? (← get).handles with
    | some tag => return some tag
    | none => throw .yaml

/-- Reads name and tag of a node, which come in either order. -/
def properties : Reader Properties := do
  match ← anchored with
  | some name => return ⟨some name, ← resolved (← tagged)⟩
  | none =>
    let spelling ← tagged
    let name ← if spelling.isSome then anchored else pure none
    return ⟨name, ← resolved spelling⟩

/-- The place of the node with a name. -/
def referenced (name : String) : Reader Nat := do
  match (← get).names.find? fun (n, _) => n == name with
  | some (_, i) => return i
  | none => throw .yaml

/-- Puts a node at the end of the table under the name that it gives itself. -/
def begin (p : Properties) (node : Node) : Reader Nat := do
  let i ← add node
  if let some name := p.name then modify fun s => { s with names := (name, i) :: s.names }
  return i

/-- Puts a scalar at the end of the table. -/
def beginScalar (p : Properties) (text : String) (plain : Bool) : Reader Nat :=
  begin p ⟨scalarTag p.tag text plain, .scalar text⟩

/-- Puts a sequence at the end of the table before its items are read: they may refer to it. -/
def beginSequence (p : Properties) : Reader Nat := begin p ⟨collectionTag p.tag "seq", .sequence []⟩

/-- Puts a mapping at the end of the table before its entries are read: they may refer to it. -/
def beginMapping (p : Properties) : Reader Nat := begin p ⟨collectionTag p.tag "map", .mapping []⟩

/-- Gives a node in the table its content. -/
def fill (i : Nat) (content : Content) : Reader Nat := do
  modify fun s => { s with nodes := s.nodes.modify i fun node => { node with content := content } }
  return i

/-- Where a node stands. -/
inductive Position where
  /-- Among indented lines. -/
  | block
  /-- As key or value of an indented mapping, where the entries of a sequence need no indentation. -/
  | blockEntry
  /-- Within brackets. -/
  | flow
  deriving DecidableEq

mutual

/-- Reads a node. What follows its name and tag has to be readable before a name that is taken is refused. -/
def read : Nat → Position → Reader Nat
  | 0, _ => throw .yaml
  | fuel + 1, position => do
    match ← next? with
    | some (.reference name) =>
      drop
      referenced name
    | _ =>
      let p ← properties
      let _ ← next?
      let s ← get
      if p.name.any fun name => s.names.any fun (n, _) => n == name then throw .yaml
      readContent fuel position p

/-- Reads the content of a node; a node with properties may be empty. -/
def readContent : Nat → Position → Properties → Reader Nat
  | 0, _, _ => throw .yaml
  | fuel + 1, position, p => do
    match ← next?, position with
    | some (.scalar text plain), _ =>
      drop
      beginScalar p text plain
    | some .flowSequenceStart, _ =>
      drop
      let i ← beginSequence p
      fill i (.sequence (← flowItems fuel))
    | some .flowMappingStart, _ =>
      drop
      let i ← beginMapping p
      fill i (.mapping (← flowEntries fuel))
    | some .entry, .blockEntry =>
      let i ← beginSequence p
      fill i (.sequence (← looseItems fuel))
    | some .sequenceStart, .block | some .sequenceStart, .blockEntry =>
      drop
      let i ← beginSequence p
      fill i (.sequence (← blockItems fuel))
    | some .mappingStart, .block | some .mappingStart, .blockEntry =>
      drop
      let i ← beginMapping p
      fill i (.mapping (← blockEntries fuel))
    | _, _ => if p.name.isSome || p.tag.isSome then beginScalar p "" true else throw .yaml

/-- Reads a node unless one of these tokens follows. -/
def readUnless : Nat → List Token → Position → Reader Nat
  | 0, _, _ => throw .yaml
  | fuel + 1, ends, position => do
    if ← nextIn ends then empty else read fuel position

/-- Reads the entries of a sequence that is indented. -/
def blockItems : Nat → Reader (List Nat)
  | 0 => throw .yaml
  | fuel + 1 => do
    if ← accept .entry then
      let item ← readUnless fuel [.entry, .blockEnd] .block
      return item :: (← blockItems fuel)
    else
      expect .blockEnd
      return []

/-- Reads the entries of a sequence that is not indented further than its mapping. -/
def looseItems : Nat → Reader (List Nat)
  | 0 => throw .yaml
  | fuel + 1 => do
    if ← accept .entry then
      let item ← readUnless fuel [.entry, .key, .value, .blockEnd] .block
      return item :: (← looseItems fuel)
    else return []

/-- Reads the entries of an indented mapping. -/
def blockEntries : Nat → Reader (List (Nat × Nat))
  | 0 => throw .yaml
  | fuel + 1 => do
    if ← accept .key then
      let key ← readUnless fuel [.key, .value, .blockEnd] .blockEntry
      let value ← if ← accept .value then readUnless fuel [.key, .value, .blockEnd] .blockEntry else empty
      return (key, value) :: (← blockEntries fuel)
    else
      expect .blockEnd
      return []

/-- Reads the value of an entry within brackets that close with a token. -/
def flowValue : Nat → Token → Reader Nat
  | 0, _ => throw .yaml
  | fuel + 1, close => do
    if ← accept .value then readUnless fuel [.comma, close] .flow else empty

/-- Reads an entry of a sequence in brackets; a key makes it a mapping of its own. -/
def flowItem : Nat → Reader Nat
  | 0 => throw .yaml
  | fuel + 1 => do
    if ← accept .key then
      let i ← beginMapping ⟨none, none⟩
      let key ← readUnless fuel [.value, .comma, .flowSequenceEnd] .flow
      fill i (.mapping [(key, ← flowValue fuel .flowSequenceEnd)])
    else read fuel .flow

/-- Reads the entries of a sequence in brackets. -/
def flowItems : Nat → Reader (List Nat)
  | 0 => throw .yaml
  | fuel + 1 => do
    if ← accept .flowSequenceEnd then return []
    let item ← flowItem fuel
    if ← accept .comma then return item :: (← flowItems fuel)
    expect .flowSequenceEnd
    return [item]

/-- Reads the entries of a mapping in brackets; an entry without key mark is a key without value. -/
def flowEntries : Nat → Reader (List (Nat × Nat))
  | 0 => throw .yaml
  | fuel + 1 => do
    if ← accept .flowMappingEnd then return []
    let entry ← if ← accept .key then
        let key ← readUnless fuel [.value, .comma, .flowMappingEnd] .flow
        pure (key, ← flowValue fuel .flowMappingEnd)
      else pure (← read fuel .flow, ← empty)
    if ← accept .comma then return entry :: (← flowEntries fuel)
    expect .flowMappingEnd
    return [entry]

end

/-- Passes over tokens as long as they are this one. -/
def dropAll (t : Token) : Reader Unit := modify fun s => { s with tokens := s.tokens.dropWhile (· == t) }

/-- Reads the directives before a document. -/
def directives : Nat → Directives → Reader Directives
  | 0, _ => throw .yaml
  | fuel + 1, d => do
    match ← next? with
    | some (.directive line) =>
      drop
      match d.add? line with
      | some d => directives fuel d
      | none => throw .yaml
    | _ => return d

/-- Reads the directives before a document and the mark of its beginning. -/
def header (fuel : Nat) : Reader Unit := do
  let d ← directives fuel .none
  expect .documentStart
  modify fun s => { s with handles := d.allHandles }

/-- Whether the next token begins a document or what belongs to it. -/
def nextIsHeader : Reader Bool := do
  match ← next? with
  | some (.directive _) | some .documentStart => return true
  | _ => return false

/-- Reads the only document of a text; nothing when the text has none. -/
def document (fuel : Nat) : Reader (Option Nat) := do
  if (← next?).isNone then return none
  let marked ← nextIsHeader
  if marked then header fuel
  let isEmpty ← if !marked then pure false
    else if (← next?).isNone || (← nextIn [.documentEnd]) then pure true
    else nextIsHeader
  let root ← if isEmpty then empty else read fuel .block
  dropAll .documentEnd
  if (← next?).isNone then return some root
  header fuel
  throw .yaml

end Node

/-- The nodes of the only document among tokens. -/
def NodeGraph.ofTokens? (ts : TokenStream) : Except Fault (Option NodeGraph) := do
  let fuel := 4 * ts.tokens.length + 8
  let (root, s) ← (Node.document fuel).run ⟨ts.tokens, ts.fault, #[], [], defaultHandles⟩
  return root.map fun root => ⟨s.nodes, root⟩

end PackageGraph.Yaml
