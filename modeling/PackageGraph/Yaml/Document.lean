import PackageGraph.Yaml.Node
/-!
# Documents

The values that the nodes of a text denote. Nodes may hold each other in circles, so the values of a document stand
in a table as the nodes do, each at the place of its node: a collection is made before what it holds, and what it
holds is filled in later, the collections that were met first being filled first. A text is read by dividing it into
tokens, which describe the nodes.
-/
namespace PackageGraph.Yaml

/-- The standard tags of collections. -/
inductive CollectionKind where
  | sequence
  | mapping
  /-- Pairs of a key and a value in order. -/
  | pairs
  | set
  deriving DecidableEq, Repr

/-- The names of the standard tags of collections. -/
def collectionNames : List (String × CollectionKind) :=
  [("seq", .sequence), ("map", .mapping), ("omap", .pairs), ("pairs", .pairs), ("set", .set)]

/-- The kind of collection that a tag asks for. -/
def CollectionKind.ofTag? (tag : String) : Option CollectionKind :=
  (collectionNames.find? fun (name, _) => standardTag name == tag).map (·.2)

/-! ## Keys -/

/-- A scalar as a key of a mapping. What is no number equals itself alone, so a key keeps the place of its node; the
word for what is no number has none, because it is the same everywhere. -/
structure Key where
  value : Value
  source : Option Nat
  deriving Inhabited

namespace Key

/-- The form in which keys are compared: truth values count as numbers, and so do whole numbers with a point. -/
def form : Value → Value
  | .bool b => .int (if b then 1 else 0)
  | .float x => if x.isWhole then .int (x.truncate?.getD 0) else .float x
  | v => v

/-- Whether two keys are the same. -/
def same (a b : Key) : Bool :=
  match form a.value, form b.value with
  | .null, .null => true
  | .int m, .int n => m == n
  | .float x, .float y => x == y && (x != .nan || a.source == b.source)
  | .text s, .text t => s == t
  | .octets s, .octets t => s == t
  | .day d, .day e => d == e
  | .time t, .time u => t.isSameInstant u
  | _, _ => false

end Key

/-- Writes an entry: in place when the key is there, at the end when it is new. -/
def putEntry : List (Key × Nat) → Key → Nat → List (Key × Nat)
  | [], key, value => [(key, value)]
  | (k, v) :: rest, key, value => if k.same key then (k, value) :: rest else (k, v) :: putEntry rest key value

/-! ## The table of values -/

/-- A value in the table. -/
inductive Item where
  | scalar (key : Key)
  | list (items : List Nat)
  | pairs (items : List (Nat × Nat))
  | set (keys : List Key)
  | mapping (entries : List (Key × Nat))
  deriving Inhabited

/-- The state of making values: the nodes, the values made so far, and the collections that are still to be filled,
the last one first. -/
structure Builder where
  nodes : Array Node
  items : Array (Option Item)
  waiting : List (CollectionKind × Nat)

namespace Builder

/-- What is made of nodes, and the state after it. -/
abbrev Making (α : Type) := StateT Builder (Except Fault) α

/-- The node at a place of the table. -/
def node (i : Nat) : Making Node := return (← get).nodes.getD i default

/-- Puts a value into the table. -/
def setItem (i : Nat) (item : Item) : Making Unit :=
  modify fun s => { s with items := s.items.setIfInBounds i (some item) }

/-- Gives a mapping other entries. -/
def setEntries (i : Nat) (entries : List (Nat × Nat)) : Making Unit :=
  modify fun s => { s with nodes := s.nodes.modify i fun node => { node with content := .mapping entries } }

/-- The items of a sequence. -/
def itemsOf (i : Nat) : Making (List Nat) := do
  match (← node i).content with
  | .sequence items => return items
  | _ => throw .yaml

/-- The entries of a mapping. -/
def entriesOf (i : Nat) : Making (List (Nat × Nat)) := do
  match (← node i).content with
  | .mapping entries => return entries
  | _ => throw .yaml

/-! ## Scalars -/

/-- The text of a scalar. A mapping stands for the value under its default key. -/
def scalarText (nodes : Array Node) : Nat → Nat → Except Fault String
  | 0, _ => .error .endless
  | fuel + 1, i =>
    match (nodes.getD i default).content with
    | .scalar text => .ok text
    | .sequence _ => refuse
    | .mapping entries =>
      match entries.find? fun (key, _) => (nodes.getD key default).tag == standardTag "value" with
      | some (_, value) => scalarText nodes fuel value
      | none => refuse

/-- Makes the value of a scalar. A date has to be written as a scalar itself. -/
def makeScalar (i : Nat) (kind : ScalarKind) : Making Item := do
  let s ← get
  let text ← scalarText s.nodes (s.nodes.size + 1) i
  match (← node i).content, kind with
  | .mapping _, .time => throw .wrongKind
  | _, _ => return .scalar ⟨← kind.value text, if isNoNumber text then none else some i⟩

/-- Makes the value of a node unless it has been made; a collection is filled later. -/
def make (i : Nat) : Making Unit := do
  if ((← get).items.getD i none).isSome then return
  let tag := (← node i).tag
  match ScalarKind.ofTag? tag, CollectionKind.ofTag? tag with
  | some kind, _ => setItem i (← makeScalar i kind)
  | none, some kind =>
    setItem i (.list [])
    modify fun s => { s with waiting := (kind, i) :: s.waiting }
  | none, none => throw .yaml

/-! ## Mappings -/

/-- Whether a node has a standard tag. -/
def hasTag (name : String) (i : Nat) : Making Bool := return (← node i).tag == standardTag name

/-- Divides entries at the first one whose key asks for the entries of another mapping. -/
def splitAtMerge : List (Nat × Nat) → Making (Option (List (Nat × Nat) × Nat × List (Nat × Nat)))
  | [] => return none
  | (key, value) :: rest => do
    if ← hasTag "merge" key then return some ([], value, rest)
    return (← splitAtMerge rest).map fun (before, found, after) => ((key, value) :: before, found, after)

/-- A key that stands for the default value is a text where it stands in a mapping. -/
def settleKey (i : Nat) : Making Unit := do
  if ← hasTag "value" i then
    modify fun s => { s with nodes := s.nodes.modify i fun node => { node with tag := standardTag "str" } }

mutual

/-- Puts the entries that a mapping asks for before its own, after those taken from others so far. -/
def mergeInto : Nat → Nat → List (Nat × Nat) → Making Unit
  | 0, _, _ => throw .yaml
  | fuel + 1, i, taken => do
    match ← splitAtMerge (← entriesOf i) with
    | some (before, other, after) =>
      setEntries i (before ++ after)
      let more ← takenFrom fuel other
      mergeInto fuel i (taken ++ more)
    | none =>
      let own ← entriesOf i
      own.forM fun (key, _) => settleKey key
      setEntries i (taken ++ own)

/-- The entries that a mapping provides, or several of them, of which the first counts most. -/
def takenFrom : Nat → Nat → Making (List (Nat × Nat))
  | 0, _ => throw .yaml
  | fuel + 1, i => do
    match (← node i).content with
    | .mapping _ =>
      mergeInto fuel i []
      entriesOf i
    | .sequence items => takenFromAll fuel items
    | .scalar _ => throw .yaml

/-- The entries that several mappings provide, those of the last one first. -/
def takenFromAll : Nat → List Nat → Making (List (Nat × Nat))
  | 0, _ => throw .yaml
  | _ + 1, [] => return []
  | fuel + 1, i :: rest => do
    let _ ← entriesOf i
    mergeInto fuel i []
    let entries ← entriesOf i
    return (← takenFromAll fuel rest) ++ entries

end

/-- The number of steps that suffice for merging: every request is met once, and between two of them no more nodes
are passed over than there are. -/
def mergeFuel (nodes : Array Node) : Nat :=
  let size := nodes.foldl (fun n node => n + match node.content with
    | .scalar _ => 1
    | .sequence items => 1 + items.length
    | .mapping entries => 1 + entries.length) 4
  size * size

/-- The key that a node denotes; collections are no keys. -/
def key (i : Nat) : Making Key := do
  match (← get).items.getD i none with
  | some (.scalar key) => return key
  | _ => throw .yaml

/-- Makes the entries of a mapping in order; a key that comes again takes its last value. -/
def makeEntries : List (Nat × Nat) → List (Key × Nat) → Making (List (Key × Nat))
  | [], made => return made
  | (k, v) :: rest, made => do
    make k
    let k ← key k
    make v
    makeEntries rest (putEntry made k v)

/-- Makes the entries of a mapping, with those that it asks for. -/
def makeMapping (i : Nat) : Making (List (Key × Nat)) := do
  let _ ← entriesOf i
  mergeInto (mergeFuel (← get).nodes) i []
  makeEntries (← entriesOf i) []

/-! ## Collections -/

/-- Makes the pair in a mapping of one entry. -/
def makePair (i : Nat) : Making (Nat × Nat) := do
  match ← entriesOf i with
  | [(k, v)] =>
    make k
    make v
    return (k, v)
  | _ => throw .yaml

/-- Fills a collection. -/
def fill (kind : CollectionKind) (i : Nat) : Making Unit := do
  match kind with
  | .sequence =>
    let items ← itemsOf i
    items.forM make
    setItem i (.list items)
  | .pairs => setItem i (.pairs (← (← itemsOf i).mapM makePair))
  | .set => setItem i (.set ((← makeMapping i).map (·.1)))
  | .mapping => setItem i (.mapping (← makeMapping i))

/-- Fills the collections that wait, and those that come to wait meanwhile. -/
def fillAll : Nat → Making Unit
  | 0 => return
  | fuel + 1 => do
    let waiting := (← get).waiting.reverse
    if waiting.isEmpty then return
    modify fun s => { s with waiting := [] }
    waiting.forM fun (kind, i) => fill kind i
    fillAll fuel

end Builder

/-! ## Documents -/

/-- The values of a document, with the place of the outermost one. -/
structure Document where
  items : Array Item
  root : Nat

/-- The document that denotes nothing. -/
def Document.empty : Document := ⟨#[.scalar ⟨.null, none⟩], 0⟩

/-- The values that nodes denote. -/
def Document.ofNodes (g : NodeGraph) : Except Fault Document := do
  let work := do
    Builder.make g.root
    Builder.fillAll (g.nodes.size + 1)
  let (_, s) ← work.run ⟨g.nodes, g.nodes.map fun _ => none, []⟩
  return ⟨s.items.map (·.getD default), g.root⟩

/-- A collection that is being viewed: one in the table, or a pair within one. -/
structure Viewed where
  place : Nat
  pair : Option Nat
  deriving DecidableEq

namespace Document

/-- The value at a place of the table. -/
def item (d : Document) (i : Nat) : Item := d.items.getD i default

mutual

/-- The value at a place with all that it holds, where `within` are the collections around it. -/
def viewWithin (d : Document) : Nat → List Viewed → Nat → Value
  | 0, _, _ => .null
  | fuel + 1, within, i =>
    let inner := ⟨i, none⟩ :: within
    let isOpen := within.contains ⟨i, none⟩
    match d.item i with
    | .scalar key => key.value
    | .list items =>
      if isOpen then .enclosing .list else .list (items.map fun i => viewWithin d fuel inner i)
    | .pairs items =>
      if isOpen then .enclosing .list
      else .list (items.mapIdx fun n pair => viewPair d fuel inner i n pair)
    | .set keys => .set (keys.map (·.value))
    | .mapping entries =>
      if isOpen then .enclosing .mapping
      else .mapping (entries.map fun (key, v) => (key.value, viewWithin d fuel inner v))

/-- A pair with all that it holds. -/
def viewPair (d : Document) : Nat → List Viewed → Nat → Nat → Nat × Nat → Value
  | 0, _, _, _, _ => .null
  | fuel + 1, within, i, n, (key, v) =>
    if within.contains ⟨i, some n⟩ then .enclosing .tuple
    else
      let inner := ⟨i, some n⟩ :: within
      .tuple [viewWithin d fuel inner key, viewWithin d fuel inner v]

end

/-- The number of collections and pairs: values are not nested deeper. -/
def depth (d : Document) : Nat :=
  d.items.foldl (fun n item => n + match item with
    | .pairs items => 1 + items.length
    | _ => 1) 1

/-- The value at a place with all that it holds. -/
def value (d : Document) (i : Nat) : Value := viewWithin d (d.depth + 1) [] i

/-- Whether the value at a place is absent, false, zero or empty. -/
def isFalsy (d : Document) (i : Nat) : Bool :=
  match d.item i with
  | .scalar key => key.value.isFalsy
  | .list items => items.isEmpty
  | .pairs items => items.isEmpty
  | .set keys => keys.isEmpty
  | .mapping entries => entries.isEmpty

/-- The text at a place; collections and other scalars are none. -/
def text? (d : Document) (i : Nat) : Option String :=
  match d.item i with
  | .scalar ⟨.text s, _⟩ => some s
  | _ => none

/-- The entries of the mapping at a place. -/
def entries? (d : Document) (i : Nat) : Option (List (Value × Nat)) :=
  match d.item i with
  | .mapping entries => some (entries.map fun (key, v) => (key.value, v))
  | _ => none

/-- What going through a value yields, one after the other; most scalars hold nothing to go through. -/
def elements? (d : Document) (i : Nat) : Option (List Value) :=
  match d.item i with
  | .scalar ⟨.text s, _⟩ => some (s.toList.map fun c => .text (.ofList [c]))
  | .scalar ⟨.octets bytes, _⟩ => some (bytes.map fun b => .int b.toNat)
  | .scalar _ => none
  | .list items => some (items.map d.value)
  | .pairs items => some (items.mapIdx fun n pair => d.viewPair (d.depth + 1) [] i n pair)
  | .set keys => some (keys.map (·.value))
  | .mapping entries => some (entries.map (·.1.value))

end Document

/-- Reads the only document of a text; a text without documents denotes nothing. -/
def parse (s : String) : Except Fault Document := do
  let text := s.toList
  if !text.all isAllowed then refuse
  match ← NodeGraph.ofTokens? (tokens text) with
  | some nodes => Document.ofNodes nodes
  | none => return .empty

end PackageGraph.Yaml
