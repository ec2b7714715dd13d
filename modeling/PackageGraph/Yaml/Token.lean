import PackageGraph.Yaml.Block
import PackageGraph.Yaml.Plain
import PackageGraph.Yaml.Tag
/-!
# Tokens of a YAML text

A text is divided into tokens before its nodes are read. Indentation becomes tokens of its own, and a key is only
known as one when the colon after it is met: its token is then put where the key began. Such a key has to stand
on the line of its colon and may not be too long.
-/
namespace PackageGraph.Yaml

/-- A token. -/
inductive Token where
  /-- A sequence by indentation begins. -/
  | sequenceStart
  /-- A mapping by indentation begins. -/
  | mappingStart
  /-- A collection by indentation ends. -/
  | blockEnd
  | flowSequenceStart
  | flowSequenceEnd
  | flowMappingStart
  | flowMappingEnd
  | comma
  | entry
  | key
  | value
  /-- A node that was named before. -/
  | reference (name : String)
  /-- The name of the node that follows. -/
  | anchor (name : String)
  | tag (spelling : TagSpelling)
  | scalar (text : String) (plain : Bool)
  | documentStart
  | documentEnd
  | directive (d : Directive)
  deriving DecidableEq

/-- A place at which a key may have begun. -/
structure PossibleKey where
  /-- How many tokens come before it. -/
  tokensBefore : Nat
  /-- Whether nothing but a key may begin there. -/
  required : Bool
  index : Nat
  line : Nat
  column : Nat

/-- The state of dividing a text into tokens. -/
structure Scanner where
  cursor : Cursor
  /-- The tokens so far, the last one first. -/
  tokens : List Token
  /-- The column of the innermost collection by indentation; one less than zero outside of any. -/
  indent : Int
  /-- The columns of the collections around it, the innermost first. -/
  outerIndents : List Int
  /-- Whether a key may begin here. -/
  allowsKey : Bool
  /-- The key that may have begun within the innermost brackets. -/
  key : Option PossibleKey
  /-- The keys that may have begun within the brackets around them. -/
  outerKeys : List (Option PossibleKey)

namespace Scanner

/-- The state at the beginning of a text. -/
def start (text : List Char) : Scanner :=
  let c := Cursor.start text
  ⟨if c.peek 0 == some '\uFEFF' then c.step else c, [], -1, [], true, none, []⟩

/-- Whether brackets are open. -/
def inFlow (s : Scanner) : Bool := !s.outerKeys.isEmpty

/-- The state with one more token. -/
def push (s : Scanner) (t : Token) : Scanner := { s with tokens := t :: s.tokens }

/-- The state with one more token, which is so many characters long. -/
def take (s : Scanner) (count : Nat) (t : Token) : Scanner :=
  { s.push t with cursor := Cursor.advance count s.cursor }

/-- The state with tokens put after the first ones. -/
def insertAfter (s : Scanner) (count : Nat) (ts : List Token) : Scanner :=
  let later := s.tokens.length - count
  { s with tokens := s.tokens.take later ++ ts.reverse ++ s.tokens.drop later }

/-! ## Indentation -/

/-- Ends the collections that are indented further than a column. -/
def unwindFrom (column : Int) : Int → List Int → List Token → Int × List Int × List Token
  | indent, [], tokens => (indent, [], tokens)
  | indent, outer :: rest, tokens =>
    if column < indent then unwindFrom column outer rest (.blockEnd :: tokens) else (indent, outer :: rest, tokens)

/-- Ends the collections that are indented further than a column; within brackets indentation does not count. -/
def unwind (s : Scanner) (column : Int) : Scanner :=
  if s.inFlow then s
  else
    let (indent, outer, tokens) := unwindFrom column s.indent s.outerIndents s.tokens
    { s with indent := indent, outerIndents := outer, tokens := tokens }

/-- The state in which a collection begins at a column, unless one is already open there. -/
def indented? (s : Scanner) (column : Nat) : Option Scanner :=
  if s.indent < column then some { s with indent := column, outerIndents := s.indent :: s.outerIndents } else none

/-- Begins a collection at the present column, unless one is already open there. -/
def beginBlock (s : Scanner) (t : Token) : Scanner :=
  match s.indented? s.cursor.column with
  | some s => s.push t
  | none => s

/-! ## Keys -/

/-- Gives up a key that may have begun, unless it has to be one. -/
def giveUp : Option PossibleKey → Except Fault (Option PossibleKey)
  | some k => if k.required then refuse else .ok none
  | none => .ok none

/-- The state without the key that may have begun within the innermost brackets. -/
def dropKey (s : Scanner) : Except Fault Scanner := (giveUp s.key).map fun key => { s with key := key }

/-- The greatest length of a key. -/
def keyLimit : Nat := 1024

/-- Gives up a key that is not on this line or is too long. -/
def refresh (c : Cursor) (k : Option PossibleKey) : Except Fault (Option PossibleKey) :=
  if k.any fun k => k.line ≠ c.line || keyLimit < c.index - k.index then giveUp k else .ok k

/-- The state without the keys that can be none any more. -/
def dropStaleKeys (s : Scanner) : Except Fault Scanner := do
  return { s with key := ← refresh s.cursor s.key, outerKeys := ← s.outerKeys.mapM (refresh s.cursor) }

/-- Notes that a key may begin here. -/
def noteKey (s : Scanner) : Except Fault Scanner :=
  if s.allowsKey then do
    let s ← s.dropKey
    let c := s.cursor
    let required := !s.inFlow && s.indent == c.column
    return { s with key := some ⟨s.tokens.length, required, c.index, c.line, c.column⟩ }
  else .ok s

/-- The state after a token at which a key may have begun and after which none may begin. -/
def takeNode (s : Scanner) (t : Token) (after : Cursor) : Scanner :=
  { s.push t with cursor := after, allowsKey := false }

/-! ## The tokens -/

/-- A line that stands between documents. -/
def boundary (s : Scanner) (t : Token) : Except Fault Scanner := do
  let s ← (s.unwind (-1)).dropKey
  return { s.take 3 t with allowsKey := false }

/-- Brackets open. -/
def openFlow (s : Scanner) (t : Token) : Except Fault Scanner := do
  let s ← s.noteKey
  return { s.take 1 t with allowsKey := true, key := none, outerKeys := s.key :: s.outerKeys }

/-- Brackets close. -/
def closeFlow (s : Scanner) (t : Token) : Except Fault Scanner := do
  let s ← s.dropKey
  match s.outerKeys with
  | [] => refuse
  | key :: outer => return { s.take 1 t with allowsKey := false, key := key, outerKeys := outer }

/-- A comma, which only brackets may hold. -/
def comma (s : Scanner) : Except Fault Scanner := do
  let s ← s.dropKey
  if s.inFlow then return { s.take 1 .comma with allowsKey := true } else refuse

/-- An entry of a sequence by indentation. -/
def entry (s : Scanner) : Except Fault Scanner := do
  if s.inFlow || !s.allowsKey then refuse
  let s ← (s.beginBlock .sequenceStart).dropKey
  return { s.take 1 .entry with allowsKey := true }

/-- A key that is marked as one. -/
def markedKey (s : Scanner) : Except Fault Scanner := do
  if !s.inFlow && !s.allowsKey then refuse
  let s ← (if s.inFlow then s else s.beginBlock .mappingStart).dropKey
  return { s.take 1 .key with allowsKey := !s.inFlow }

/-- A colon: the key that may have begun is one, or else the key is empty. -/
def colon (s : Scanner) : Except Fault Scanner :=
  match s.key with
  | some k =>
    let s := { s with key := none }
    let s := match if s.inFlow then none else s.indented? k.column with
      | some s => s.insertAfter k.tokensBefore [.mappingStart, .key]
      | none => s.insertAfter k.tokensBefore [.key]
    .ok { s.take 1 .value with allowsKey := false }
  | none => do
    if !s.inFlow && !s.allowsKey then refuse
    let s := if s.inFlow then s else s.beginBlock .mappingStart
    return { s.take 1 .value with allowsKey := !s.inFlow }

/-- Whether a name may end before what follows. -/
def endsName (next : Option Char) : Bool :=
  next.all fun c => isGap c || ['?', ':', ',', ']', '\x7d', '%', '@', '\x60'].contains c

/-- A name of a node, after its indicator. -/
def named (s : Scanner) (token : String → Token) : Except Fault Scanner := do
  let s ← s.noteKey
  let name := s.cursor.step.run isNameChar
  let after := Cursor.advance name.length s.cursor.step
  if name.isEmpty || !endsName (after.peek 0) then refuse
  return s.takeNode (token (.ofList name)) after

/-- A tag. -/
def tag (s : Scanner) : Except Fault Scanner := do
  let s ← s.noteKey
  let (spelling, after) ← tagSpelling s.cursor
  return s.takeNode (.tag spelling) after

/-- Quoted text. -/
def quoted (s : Scanner) : Except Fault Scanner := do
  let s ← s.noteKey
  let (text, after) ← quotedText s.cursor
  return s.takeNode (.scalar text false) after

/-- Text without quotes; a key may follow when a line ended after it. -/
def plain (s : Scanner) : Except Fault Scanner := do
  let s ← s.noteKey
  let (text, after) := plainText s.inFlow s.indent s.cursor
  return { s.takeNode (.scalar text.text true) after with allowsKey := text.broken }

/-- Text that is set off by its indentation. -/
def block (s : Scanner) (folded : Bool) : Except Fault Scanner := do
  let s ← s.dropKey
  let (text, after) ← blockText folded s.indent s.cursor
  return { s.push (.scalar text false) with cursor := after, allowsKey := true }

/-- A directive before a document, with the rest of its line. -/
def directive (s : Scanner) : Except Fault Scanner := do
  let s ← (s.unwind (-1)).dropKey
  let (d, after) ← Yaml.directive s.cursor
  return { s.push (.directive d) with cursor := ← restOfLine after, allowsKey := false }

/-- Whether text without quotes may begin with a character, seen with the one after it. -/
def beginsPlain (inFlow : Bool) (c : Char) (next : Option Char) : Bool :=
  !(isGap c || "-?:,[]\x7b\x7d#&*!|>'\"%@\x60".toList.contains c) ||
    (!endsWord next && (c = '-' || (!inFlow && (c = '?' || c = ':'))))

/-- Reads the token that begins with a character. -/
def token (s : Scanner) (c : Char) : Except Fault Scanner :=
  let next := s.cursor.peek 1
  let atLineStart := s.cursor.column == 0
  if c = '%' && atLineStart then s.directive
  else if atLineStart && s.cursor.marks '-' then s.boundary .documentStart
  else if atLineStart && s.cursor.marks '.' then s.boundary .documentEnd
  else if c = '[' then s.openFlow .flowSequenceStart
  else if c = '\x7b' then s.openFlow .flowMappingStart
  else if c = ']' then s.closeFlow .flowSequenceEnd
  else if c = '\x7d' then s.closeFlow .flowMappingEnd
  else if c = ',' then s.comma
  else if c = '-' && endsWord next then s.entry
  else if c = '?' && (s.inFlow || endsWord next) then s.markedKey
  else if c = ':' && (s.inFlow || endsWord next) then s.colon
  else if c = '*' then s.named .reference
  else if c = '&' then s.named .anchor
  else if c = '!' then s.tag
  else if c = '|' && !s.inFlow then s.block false
  else if c = '>' && !s.inFlow then s.block true
  else if c = '\'' || c = '"' then s.quoted
  else if beginsPlain s.inFlow c next then s.plain
  else refuse

/-- Passes over blanks, comments and line ends. Outside of brackets a key may begin after a line end. -/
def skipIgnored : Nat → Scanner → Scanner
  | 0, s => s
  | fuel + 1, s =>
    let c := s.cursor.skipBlanks
    let c := if c.peek 0 == some '#' then c.skip (!isBreak ·) else c
    match c.lineBreak? with
    | some (_, c) => skipIgnored fuel { s with cursor := c, allowsKey := s.allowsKey || !s.inFlow }
    | none => { s with cursor := c }

/-- The state after the next token; nothing at the end of the text. -/
def next? (s : Scanner) : Except Fault (Option Scanner) := do
  let s ← (skipIgnored (s.cursor.rest.length + 1) s).dropStaleKeys
  let s := s.unwind s.cursor.column
  match s.cursor.rest with
  | c :: _ => some <$> s.token c
  | [] => return none

/-- The collections that are open at the end of the text end there. -/
def finish (s : Scanner) : Except Fault Scanner := do
  let s ← (skipIgnored (s.cursor.rest.length + 1) s).dropStaleKeys
  (s.unwind (-1)).dropKey

/-- How many tokens come before the first key that may have begun. -/
def firstPossible? (s : Scanner) : Option Nat :=
  ((s.key :: s.outerKeys).filterMap fun k => k.map PossibleKey.tokensBefore).min?

/-- The tokens that are certain: a token that may be a key is not, before what follows it has been read. -/
def certain (s : Scanner) : List Token :=
  match s.firstPossible? with
  | some n => s.tokens.reverse.take n
  | none => s.tokens.reverse

end Scanner

/-- The tokens of a text up to its end, or up to where it departs from the grammar. -/
structure TokenStream where
  tokens : List Token
  fault : Option Fault

namespace Scanner

/-- The tokens up to a fault. -/
def broken (s : Scanner) (f : Fault) : TokenStream := ⟨s.certain, some f⟩

/-- Reads tokens up to the end of the text or a fault. -/
def streamFrom : Nat → Scanner → TokenStream
  | 0, s => s.broken .yaml
  | fuel + 1, s =>
    match s.dropStaleKeys with
    | .error f => s.broken f
    | .ok s =>
      match s.next? with
      | .error f => s.broken f
      | .ok (some next) => streamFrom fuel next
      | .ok none =>
        match s.finish with
        | .error f => s.broken f
        | .ok s => ⟨s.tokens.reverse, none⟩

end Scanner

/-- The tokens of a text. -/
def tokens (text : List Char) : TokenStream := Scanner.streamFrom (text.length + 1) (.start text)

end PackageGraph.Yaml
