import PackageGraph.Number.Reader
import PackageGraph.OrderedMap
import PackageGraph.Text.Utf8
import PackageGraph.Yaml.Quoted
/-!
# Tags

A tag says what kind of value a node denotes. It is written in full between angle brackets, or as a handle, which
stands for the beginning of tags, with the rest of the tag after it. Directives before a document say what its
handles stand for.
-/
namespace PackageGraph.Yaml

/-- The beginning of the standard tags. -/
def standardSpace : String := "tag:yaml.org,2002:"

/-- The standard tag with a name. -/
def standardTag (name : String) : String := standardSpace ++ name

/-- A tag as it is written; without a handle it is written in full. -/
structure TagSpelling where
  handle : Option String
  ending : String
  deriving DecidableEq

/-- The tag of a node that is to be read as if it had no tag and no quotes. -/
def unspecifiedTag : String := "!"

/-- What the handles of a document stand for. -/
abbrev TagHandles := OrderedMap String String

/-- The handles that need no directive. -/
def defaultHandles : TagHandles := [("!", "!"), ("!!", standardSpace)]

/-- The tag that a spelling denotes, if its handle stands for something. -/
def TagSpelling.resolve? (handles : TagHandles) (t : TagSpelling) : Option String :=
  match t.handle with
  | none => some t.ending
  | some handle => (OrderedMap.get? handles handle).map (· ++ t.ending)

/-! ## Reading tags -/

/-- The characters of names. -/
def isNameChar (c : Char) : Bool := c.isAlphanum || c = '-' || c = '_'

/-- The characters of tags but the percent sign, which begins an octet by number. -/
def isTagChar (c : Char) : Bool := c.isAlphanum || "-;/?:@&=+$,_.!~*'()[]".toList.contains c

/-- Whether a tag or a directive may end before what follows, which is no tabulator. -/
def endsTag (next : Option Char) : Bool := next.all fun c => c == ' ' || isBreak c

/-- The octets that are written by number from here on. -/
def numberedOctets : Nat → Cursor → Except Fault (List UInt8 × Cursor)
  | 0, _ => refuse
  | fuel + 1, c =>
    if c.peek 0 == some '%' then
      match (c.peek 1).bind Json.hexDigit?, (c.peek 2).bind Json.hexDigit? with
      | some high, some low => do
        let (more, c) ← numberedOctets fuel (Cursor.advance 3 c)
        return ((16 * high + low).toUInt8 :: more, c)
      | _, _ => refuse
    else return ([], c)

/-- Reads the characters of a tag up to one that belongs to none. -/
def tagChars : Nat → Cursor → Except Fault (List Char × Cursor)
  | 0, _ => refuse
  | fuel + 1, c => do
    let plain := c.run isTagChar
    let after := Cursor.advance plain.length c
    if after.peek 0 == some '%' then
      let (bytes, after) ← numberedOctets fuel after
      match Utf8.decodeChars? bytes with
      | none => refuse
      | some chars =>
        let (more, after) ← tagChars fuel after
        return (plain ++ chars ++ more, after)
    else return (plain, after)

/-- Reads the characters of a tag, of which there has to be one. -/
def tagText (c : Cursor) : Except Fault (String × Cursor) := do
  let (text, after) ← tagChars (c.rest.length + 1) c
  if text.isEmpty then refuse else return (.ofList text, after)

/-- Reads a handle: an exclamation mark, or a name between two of them. -/
def tagHandle (c : Cursor) : Except Fault (String × Cursor) :=
  if c.peek 0 != some '!' then refuse
  else
    let name := c.step.run isNameChar
    let after := Cursor.advance name.length c.step
    if c.peek 1 == some ' ' then .ok ("!", c.step)
    else if after.peek 0 == some '!' then .ok (.ofList ('!' :: name ++ ['!']), after.step)
    else refuse

/-- Reads a tag from its exclamation mark on. -/
def tagSpelling (c : Cursor) : Except Fault (TagSpelling × Cursor) := do
  let (spelling, after) ←
    if c.peek 1 == some '<' then do
      let (text, after) ← tagText c.step.step
      if after.peek 0 == some '>' then pure (TagSpelling.mk none text, after.step) else refuse
    else if endsWord (c.peek 1) then pure (TagSpelling.mk none unspecifiedTag, c.step)
    else do
      let word := c.step.run fun x => !(x == ' ' || isBreak x)
      let (handle, after) ← if word.contains '!' then tagHandle c else pure ("!", c.step)
      let (text, after) ← tagText after
      pure (TagSpelling.mk (some handle) text, after)
  if endsTag (after.peek 0) then return (spelling, after) else refuse

/-! ## Directives -/

/-- What a line before a document says about it. -/
inductive Directive where
  /-- The version of the format, of which the first number matters. -/
  | version (major : Nat)
  /-- What a handle stands for. -/
  | handle (name : String) (start : String)
  /-- Something else, which is passed over. -/
  | other
  deriving DecidableEq

/-- Reads a number of a version. -/
def versionNumber (c : Cursor) : Except Fault (Nat × Cursor) :=
  let digits := c.run Char.isDigit
  if digits.isEmpty then refuse
  else
    match Number.nat? digits with
    | .ok n => .ok (n, Cursor.advance digits.length c)
    | .error _ => .error .unreadable

/-- Reads a version, which ends its word. -/
def versionDirective (c : Cursor) : Except Fault (Directive × Cursor) := do
  let (major, c) ← versionNumber c.skipBlanks
  if c.peek 0 != some '.' then refuse
  let (_, c) ← versionNumber c.step
  if endsTag (c.peek 0) then return (.version major, c) else refuse

/-- Reads a handle and the beginning of tags that it stands for, with blanks between them. -/
def handleDirective (c : Cursor) : Except Fault (Directive × Cursor) := do
  let (name, c) ← tagHandle c.skipBlanks
  if c.peek 0 != some ' ' then refuse
  let (start, c) ← tagText c.skipBlanks
  if endsTag (c.peek 0) then return (.handle name start, c) else refuse

/-- Reads a directive from its percent sign on, up to the end of what it says. -/
def directive (c : Cursor) : Except Fault (Directive × Cursor) := do
  let name := c.step.run isNameChar
  let after := Cursor.advance name.length c.step
  if name.isEmpty || !endsTag (after.peek 0) then refuse
  if name = "YAML".toList then versionDirective after
  else if name = "TAG".toList then handleDirective after
  else return (.other, after.skip (!isBreak ·))

/-- What directives say: whether the version has been given, and what handles stand for. -/
structure Directives where
  hasVersion : Bool
  handles : TagHandles

namespace Directives

/-- Nothing has been said. -/
def none : Directives := ⟨false, []⟩

/-- Takes a directive in. The version is given once and has to be the first, and a handle stands for one thing. -/
def add? (d : Directives) : Directive → Option Directives
  | .version major => if d.hasVersion || major != 1 then Option.none else some { d with hasVersion := true }
  | .handle name start =>
    if (OrderedMap.get? d.handles name).isSome then Option.none
    else some { d with handles := OrderedMap.put d.handles name start }
  | .other => some d

/-- What all handles of the document stand for. -/
def allHandles (d : Directives) : TagHandles :=
  defaultHandles.foldl (fun handles (name, start) => OrderedMap.putNew handles name start) d.handles

end Directives
end PackageGraph.Yaml
