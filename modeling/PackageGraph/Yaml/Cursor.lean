import PackageGraph.Fault
/-!
# Places in a YAML text

A cursor is the text that is still to be read together with where it begins: indentation is a matter of columns,
and a key has to stand on the line of its value. Four characters end a line.
-/
namespace PackageGraph.Yaml

/-- Whether a character ends a line. -/
def isBreak (c : Char) : Bool := c = '\n' || c = '\x85' || c = '\u2028' || c = '\u2029'

/-- Whether a character separates words. -/
def isGap (c : Char) : Bool := c = ' ' || c = '\t' || isBreak c

/-- Whether a word ends before what follows, be it a gap or the end of the text. -/
def endsWord (next : Option Char) : Bool := next.all isGap

/-- Whether a character may occur in a text at all. -/
def isAllowed (c : Char) : Bool :=
  let n := c.toNat
  n = 0x9 || n = 0xA || n = 0xD || (0x20 ≤ n && n ≤ 0x7E) || n = 0x85 || (0xA0 ≤ n && n ≤ 0xFFFD) ||
    0x10000 ≤ n

/-- A place in a text. -/
structure Cursor where
  /-- The text from here on. -/
  rest : List Char
  index : Nat
  line : Nat
  column : Nat

namespace Cursor

/-- The beginning of a text. -/
def start (text : List Char) : Cursor := ⟨text, 0, 0, 0⟩

/-- The character some way ahead. -/
def peek (c : Cursor) (ahead : Nat) : Option Char := c.rest[ahead]?

/-- The place after the next character. A byte order mark takes no column. -/
def step (c : Cursor) : Cursor :=
  match c.rest with
  | [] => c
  | x :: rest =>
    if isBreak x then ⟨rest, c.index + 1, c.line + 1, 0⟩
    else ⟨rest, c.index + 1, c.line, if x = '\uFEFF' then c.column else c.column + 1⟩

/-- The place after so many characters. -/
def advance : Nat → Cursor → Cursor
  | 0, c => c
  | n + 1, c => advance n c.step

/-- The characters from here on that satisfy a test. -/
def run (c : Cursor) (p : Char → Bool) : List Char := c.rest.takeWhile p

/-- The place after the characters that satisfy a test. -/
def skip (c : Cursor) (p : Char → Bool) : Cursor := advance (c.run p).length c

/-- The place after the blanks. -/
def skipBlanks (c : Cursor) : Cursor := c.skip (· == ' ')

/-- Whether the text from here on begins so. -/
def startsWith (c : Cursor) (start : List Char) : Bool := start.isPrefixOf c.rest

/-- Whether a line of three equal characters begins here. -/
def marks (c : Cursor) (x : Char) : Bool := c.startsWith [x, x, x] && endsWord (c.peek 3)

/-- Whether a document begins or ends at this place, if it is the beginning of a line. -/
def isBoundary (c : Cursor) : Bool := c.marks '-' || c.marks '.'

/-- The end of a line here, as it counts in a text, and the place after it. -/
def lineBreak? (c : Cursor) : Option (Char × Cursor) :=
  match c.rest with
  | x :: _ => if isBreak x then some (if x = '\x85' then '\n' else x, c.step) else none
  | [] => none

end Cursor

/-- What a line end and those after it count as in text that folds: a single one counts as a blank, of several the
first does not count. -/
def foldedText (first : Char) (more : List Char) : List Char :=
  if first ≠ '\n' then first :: more else if more.isEmpty then [' '] else more

/-- What is read from a text, and the place after it. -/
abbrev Reading (α : Type) := Except Fault (α × Cursor)

/-- A text that does not follow the grammar. -/
def refuse {α : Type} : Except Fault α := .error .yaml

end PackageGraph.Yaml
