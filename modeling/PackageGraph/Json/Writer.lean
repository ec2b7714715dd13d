import PackageGraph.Json.Basic
import PackageGraph.Text.Quoted
import PackageGraph.Text.Split
/-!
# Writing JSON

The written form is plain ASCII. A document is indented by two blanks for each level; an empty list or object
stays on one line. Numbers that no JSON numeral denotes are written by name.
-/
namespace PackageGraph.Json

/-- `\u` and four hexadecimal digits. -/
def unitEscape (unit : Nat) : List Char := '\\' :: 'u' :: Text.hex 4 unit

/-- A character inside a JSON text; one beyond the first plane is written as two units. -/
def escapedChar (c : Char) : List Char :=
  if c = '"' ∨ c = '\\' then ['\\', c]
  else if c = '\n' then ['\\', 'n']
  else if c = '\r' then ['\\', 'r']
  else if c = '\t' then ['\\', 't']
  else if c.toNat = 8 then ['\\', 'b']
  else if c.toNat = 12 then ['\\', 'f']
  else if 32 ≤ c.toNat ∧ c.toNat < 127 then [c]
  else if c.toNat < 0x10000 then unitEscape c.toNat
  else
    match Text.half? c with
    | some unit => unitEscape unit
    | none =>
      let n := c.toNat - 0x10000
      unitEscape (0xD800 + n / 0x400) ++ unitEscape (0xDC00 + n % 0x400)

/-- The text between double quotes. -/
def quotedText (s : String) : String := .ofList ('"' :: s.toList.flatMap escapedChar ++ ['"'])

/-- A number that is not whole. -/
def floatText : Binary64 → String
  | .nan => "NaN"
  | .infinite negative => if negative then "-Infinity" else "Infinity"
  | x => x.text

/-- A new line at a depth of nesting. -/
def newline (depth : Nat) : String := .ofList ('\n' :: List.replicate (2 * depth) ' ')

mutual

/-- The indented form at a depth of nesting. -/
def renderAt (depth : Nat) : Json → String
  | .null => "null"
  | .bool b => if b then "true" else "false"
  | .int n => intText n
  | .float x => floatText x
  | .text s => quotedText s
  | .list [] => "[]"
  | .list (j :: js) =>
    "[" ++ newline (depth + 1) ++ Text.join ("," ++ newline (depth + 1)) (renderItems (depth + 1) (j :: js)) ++
      newline depth ++ "]"
  | .object [] => "\x7b\x7d"
  | .object (m :: ms) =>
    "\x7b" ++ newline (depth + 1) ++
      Text.join ("," ++ newline (depth + 1)) (renderMembers (depth + 1) (m :: ms)) ++ newline depth ++ "\x7d"

/-- The items of a list. -/
def renderItems (depth : Nat) : List Json → List String
  | [] => []
  | j :: js => renderAt depth j :: renderItems depth js

/-- The members of an object, each with its name. -/
def renderMembers (depth : Nat) : List (String × Json) → List String
  | [] => []
  | (name, j) :: rest => (quotedText name ++ ": " ++ renderAt depth j) :: renderMembers depth rest

end

/-- The indented form of a document. -/
def render (j : Json) : String := renderAt 0 j

mutual

/-- The form on one line without blanks. -/
def compact : Json → String
  | .null => "null"
  | .bool b => if b then "true" else "false"
  | .int n => intText n
  | .float x => floatText x
  | .text s => quotedText s
  | .list items => "[" ++ Text.join "," (compactItems items) ++ "]"
  | .object members => "\x7b" ++ Text.join "," (compactMembers members) ++ "\x7d"

/-- The items of a list. -/
def compactItems : List Json → List String
  | [] => []
  | j :: js => compact j :: compactItems js

/-- The members of an object, each with its name. -/
def compactMembers : List (String × Json) → List String
  | [] => []
  | (name, j) :: rest => (quotedText name ++ ":" ++ compact j) :: compactMembers rest

end

end PackageGraph.Json
