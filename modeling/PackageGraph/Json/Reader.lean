import PackageGraph.Json.Basic
import PackageGraph.Number.Reader
import PackageGraph.Text.Quoted
/-!
# Reading JSON

A reader for one JSON document. Besides the standard's numerals it knows `NaN`, `Infinity` and `-Infinity`;
control characters in texts, comments and commas before a closing bracket are refused.
-/
namespace PackageGraph

/-- Why a text is no JSON document. -/
inductive JsonError where
  /-- The text does not follow the grammar. -/
  | syntaxError
  /-- A whole number has more digits than the limit. -/
  | tooLong
  deriving DecidableEq, Repr

namespace Json

/-- What the reader has got: a value and the rest of the text. -/
abbrev Progress (α : Type) := Except JsonError (α × List Char)

/-- White space between tokens. -/
def isSpace (c : Char) : Bool := c = ' ' || c = '\t' || c = '\n' || c = '\r'

/-- The text from the next token on. -/
def skipSpace (cs : List Char) : List Char := cs.dropWhile isSpace

/-- The text after a word that begins it. -/
def afterWord? : List Char → List Char → Option (List Char)
  | [], cs => some cs
  | w :: ws, c :: cs => if w = c then afterWord? ws cs else none
  | _ :: _, [] => none

/-- The value of a hexadecimal digit. -/
def hexDigit? (c : Char) : Option Nat :=
  if '0' ≤ c ∧ c ≤ '9' then some (c.toNat - 48)
  else if 'a' ≤ c ∧ c ≤ 'f' then some (c.toNat - 87)
  else if 'A' ≤ c ∧ c ≤ 'F' then some (c.toNat - 55)
  else none

/-- Four hexadecimal digits. -/
def codeUnit? : List Char → Option (Nat × List Char)
  | a :: b :: c :: d :: rest => do
    let a ← hexDigit? a
    let b ← hexDigit? b
    let c ← hexDigit? c
    let d ← hexDigit? d
    return (((a * 16 + b) * 16 + c) * 16 + d, rest)
  | _ => none

/-- The character after `\u`: a pair of units makes one character. -/
def unicodeEscape? (cs : List Char) : Option (Char × List Char) := do
  let (high, rest) ← codeUnit? cs
  if 0xD800 ≤ high ∧ high < 0xDC00 then
    match rest with
    | '\\' :: 'u' :: more =>
      let (low, rest') ← codeUnit? more
      if 0xDC00 ≤ low ∧ low < 0xE000 then
        return (Char.ofNat (0x10000 + (high - 0xD800) * 0x400 + (low - 0xDC00)), rest')
      else return (Text.charOfCode high, rest)
    | _ => return (Text.charOfCode high, rest)
  else return (Text.charOfCode high, rest)

/-- The character that a backslash and one letter stand for. -/
def simpleEscape? (c : Char) : Option Char :=
  if c = '"' ∨ c = '\\' ∨ c = '/' then some c
  else if c = 'b' then some (Char.ofNat 8)
  else if c = 'f' then some (Char.ofNat 12)
  else if c = 'n' then some '\n'
  else if c = 'r' then some '\r'
  else if c = 't' then some '\t'
  else none

/-- The rest of a text up to its closing quote, the characters read so far in reverse. -/
def textBody : Nat → List Char → List Char → Progress String
  | 0, _, _ => .error .syntaxError
  | fuel + 1, read, cs =>
    match cs with
    | [] => .error .syntaxError
    | '"' :: rest => .ok (.ofList read.reverse, rest)
    | '\\' :: 'u' :: rest =>
      match unicodeEscape? rest with
      | some (c, rest) => textBody fuel (c :: read) rest
      | none => .error .syntaxError
    | '\\' :: c :: rest =>
      match simpleEscape? c with
      | some c => textBody fuel (c :: read) rest
      | none => .error .syntaxError
    | c :: rest => if c.toNat < 32 ∨ c = '\\' then .error .syntaxError else textBody fuel (c :: read) rest

/-- The digits of a numeral's whole part: zero alone or digits that do not begin with zero. -/
def wholePart? : List Char → Option (List Char × List Char)
  | '0' :: rest => some (['0'], rest)
  | cs =>
    let digits := cs.takeWhile Char.isDigit
    if digits.isEmpty then none else some (digits, cs.dropWhile Char.isDigit)

/-- A point with digits after it, if the text begins with that. -/
def fractionPart : List Char → List Char × List Char
  | '.' :: rest =>
    let digits := rest.takeWhile Char.isDigit
    if digits.isEmpty then ([], '.' :: rest) else (digits, rest.dropWhile Char.isDigit)
  | cs => ([], cs)

/-- An exponent, if the text begins with one. -/
def exponentPart (cs : List Char) : Option Int × List Char :=
  match cs with
  | e :: rest =>
    if e = 'e' ∨ e = 'E' then
      let (negative, rest) := Number.splitSign rest
      let digits := rest.takeWhile Char.isDigit
      if digits.isEmpty then (none, cs)
      else
        let n : Int := Text.digitsValue digits
        (some (if negative then -n else n), rest.dropWhile Char.isDigit)
    else (none, cs)
  | [] => (none, [])

/-- A numeral after its sign. -/
def numeral (negative : Bool) (cs : List Char) : Progress Json :=
  match wholePart? cs with
  | none => .error .syntaxError
  | some (whole, rest) =>
    let (fraction, rest) := fractionPart rest
    let (power, rest) := exponentPart rest
    if fraction.isEmpty && power.isNone then
      match Number.nat? whole with
      | .ok n => .ok (.int (if negative then -(n : Int) else n), rest)
      | .error _ => .error .tooLong
    else
      .ok (.float (Binary64.ofDecimal negative (Text.digitsValue (whole ++ fraction))
        (power.getD 0 - fraction.length)), rest)

/-- The words that stand for values. -/
def wordValues : List (String × Json) :=
  [("null", .null), ("true", .bool true), ("false", .bool false), ("NaN", .float .nan),
    ("Infinity", .float (.infinite false)), ("-Infinity", .float (.infinite true))]

/-- A word that stands for a value, or a numeral. -/
def scalar (cs : List Char) : Progress Json :=
  match wordValues.findSome? fun (word, j) => (afterWord? word.toList cs).map (j, ·) with
  | some read => .ok read
  | none =>
    match cs with
    | '-' :: rest => numeral true rest
    | cs => numeral false cs

mutual

/-- A value at the start of the text. -/
def value : Nat → List Char → Progress Json
  | 0, _ => .error .syntaxError
  | fuel + 1, cs =>
    match cs with
    | '"' :: rest => (textBody (rest.length + 1) [] rest).map fun (s, rest) => (.text s, rest)
    | '[' :: rest =>
      match skipSpace rest with
      | ']' :: rest => .ok (.list [], rest)
      | rest => listItems fuel [] rest
    | '\x7b' :: rest =>
      match skipSpace rest with
      | '\x7d' :: rest => .ok (.object [], rest)
      | rest => objectMembers fuel [] rest
    | cs => scalar cs

/-- The items of a list from one item on, those read so far in reverse. -/
def listItems : Nat → List Json → List Char → Progress Json
  | 0, _, _ => .error .syntaxError
  | fuel + 1, read, cs =>
    match value fuel cs with
    | .error e => .error e
    | .ok (j, rest) =>
      match skipSpace rest with
      | ',' :: rest => listItems fuel (j :: read) (skipSpace rest)
      | ']' :: rest => .ok (.list (j :: read).reverse, rest)
      | _ => .error .syntaxError

/-- The members of an object from one name on, those read so far before. -/
def objectMembers : Nat → List (String × Json) → List Char → Progress Json
  | 0, _, _ => .error .syntaxError
  | fuel + 1, read, cs =>
    match cs with
    | '"' :: rest =>
      match textBody (rest.length + 1) [] rest with
      | .error e => .error e
      | .ok (name, rest) =>
        match skipSpace rest with
        | ':' :: rest =>
          match value fuel (skipSpace rest) with
          | .error e => .error e
          | .ok (j, rest) =>
            let read := OrderedMap.put read name j
            match skipSpace rest with
            | ',' :: rest => objectMembers fuel read (skipSpace rest)
            | '\x7d' :: rest => .ok (.object read, rest)
            | _ => .error .syntaxError
        | _ => .error .syntaxError
    | _ => .error .syntaxError

end

/-- Reads a document: one value with nothing but white space around it. Each call for a nested value passes
over at least one character, so the length of the text bounds the depth of the calls. -/
def parseChars (cs : List Char) : Except JsonError Json :=
  match value (2 * cs.length + 2) (skipSpace cs) with
  | .error e => .error e
  | .ok (j, rest) => if (skipSpace rest).isEmpty then .ok j else .error .syntaxError

/-- Reads a document. -/
def parse (s : String) : Except JsonError Json := parseChars s.toList

end Json
end PackageGraph
