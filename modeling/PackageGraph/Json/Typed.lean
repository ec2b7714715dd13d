import PackageGraph.Error
import PackageGraph.Json.Basic
import PackageGraph.Number.Binary64
import PackageGraph.Text.DecimalDigit
import PackageGraph.Text.Split
/-!
# Narrowest types

A text of a JSON document that has the form of a date and time, or of a globally unique identifier, stands for
that. A date that does not exist stays a text. Two forms are refused: an offset of a day or more, and an
identifier with a line end after it.
-/
namespace PackageGraph.Json

open Text

/-- A run of exactly `count` digits. -/
def digits? (count : Nat) (cs : List Char) : Option (Nat × List Char) :=
  let run := cs.take count
  if run.length = count ∧ run.all isDigit then some (digitsValue run, cs.drop count) else none

/-- The first six digits of a fraction as a number of millionths. -/
def microsOf (fraction : List Char) : Nat :=
  digitsValue (fraction.take 6) * powerOfTen (6 - fraction.length)

/-- Seconds and millionths, both of which may be missing. -/
def seconds? : List Char → Option ((Nat × Nat) × List Char)
  | ':' :: rest => do
    let (second, rest) ← digits? 2 rest
    match rest with
    | '.' :: more =>
      let fraction := more.takeWhile isDigit
      if fraction.isEmpty then none else some ((second, microsOf fraction), more.dropWhile isDigit)
    | rest => some ((second, 0), rest)
  | rest => some ((0, 0), rest)

/-- Hours and minutes of an offset. -/
def offsetMinutes? (cs : List Char) : Option (Nat × List Char) := do
  let (hours, rest) ← digits? 2 cs
  let rest ← after? ':' rest
  let (minutes, rest) ← digits? 2 rest
  return (hours * 60 + minutes, rest)

/-- The offset at the end of a time, which may be missing. -/
def offset? : List Char → Option (Option Int × List Char)
  | 'Z' :: rest => some (some 0, rest)
  | '+' :: rest => (offsetMinutes? rest).map fun (n, rest) => (some (n : Int), rest)
  | '-' :: rest => (offsetMinutes? rest).map fun (n, rest) => (some (-(n : Int)), rest)
  | rest => some (none, rest)

/-- Whether the text ends here, but for one line end. -/
def endsHere (cs : List Char) : Bool := cs.isEmpty || cs == ['\n']

/-- The date and time that a text has the form of, whether or not it exists. -/
def timestampForm? (cs : List Char) : Option Timestamp := do
  let (year, rest) ← digits? 4 cs
  let rest ← after? '-' rest
  let (month, rest) ← digits? 2 rest
  let rest ← after? '-' rest
  let (day, rest) ← digits? 2 rest
  let rest ← after? 'T' rest
  let (hour, rest) ← digits? 2 rest
  let rest ← after? ':' rest
  let (minute, rest) ← digits? 2 rest
  let ((second, micros), rest) ← seconds? rest
  let (offset, rest) ← offset? rest
  if endsHere rest then some ⟨⟨year, month, day⟩, hour, minute, second, micros, offset⟩ else none

/-- Whether an offset is less than a day. -/
def isOffset (offset : Option Int) : Bool := offset.all fun minutes => minutes.natAbs < 1440

/-- Whether the character is a hexadecimal digit. -/
def isHex (c : Char) : Bool :=
  c.isDigit || ('a' ≤ c && c ≤ 'f') || ('A' ≤ c && c ≤ 'F')

/-- A run of exactly `count` hexadecimal digits. -/
def hexRun? (count : Nat) (cs : List Char) : Option (List Char × List Char) :=
  let run := cs.take count
  if run.length = count ∧ run.all isHex then some (run, cs.drop count) else none

/-- The text without a brace that begins it. -/
def afterBrace (brace : Char) : List Char → List Char
  | c :: rest => if c = brace then rest else c :: rest
  | [] => []

/-- The identifier that a text has the form of, in lower case, and what follows it. -/
def guidForm? (cs : List Char) : Option (String × List Char) := do
  let (a, rest) ← hexRun? 8 (afterBrace '\x7b' cs)
  let rest ← after? '-' rest
  let (b, rest) ← hexRun? 4 rest
  let rest ← after? '-' rest
  let (c, rest) ← hexRun? 4 rest
  let rest ← after? '-' rest
  let (d, rest) ← hexRun? 4 rest
  let rest ← after? '-' rest
  let (e, rest) ← hexRun? 12 rest
  let groups := [a, b, c, d, e].map fun g => String.ofList (g.map Char.toLower)
  let rest := afterBrace '\x7d' rest
  if endsHere rest then some (Text.join "-" groups, rest) else none

/-- The value that a text stands for. -/
def typedText (s : String) : Except Error Value :=
  let identifier : Except Error Value :=
    match guidForm? s.toList with
    | some (g, []) => .ok (.guid g)
    | some _ => .error (.fault .unreadable)
    | none => .ok (.text s)
  match timestampForm? s.toList with
  | some t =>
    if isOffset t.offset then (if t.isValid then .ok (.time t) else identifier)
    else .error (.fault .unreadable)
  | none => identifier

mutual

/-- The value with every text given its narrowest type. -/
def typed : Json → Except Error Value
  | .null => .ok .null
  | .bool b => .ok (.bool b)
  | .int n => .ok (.int n)
  | .float x => .ok (.float x)
  | .text s => typedText s
  | .list items => (typedItems items).map .list
  | .object members => (typedMembers members).map .mapping

/-- The items with their narrowest types. -/
def typedItems : List Json → Except Error (List Value)
  | [] => .ok []
  | j :: js => do
    let v ← typed j
    let vs ← typedItems js
    return v :: vs

/-- The members with their narrowest types; names stay as they are. -/
def typedMembers : List (String × Json) → Except Error (List (Value × Value))
  | [] => .ok []
  | (name, j) :: rest => do
    let v ← typed j
    let vs ← typedMembers rest
    return (.text name, v) :: vs

end

end PackageGraph.Json
