import PackageGraph.Json.Typed
import PackageGraph.Text.Base64
import PackageGraph.Text.LowerCase
import PackageGraph.Value.Basic
import PackageGraph.Yaml.Tag
/-!
# Scalars

The tag that the text of a scalar without quotes stands for, and the value that a text denotes under a tag: words for
truth and absence, whole numbers in several bases, numbers with a point, dates, numbers whose places count sixty
each, and octets. A text under a tag need not have the form that would have given it that tag.
-/
namespace PackageGraph.Yaml

/-! ## Implicit tags -/

/-- The words for true and false, in lower case. -/
def truthWords : List (String × Bool) :=
  [("yes", true), ("no", false), ("true", true), ("false", false), ("on", true), ("off", false)]

/-- The spellings of a word that count: in lower case, capitalized, or in capitals. -/
def spellings (word : String) : List String := [word, word.capitalize, word.map Char.toUpper]

/-- Whether the text is a word for true or false. -/
def isTruth (s : String) : Bool := truthWords.any fun (word, _) => (spellings word).contains s

/-- Whether the text is a word for nothing. -/
def isNull (s : String) : Bool := s.isEmpty || s == "~" || (spellings "null").contains s

/-! ## Numbers -/

/-- Whether a character is a digit or stands between digits. -/
def isPlace (c : Char) : Bool := c.isDigit || c = '_'

/-- Digits, with underscores after the first. -/
def isRun : List Char → Bool
  | c :: rest => c.isDigit && rest.all isPlace
  | [] => false

/-- Digits that do not begin with a zero, with underscores after the first. -/
def isWholeRun (cs : List Char) : Bool := isRun cs && cs.head? != some '0'

/-- A place that counts sixty. -/
def isSixty : List Char → Bool
  | [c] => c.isDigit
  | [c, d] => '0' ≤ c && c ≤ '5' && d.isDigit
  | _ => false

/-- Places that count sixty each, after a first one. -/
def areSixties (parts : List (List Char)) : Bool := !parts.isEmpty && parts.all isSixty

/-- The text without a sign. -/
def unsigned (cs : List Char) : List Char := (Number.splitSign cs).2

/-- Whether the text is a whole number. -/
def isInt (cs : List Char) : Bool :=
  match unsigned cs with
  | ['0'] => true
  | '0' :: 'b' :: rest => !rest.isEmpty && rest.all fun c => c = '0' || c = '1' || c = '_'
  | '0' :: 'x' :: rest => !rest.isEmpty && rest.all fun c => (Json.hexDigit? c).isSome || c = '_'
  | '0' :: rest => rest.all fun c => ('0' ≤ c && c ≤ '7') || c = '_'
  | cs =>
    match Text.splitOn ':' cs with
    | [first] => isWholeRun first
    | first :: rest => isWholeRun first && areSixties rest
    | [] => false

/-- Digits after a point and an exponent, which needs a sign. -/
def isFraction (cs : List Char) : Bool :=
  match cs.dropWhile isPlace with
  | [] => true
  | e :: sign :: digits =>
    (e = 'e' || e = 'E') && (sign = '-' || sign = '+') && !digits.isEmpty && digits.all Char.isDigit
  | _ => false

/-- Whether the text is a number with a point. -/
def isFloat (cs : List Char) : Bool :=
  match Text.cut '.' cs with
  | (_, none) => false
  | (head, some tail) =>
    if head.isEmpty && ["nan", "NaN", "NAN"].contains (String.ofList tail) then true
    else if (unsigned head).isEmpty && (spellings "inf").contains (String.ofList tail) then true
    else if head.isEmpty then tail.head?.any Char.isDigit && isFraction tail
    else
      match Text.splitOn ':' (unsigned head) with
      | [first] => isRun first && isFraction tail
      | first :: rest => isRun first && areSixties rest && tail.all isPlace
      | [] => false

/-! ## Dates -/

/-- Between `least` and `most` digits and what follows them. -/
def digitsBetween (least most : Nat) (cs : List Char) : Option (Nat × List Char) :=
  let digits := (cs.take most).takeWhile Char.isDigit
  if digits.length < least then none else some (Text.digitsValue digits, cs.drop digits.length)

/-- The offset at the end of a time, in minutes. -/
def offset? (cs : List Char) : Option (Option Int) :=
  match cs.dropWhile fun c => c == ' ' || c == '\t' with
  | [] => if cs.isEmpty then some none else none
  | ['Z'] => some (some 0)
  | sign :: rest => do
    if sign ≠ '+' && sign ≠ '-' then none
    let (hours, rest) ← digitsBetween 1 2 rest
    let minutes ← match rest with
      | [] => some 0
      | ':' :: rest => (digitsBetween 2 2 rest).bind fun (n, rest) => if rest.isEmpty then some n else none
      | _ => none
    let total : Int := hours * 60 + minutes
    return some (if sign = '-' then -total else total)

/-- The time of day after a date. -/
def clock? (date : Date) (cs : List Char) : Option Timestamp := do
  let (hour, rest) ← digitsBetween 1 2 cs
  let (minute, rest) ← digitsBetween 2 2 (← Text.after? ':' rest)
  let (second, rest) ← digitsBetween 2 2 (← Text.after? ':' rest)
  let (fraction, rest) := match rest with
    | '.' :: rest => (rest.takeWhile Char.isDigit, rest.dropWhile Char.isDigit)
    | _ => ([], rest)
  return ⟨date, hour, minute, second, Json.microsOf fraction, ← offset? rest⟩

/-- What stands between a date and a time. -/
def afterDate? : List Char → Option (List Char)
  | c :: rest =>
    if c = 'T' || c = 't' then some rest
    else if c = ' ' || c = '\t' then some (rest.dropWhile fun c => c == ' ' || c == '\t')
    else none
  | [] => none

/-- A date, and the time of day if there is one. -/
def time? (cs : List Char) : Option (Date × Option Timestamp) := do
  let (year, rest) ← digitsBetween 4 4 cs
  let (month, rest) ← digitsBetween 1 2 (← Text.after? '-' rest)
  let (day, rest) ← digitsBetween 1 2 (← Text.after? '-' rest)
  let date : Date := ⟨year, month, day⟩
  if rest.isEmpty then return (date, none)
  return (date, some (← clock? date (← afterDate? rest)))

/-- Whether the text is a date; without a time its month and day have two digits each. -/
def isTime (cs : List Char) : Bool := (time? cs).any fun (_, clock) => clock.isSome || cs.length == 10

/-- The name of the standard tag of a text. -/
def tagName (s : String) : String :=
  let cs := s.toList
  if isTruth s then "bool"
  else if isFloat cs then "float"
  else if isInt cs then "int"
  else if s == "<<" then "merge"
  else if isNull s then "null"
  else if isTime cs then "timestamp"
  else if s == "=" then "value"
  else if s == "!" || s == "&" || s == "*" then "yaml"
  else "str"

/-- The characters without a line feed at the end. -/
def withoutLineFeed (cs : List Char) : List Char := if cs.getLast? == some '\n' then cs.dropLast else cs

/-- The tag of a scalar that has none and no quotes. A line feed at the end makes no difference, except that a text
of nothing else is no empty text. -/
def implicitTag (s : String) : String :=
  standardTag (if s == "\n" then "str" else tagName (.ofList (withoutLineFeed s.toList)))

/-! ## Values -/

/-- The kinds of scalar that denote values. -/
inductive ScalarKind where
  | null
  | bool
  | int
  | float
  | time
  | octets
  | text
  deriving DecidableEq, Repr

/-- The names of the standard tags of scalars. -/
def scalarNames : List (String × ScalarKind) :=
  [("null", .null), ("bool", .bool), ("int", .int), ("float", .float), ("timestamp", .time), ("binary", .octets),
    ("str", .text)]

/-- The kind of scalar that a tag asks for. -/
def ScalarKind.ofTag? (tag : String) : Option ScalarKind :=
  (scalarNames.find? fun (name, _) => standardTag name == tag).map (·.2)

/-- What a numeral says, or a fault when it is none. -/
def numeral {α : Type} : Option α → Except Fault α
  | some a => .ok a
  | none => .error .unreadable

/-- A whole number in decimal digits. -/
def decimal (cs : List Char) : Except Fault Int := numeral (Number.int? cs).toOption

/-- The number whose places count sixty each, the first the highest. -/
def sixties (places : List Int) : Int := places.foldl (fun n place => n * 60 + place) 0

/-- The text of a number without the underscores in it. -/
def withoutMarks (s : String) : List Char := s.toList.filter (· != '_')

/-- The size of a whole number. The mark of its base is a zero, with a letter after it for the bases two and
sixteen. -/
def intSize (cs : List Char) : Except Fault Int :=
  match cs with
  | [] => .error .endsEarly
  | ['0'] => .ok 0
  | '0' :: 'b' :: rest => numeral (Number.intIn? 2 rest)
  | '0' :: 'x' :: rest => numeral (Number.intIn? 16 rest)
  | '0' :: _ => numeral (Number.intIn? 8 cs)
  | cs => if cs.contains ':' then sixties <$> (Text.splitOn ':' cs).mapM decimal else decimal cs

/-- The whole number that a text denotes. -/
def intValue (s : String) : Except Fault Int := do
  let (negative, cs) := Number.splitSign (withoutMarks s)
  let size ← intSize cs
  return if negative then -size else size

/-- A number with a point in decimal digits. -/
def decimalFloat (cs : List Char) : Except Fault Binary64 := numeral (Number.float? cs)

/-- The sum of places that count sixty each, the last one first. The size of a place is a whole number, which has to
be within range, and every step is rounded. -/
def sixtiesFloat (places : List Binary64) : Except Fault Binary64 := do
  let (sum, _) ← places.foldlM (fun (sum, base) x =>
    match Binary64.ofInt base with
    | .infinite _ => .error .overflow
    | size => .ok (sum.add (x.multiply size), base * 60)) (Binary64.zero false, (1 : Int))
  return sum

/-- The number that a text with a point denotes. -/
def floatValue (s : String) : Except Fault Binary64 := do
  let cs := (Text.lower (.ofList (withoutMarks s))).toList
  if cs.isEmpty then .error .endsEarly
  let (negative, cs) := Number.splitSign cs
  if cs = ".nan".toList then return .nan
  let x ← if cs = ".inf".toList then .ok (.infinite false)
    else if cs.contains ':' then do sixtiesFloat (← (Text.splitOn ':' cs).mapM decimalFloat).reverse
    else decimalFloat cs
  return if negative then x.negate else x

/-- Whether a text is the word for what is no number. -/
def isNoNumber (s : String) : Bool :=
  (Number.splitSign (Text.lower (.ofList (withoutMarks s))).toList).2 == ".nan".toList

/-- The date or time that a text denotes, if it exists. -/
def timeValue (s : String) : Except Fault Value :=
  match time? (withoutLineFeed s.toList) with
  | none => .error .notText
  | some (date, none) => if date.isValid then .ok (.day date) else .error .unreadable
  | some (_, some t) =>
    if t.isValid && t.offset.all (fun minutes => minutes.natAbs < 1440) then .ok (.time t) else .error .unreadable

/-- The value of a word for true or false. -/
def truthValue (s : String) : Except Fault Value :=
  match truthWords.find? fun (word, _) => word == Text.lower s with
  | some (_, b) => .ok (.bool b)
  | none => .error .unknownWord

/-- The octets that a text in base 64 denotes. -/
def octetsValue (s : String) : Except Fault Value :=
  match if s.toList.all (·.toNat < 128) then Base64.decode? s.toList else none with
  | some bytes => .ok (.octets bytes)
  | none => refuse

/-- The value of a text of some kind. -/
def ScalarKind.value (s : String) : ScalarKind → Except Fault Value
  | .null => .ok .null
  | .bool => truthValue s
  | .int => .int <$> intValue s
  | .float => .float <$> floatValue s
  | .time => timeValue s
  | .octets => octetsValue s
  | .text => .ok (.text s)

end PackageGraph.Yaml
