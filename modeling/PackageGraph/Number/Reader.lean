import PackageGraph.Number.Binary64
import PackageGraph.Text.Blank
import PackageGraph.Text.DecimalDigit
import PackageGraph.Text.Split
/-!
# Reading numbers

Whole numbers and binary64 values from user text. Digits of every script count, single underscores may
stand between digits, and white space around the number is passed over. A whole number has at most
`digitLimit` digits.
-/
namespace PackageGraph

/-- The greatest number of digits of a whole number that is read from text. -/
def digitLimit : Nat := 4300

/-- Why a text is no number. -/
inductive NumberError where
  /-- The text does not have the form of a number. -/
  | malformed
  /-- The number has more digits than the limit. -/
  | tooLong
  deriving DecidableEq, Repr

namespace Number

open Text

/-- White space that may stand around a number: all but the four information separators. -/
def isPadding (c : Char) : Bool := isBlank c && !(0x1C ≤ c.toNat && c.toNat ≤ 0x1F)

/-- The text without padding at either end. -/
def trimPadding (cs : List Char) : List Char := dropEndWhile isPadding (cs.dropWhile isPadding)

/-- A sign and the text after it; a text without a sign is positive. -/
def splitSign : List Char → Bool × List Char
  | '-' :: cs => (true, cs)
  | '+' :: cs => (false, cs)
  | cs => (false, cs)

/-- The digits of a run in which single underscores may separate them. -/
def digitRun? (cs : List Char) : Option (List Char) :=
  let groups := splitOn '_' cs
  if groups.all fun g => !g.isEmpty && g.all isDigit then some groups.flatten else none

/-- The natural number that a run of digits denotes, within the limit. -/
def nat? (digits : List Char) : Except NumberError Nat :=
  if digitLimit < digits.length then .error .tooLong else .ok (digitsValue digits)

/-- Reads a whole number. -/
def int? (cs : List Char) : Except NumberError Int :=
  let (negative, rest) := splitSign (trimPadding cs)
  match digitRun? rest with
  | none => .error .malformed
  | some digits => (nat? digits).map fun (n : Nat) => if negative then -(n : Int) else n

/-- The letters that may stand after a zero at the beginning of a numeral in a base. -/
def baseLetters (base : Nat) : List Char :=
  if base = 2 then ['b', 'B'] else if base = 8 then ['o', 'O'] else if base = 16 then ['x', 'X'] else []

/-- The text after the mark of a base, if it begins with one; an underscore may follow the mark. -/
def afterBaseMark (base : Nat) : List Char → List Char
  | '0' :: letter :: rest =>
    if (baseLetters base).contains letter then
      match rest with
      | '_' :: rest => rest
      | rest => rest
    else '0' :: letter :: rest
  | cs => cs

/-- The value of a digit in a base up to sixteen. -/
def digitIn? (base : Nat) (c : Char) : Option Nat :=
  let value := (digit? c).orElse fun _ =>
    if 'a' ≤ c ∧ c ≤ 'f' then some (c.toNat - 87) else if 'A' ≤ c ∧ c ≤ 'F' then some (c.toNat - 55) else none
  value.filter (· < base)

/-- Reads a whole number in a base that is a power of two, of any length. -/
def intIn? (base : Nat) (cs : List Char) : Option Int := do
  let (negative, rest) := splitSign (trimPadding cs)
  let groups := splitOn '_' (afterBaseMark base rest)
  if groups.any List.isEmpty then none
  let digits ← groups.flatten.mapM (digitIn? base)
  let n : Nat := digits.foldl (fun n d => n * base + d) 0
  return if negative then -(n : Int) else n

/-- Names of the values that no digits denote, in lower case. -/
def named? (negative : Bool) (cs : List Char) : Option Binary64 :=
  let name := String.ofList (cs.map Char.toLower)
  if name = "inf" ∨ name = "infinity" then some (.infinite negative)
  else if name = "nan" then some .nan
  else none

/-- A run of digits that may be missing altogether. -/
def optionalRun? (cs : List Char) : Option (List Char) := if cs.isEmpty then some [] else digitRun? cs

/-- An exponent with an optional sign. -/
def exponent? (cs : List Char) : Option Int :=
  let (negative, rest) := splitSign cs
  (digitRun? rest).map fun digits => if negative then -(digitsValue digits : Int) else digitsValue digits

/-- Reads digits, an optional fraction and an optional exponent. -/
def decimal? (negative : Bool) (cs : List Char) : Option Binary64 := do
  let (significand, power) := cut 'e' (cs.map fun c => if c = 'E' then 'e' else c)
  let (whole, fraction) := cut '.' significand
  let wholeDigits ← optionalRun? whole
  let fractionDigits ← optionalRun? (fraction.getD [])
  if wholeDigits.isEmpty && fractionDigits.isEmpty then none
  let shift ← match power with
    | none => some 0
    | some p => exponent? p
  return Binary64.ofDecimal negative (digitsValue (wholeDigits ++ fractionDigits))
    (shift - fractionDigits.length)

/-- Reads a binary64 value. -/
def float? (cs : List Char) : Option Binary64 :=
  let (negative, rest) := splitSign (trimPadding cs)
  (named? negative rest).orElse fun _ => decimal? negative rest

end Number
end PackageGraph
