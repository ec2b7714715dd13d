import PackageGraph.Text.Printable
/-!
# Quoted text

A text between quotes, with every character that is not printable escaped. Single quotes are used unless the
text holds a single quote and no double one.

Half of a surrogate pair is no character, but an escape may write one down on its own. A text keeps such a half as
a character that is reserved for private use, at a fixed distance from the half, so that it can be written down as a
half again.
-/
namespace PackageGraph.Text

/-! ## Halves of surrogate pairs -/

/-- The distance between a half of a pair and the character that stands for it. -/
def halfOffset : Nat := 0x100000

/-- Whether a code is half of a surrogate pair. -/
def isHalf (code : Nat) : Bool := 0xD800 ≤ code && code < 0xE000

/-- The character with a code, or the one that stands for a half of a pair. -/
def charOfCode (code : Nat) : Char := Char.ofNat (if isHalf code then halfOffset + code else code)

/-- The half of a pair that a character stands for. -/
def half? (c : Char) : Option Nat := if isHalf (c.toNat - halfOffset) then some (c.toNat - halfOffset) else none

/-! ## Between quotes -/

/-- A hexadecimal numeral of at least `width` digits, in lower case. -/
def hex (width n : Nat) : List Char :=
  let digits := Nat.toDigits 16 n
  List.replicate (width - digits.length) '0' ++ digits

/-- A character inside a text quoted with `quote`. -/
def quotedChar (quote c : Char) : List Char :=
  if c = quote ∨ c = '\\' then ['\\', c]
  else if c = '\n' then ['\\', 'n']
  else if c = '\r' then ['\\', 'r']
  else if c = '\t' then ['\\', 't']
  else if isPrintable c then [c]
  else if c.toNat < 0x100 then '\\' :: 'x' :: hex 2 c.toNat
  else if c.toNat < 0x10000 then '\\' :: 'u' :: hex 4 c.toNat
  else
    match half? c with
    | some unit => '\\' :: 'u' :: hex 4 unit
    | none => '\\' :: 'U' :: hex 8 c.toNat

/-- The text between quotes. -/
def quoted (s : String) : String :=
  let cs := s.toList
  let quote := if cs.contains '\'' && !cs.contains '"' then '"' else '\''
  .ofList (quote :: cs.flatMap (quotedChar quote) ++ [quote])

end PackageGraph.Text
