/-!
# Base 64

Octets written as characters of six bits each. Characters outside the alphabet are passed over, and padding ends the
text once it completes a group of four.
-/
namespace PackageGraph.Base64

/-- The six bits that a character of the alphabet stands for. -/
def sextet? (c : Char) : Option Nat :=
  if 'A' ≤ c ∧ c ≤ 'Z' then some (c.toNat - 65)
  else if 'a' ≤ c ∧ c ≤ 'z' then some (c.toNat - 71)
  else if c.isDigit then some (c.toNat + 4)
  else if c = '+' then some 62
  else if c = '/' then some 63
  else none

/-- The octets that the rest of a text stands for, given how many characters of the present group have been read,
the bits of the last one that are still to be used, and how much padding has been read. -/
def decodeFrom : Nat → Nat → Nat → List Char → Option (List UInt8)
  | place, _, _, [] => if place = 0 then some [] else none
  | place, bits, padding, c :: cs =>
    if c = '=' then
      if place < 2 then decodeFrom place bits padding cs
      else if 4 ≤ place + padding + 1 then some []
      else decodeFrom place bits (padding + 1) cs
    else
      match sextet? c with
      | none => decodeFrom place bits padding cs
      | some n =>
        match place with
        | 0 => decodeFrom 1 n 0 cs
        | 1 => (decodeFrom 2 (n % 16) 0 cs).map ((bits * 4 + n / 16).toUInt8 :: ·)
        | 2 => (decodeFrom 3 (n % 4) 0 cs).map ((bits * 16 + n / 4).toUInt8 :: ·)
        | _ => (decodeFrom 0 0 0 cs).map ((bits * 64 + n).toUInt8 :: ·)

/-- The octets that a text stands for; a text whose last group is incomplete stands for none. -/
def decode? (cs : List Char) : Option (List UInt8) := decodeFrom 0 0 0 cs

end PackageGraph.Base64
