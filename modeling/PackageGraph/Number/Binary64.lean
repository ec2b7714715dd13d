/-!
# Binary floating-point numbers

The values of IEEE 754 binary64 as exact data, so that reading and printing them is arithmetic on natural
numbers. `ofQuotient` rounds a quotient to the nearest value, ties to the even mantissa.
-/
namespace PackageGraph

/-- The power of two with this exponent. -/
def powerOfTwo (n : Nat) : Nat := Nat.pow 2 n

/-- The power of ten with this exponent. -/
def powerOfTen (n : Nat) : Nat := Nat.pow 10 n

/-- A binary64 value; a finite one is `± mantissa * 2 ^ exponent`. -/
inductive Binary64 where
  | finite (negative : Bool) (mantissa : Nat) (exponent : Int)
  | infinite (negative : Bool)
  | nan
  deriving DecidableEq, Inhabited

namespace Binary64

/-- The exponent of the numbers nearest to zero. -/
def leastExponent : Int := -1074

/-- The greatest exponent of a finite number. -/
def greatestExponent : Int := 971

/-- Zero with a sign. -/
def zero (negative : Bool) : Binary64 := .finite negative 0 leastExponent

/-- `num / den` rounded to a whole number, a tie to the even neighbour. -/
def roundHalfEven (num den : Nat) : Nat :=
  let q := num / den
  let twice := 2 * (num % den)
  if twice < den then q
  else if den < twice then q + 1
  else if q % 2 = 0 then q else q + 1

/-- `num / den` with both sides multiplied so that the quotient is in units of `2 ^ exponent`. -/
def inUnits (num den : Nat) (exponent : Int) : Nat × Nat :=
  if exponent < 0 then (num * powerOfTwo exponent.natAbs, den) else (num, den * powerOfTwo exponent.natAbs)

/-- The value nearest to `num / den`, for a positive `den`. -/
def ofQuotient (negative : Bool) (num den : Nat) : Binary64 :=
  if num = 0 then zero negative
  else
    -- the quotient lies in [2 ^ 52, 2 ^ 54) units of this exponent, if it is not below the least
    let guess := (num.log2 : Int) - den.log2 - 53
    let (n, d) := inUnits num den guess
    let exponent := max leastExponent (if powerOfTwo 53 ≤ n / d then guess + 1 else guess)
    let (n, d) := inUnits num den exponent
    let rounded := roundHalfEven n d
    let (mantissa, exponent) :=
      if rounded = powerOfTwo 53 then (powerOfTwo 52, exponent + 1) else (rounded, exponent)
    if greatestExponent < exponent then .infinite negative else .finite negative mantissa exponent

/-- The number of decimal digits of a positive number. -/
def decimalLength (n : Nat) : Nat := (Nat.toDigits 10 n).length

/-- The value nearest to `digits * 10 ^ exponent`. Exponents far outside the range of the format are
settled by the size of the number alone. -/
def ofDecimal (negative : Bool) (digits : Nat) (exponent : Int) : Binary64 :=
  if digits = 0 then zero negative
  else
    let size := (decimalLength digits : Int) + exponent
    if 310 < size then .infinite negative
    else if size < -325 then zero negative
    else if exponent < 0 then ofQuotient negative digits (powerOfTen exponent.natAbs)
    else ofQuotient negative (digits * powerOfTen exponent.natAbs) 1

/-- The value nearest to a whole number; infinite when the number is too large. -/
def ofInt (n : Int) : Binary64 := ofQuotient (n < 0) n.natAbs 1

/-- The number with a whole value that the value has, or the part before the point, cut toward zero. -/
def truncate? : Binary64 → Option Int
  | .finite negative mantissa exponent =>
    let size : Nat :=
      if exponent < 0 then mantissa / powerOfTwo exponent.natAbs else mantissa * powerOfTwo exponent.natAbs
    some (if negative then -size else size)
  | _ => none

/-- Whether the value is a whole number. -/
def isWhole : Binary64 → Bool
  | .finite _ mantissa exponent => 0 ≤ exponent || mantissa % powerOfTwo exponent.natAbs == 0
  | _ => false

/-- Whether the value is zero, of either sign. -/
def isZero : Binary64 → Bool
  | .finite _ mantissa _ => mantissa == 0
  | _ => false

/-- Whether the value is zero or below. -/
def isNonPositive : Binary64 → Bool
  | .finite negative mantissa _ => negative || mantissa == 0
  | .infinite negative => negative
  | .nan => false

/-- The sign changed. -/
def negate : Binary64 → Binary64
  | .finite negative mantissa exponent => .finite (!negative) mantissa exponent
  | .infinite negative => .infinite (!negative)
  | .nan => .nan

/-- A natural number with a sign. -/
def signed (negative : Bool) (n : Nat) : Int := if negative then -(n : Int) else n

/-- The sum, rounded to the nearest value. Opposite numbers sum up to the positive zero. -/
def add : Binary64 → Binary64 → Binary64
  | .finite s m e, .finite t n f =>
    let least := min e f
    let sum := signed s (m * powerOfTwo (e - least).natAbs) + signed t (n * powerOfTwo (f - least).natAbs)
    if sum = 0 then zero (s && t)
    else
      let (num, den) := inUnits sum.natAbs 1 (-least)
      ofQuotient (sum < 0) num den
  | .nan, _ | _, .nan => .nan
  | .infinite s, .infinite t => if s = t then .infinite s else .nan
  | .infinite s, .finite .. | .finite .., .infinite s => .infinite s

/-- The product, rounded to the nearest value. -/
def multiply : Binary64 → Binary64 → Binary64
  | .finite s m e, .finite t n f =>
    let (num, den) := inUnits (m * n) 1 (-(e + f))
    ofQuotient (s != t) num den
  | .nan, _ | _, .nan => .nan
  | .infinite s, .infinite t => .infinite (s != t)
  | .infinite s, .finite t n _ | .finite t n _, .infinite s => if n = 0 then .nan else .infinite (s != t)

end Binary64
end PackageGraph
