import PackageGraph.Number.Binary64
/-!
# Decimal digits of a binary number

Two ways to choose the digits of a finite binary64 value: the fewest that read back as the same value,
and a given number of them, rounded to nearest.
-/
namespace PackageGraph

/-- A positive decimal number `digits * 10 ^ exponent`. -/
structure Decimal where
  digits : Nat
  exponent : Int
  deriving DecidableEq, Inhabited

namespace Decimal

/-- The number of places before the point, which is negative for numbers below a tenth. -/
def pointPlace (d : Decimal) : Int := (Binary64.decimalLength d.digits : Int) + d.exponent

/-- The same number without zeros at the end of its digits. -/
def stripZeros (d : Decimal) : Decimal :=
  let kept := (Nat.toDigits 10 d.digits).reverse.dropWhile (· == '0')
  let dropped := Binary64.decimalLength d.digits - kept.length
  ⟨d.digits / powerOfTen dropped, d.exponent + dropped⟩

/-- `num / den` in units of `10 ^ exponent`, as a quotient of naturals. -/
def inTens (num den : Nat) (exponent : Int) : Nat × Nat :=
  if exponent < 0 then (num * powerOfTen exponent.natAbs, den) else (num, den * powerOfTen exponent.natAbs)

/-- Whether `10 ^ exponent ≤ num / den`. -/
def reaches (num den : Nat) (exponent : Int) : Bool :=
  let (n, d) := inTens num den exponent
  d ≤ n

/-- The exponent `p` with `10 ^ (p - 1) ≤ num / den < 10 ^ p`, for positive numbers. -/
def magnitude (num den : Nat) : Int :=
  let guess := (Binary64.decimalLength num : Int) - Binary64.decimalLength den
  if reaches num den guess then guess + 1 else guess

/-- `num / den` with `count` digits, rounded to nearest, a tie to the even digit. -/
def rounded (num den count : Nat) : Decimal :=
  let step := magnitude num den - count
  let (n, d) := inTens num den step
  ⟨Binary64.roundHalfEven n d, step⟩

/-- The two numbers with `count` digits around `num / den` that the test accepts, the nearer first. -/
def candidates (num den count : Nat) (accept : Decimal → Bool) : List Decimal :=
  let step := magnitude num den - count
  let (n, d) := inTens num den step
  let below := n / d
  let nearest := Binary64.roundHalfEven n d
  let other := if nearest = below then below + 1 else below
  ([⟨nearest, step⟩, ⟨other, step⟩] : List Decimal).filter accept

/-- The fewest digits that lie in the interval of reals nearest to `mantissa * 2 ^ exponent`. The
interval reaches half a unit to each side, but a quarter unit below a power of two, and holds its ends when
the mantissa is even. -/
def shortest (mantissa : Nat) (exponent : Int) : Decimal :=
  -- everything is counted in quarter units, over one common denominator
  let quarter := exponent - 2
  let scale (n : Nat) : Nat := if quarter < 0 then n else n * powerOfTwo quarter.natAbs
  let den : Nat := if quarter < 0 then powerOfTwo quarter.natAbs else 1
  let num := scale (4 * mantissa)
  let low := scale (4 * mantissa - if mantissa = powerOfTwo 52 ∧ Binary64.leastExponent < exponent then 1 else 2)
  let high := scale (4 * mantissa + 2)
  let inside (c : Decimal) : Bool :=
    let (n, d) := if c.exponent < 0 then (c.digits * den, powerOfTen c.exponent.natAbs)
      else (c.digits * powerOfTen c.exponent.natAbs * den, 1)
    if mantissa % 2 = 0 then low * d ≤ n && n ≤ high * d else low * d < n && n < high * d
  match (List.range 17).findSome? fun i => (candidates num den (i + 1) inside).head? with
  | some d => d.stripZeros
  | none => rounded num den 17

/-- The quotient that a finite value with this mantissa and exponent is. -/
def quotient (mantissa : Nat) (exponent : Int) : Nat × Nat :=
  if exponent < 0 then (mantissa, powerOfTwo exponent.natAbs) else (mantissa * powerOfTwo exponent.natAbs, 1)

end Decimal
end PackageGraph
