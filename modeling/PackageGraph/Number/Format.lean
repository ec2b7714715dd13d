import PackageGraph.Number.Shortest
/-!
# Number text

How a binary64 value is written. A `NumberStyle` says where positional notation ends and whether a whole
number keeps a point; the digits come from `Decimal`.
-/
namespace PackageGraph

/-- Where positional notation ends and how whole numbers look. -/
structure NumberStyle where
  /-- The least place of the point that is written positionally. -/
  leastPoint : Int
  /-- The greatest place of the point that is written positionally. -/
  greatestPoint : Int
  /-- Whether a whole number in positional notation ends in `.0`. -/
  keepsPoint : Bool

namespace NumberStyle

/-- Values are written with the fewest digits that read back; positional below `10 ^ 16`. -/
def exact : NumberStyle := ⟨-3, 16, true⟩

/-- Durations are written with six digits at most; positional below a million. -/
def brief : NumberStyle := ⟨-3, 6, false⟩

end NumberStyle

/-- The decimal digits of a natural number. -/
def natText (n : Nat) : String := .ofList (Nat.toDigits 10 n)

/-- The decimal text of a whole number. -/
def intText (n : Int) : String := if n < 0 then "-" ++ natText n.natAbs else natText n.natAbs

/-- A natural number with at least `width` digits, filled up with zeros. -/
def padded (width n : Nat) : String :=
  let digits := Nat.toDigits 10 n
  .ofList (List.replicate (width - digits.length) '0' ++ digits)

namespace Decimal

/-- The text of a positive decimal number without zeros at the end. -/
def text (style : NumberStyle) (d : Decimal) : String :=
  let digits := Nat.toDigits 10 d.digits
  let point := d.pointPlace
  if style.leastPoint ≤ point ∧ point ≤ style.greatestPoint then
    if point ≤ 0 then .ofList ('0' :: '.' :: List.replicate point.natAbs '0' ++ digits)
    else if digits.length ≤ point.natAbs then
      .ofList (digits ++ List.replicate (point.natAbs - digits.length) '0' ++
        if style.keepsPoint then ['.', '0'] else [])
    else .ofList (digits.take point.natAbs ++ '.' :: digits.drop point.natAbs)
  else
    let fraction := if digits.length ≤ 1 then [] else '.' :: digits.drop 1
    let power := point - 1
    .ofList (digits.take 1 ++ fraction ++ ['e', if power < 0 then '-' else '+']) ++ padded 2 power.natAbs

end Decimal

namespace Binary64

/-- The text of a value whose digits `choose` picks. -/
def textWith (style : NumberStyle) (choose : Nat → Int → Decimal) : Binary64 → String
  | .nan => "nan"
  | .infinite negative => if negative then "-inf" else "inf"
  | .finite negative mantissa exponent =>
    let sign := if negative then "-" else ""
    if mantissa = 0 then sign ++ if style.keepsPoint then "0.0" else "0"
    else sign ++ (choose mantissa exponent).text style

/-- The text with the fewest digits that read back as the same value. -/
def text (x : Binary64) : String := x.textWith .exact Decimal.shortest

/-- The text rounded to six digits, without zeros after the last digit that counts. -/
def briefText (x : Binary64) : String :=
  x.textWith .brief fun mantissa exponent =>
    let (num, den) := Decimal.quotient mantissa exponent
    (Decimal.rounded num den 6).stripZeros

end Binary64
end PackageGraph
