import PackageGraph.Version.Basic
/-!
# Version ranges

A range has a lower and an upper bound, each of which may be missing, and may float: it then keeps the pattern
that it was written with, and its lower bound is the lowest version that the pattern admits.
-/
namespace PackageGraph

/-- A range of versions. -/
structure VersionRange where
  min : Option Version
  minInclusive : Bool
  max : Option Version
  maxInclusive : Bool
  /-- The pattern of a floating range. -/
  floating : Option String
  /-- The text that the range was read from, which does not count in comparisons. -/
  written : Option String
  deriving Inhabited

namespace VersionRange

/-- The range that admits every version. -/
def all : VersionRange := ⟨none, false, none, false, none, none⟩

/-- The range from a version on. -/
def atLeast (v : Version) (written : Option String) : VersionRange :=
  ⟨some v, true, none, false, none, written⟩

/-- The range that admits one version. -/
def exactly (v : Version) (written : Option String) : VersionRange :=
  ⟨some v, true, some v, true, none, written⟩

/-- Whether the range has neither a bound nor a pattern. -/
def isUnconstrained (r : VersionRange) : Bool := r.min.isNone && r.max.isNone && r.floating.isNone

/-- Whether the range has a pattern. -/
def isFloating (r : VersionRange) : Bool := r.floating.isSome

/-- Whether two ranges have the same bounds and the same pattern. -/
def same (r s : VersionRange) : Bool :=
  r.min == s.min && r.minInclusive == s.minInclusive && r.max == s.max &&
    r.maxInclusive == s.maxInclusive && r.floating == s.floating

instance : BEq VersionRange := ⟨same⟩

/-- Whether the version is not below the lower bound. -/
def admitsFromBelow (r : VersionRange) (v : Version) : Bool :=
  match r.min with
  | none => true
  | some low => if r.minInclusive then v.compare low != .lt else v.compare low == .gt

/-- Whether the version is not above the upper bound. -/
def admitsFromAbove (r : VersionRange) (v : Version) : Bool :=
  match r.max with
  | none => true
  | some high => if r.maxInclusive then v.compare high != .gt else v.compare high == .lt

/-- Whether the version lies within the bounds. -/
def satisfies (r : VersionRange) (v : Version) : Bool := r.admitsFromBelow v && r.admitsFromAbove v

/-- The bound in its normalized form; nothing when it is missing. -/
def boundText (bound : Option Version) : String := (bound.map Version.normalized).getD ""

/-- The bounds between brackets that say whether they are included. -/
def intervalText (r : VersionRange) : String :=
  (if r.minInclusive && r.min.isSome then "[" else "(") ++ boundText r.min ++ ", " ++ boundText r.max ++
    if r.maxInclusive && r.max.isSome then "]" else ")"

/-- The version that the bounds single out. -/
def singleVersion? (r : VersionRange) : Option Version :=
  match r.min, r.max with
  | some low, some high => if r.minInclusive && r.maxInclusive && low == high then some low else none
  | _, _ => none

/-- The normalized form. -/
def normalized (r : VersionRange) : String :=
  match r.floating with
  | some pattern => "[" ++ pattern ++ ", )"
  | none =>
    match r.singleVersion? with
    | some v => "[" ++ v.normalized ++ "]"
    | none => r.intervalText

/-- Whether the bounds can be compared with versions. -/
def isComparable (r : VersionRange) : Bool := r.min.all Version.isComparable && r.max.all Version.isComparable

/-- Whether normalizing the range compares no label that is too long: two bounds are compared, one is not. -/
def isPrintable (r : VersionRange) : Bool :=
  r.floating.isSome || r.min.isNone || r.max.isNone || r.isComparable

end VersionRange
end PackageGraph
