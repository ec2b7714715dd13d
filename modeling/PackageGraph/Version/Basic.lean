import PackageGraph.Number.Format
import PackageGraph.Number.Reader
import PackageGraph.Text.LowerCase
/-!
# Package versions

A version has four numbers, release labels and build metadata. Precedence compares the numbers, then puts a
prerelease below the release, then compares the labels: numerals by value and below words, words by their lower
case, a list below every list that it begins. Metadata and the spelling of labels do not count.
-/
namespace PackageGraph

/-- A package version. -/
structure Version where
  major : Nat
  minor : Nat
  patch : Nat
  revision : Nat
  labels : List String
  metadata : Option String
  deriving DecidableEq, Inhabited

/-- What a release label counts as in comparisons. -/
inductive ReleaseLabel where
  | numeral (n : Nat)
  | word (letters : List Char)
  deriving DecidableEq

namespace ReleaseLabel

/-- Whether the label is a numeral. -/
def isNumeral (label : List Char) : Bool := !label.isEmpty && label.all Char.isDigit

/-- The label without regard to its spelling. -/
def ofChars (label : List Char) : ReleaseLabel :=
  if isNumeral label then .numeral (Text.digitsValue label) else .word (Text.lowerChars label)

/-- What a label counts as, as a text. -/
def text : ReleaseLabel → String
  | .numeral n => natText n
  | .word letters => .ofList letters

/-- The order of two words, character by character. -/
def compareWords : List Char → List Char → Ordering
  | [], [] => .eq
  | [], _ :: _ => .lt
  | _ :: _, [] => .gt
  | a :: as, b :: bs => (compare a.toNat b.toNat).then (compareWords as bs)

/-- Precedence of two labels. -/
def compare : ReleaseLabel → ReleaseLabel → Ordering
  | .numeral m, .numeral n => Ord.compare m n
  | .numeral _, .word _ => .lt
  | .word _, .numeral _ => .gt
  | .word v, .word w => compareWords v w

/-- Precedence of two lists of labels. -/
def compareLists : List ReleaseLabel → List ReleaseLabel → Ordering
  | [], [] => .eq
  | [], _ :: _ => .lt
  | _ :: _, [] => .gt
  | a :: as, b :: bs => (compare a b).then (compareLists as bs)

end ReleaseLabel

namespace Version

/-- Whether the version precedes the release with its numbers. -/
def isPrerelease (v : Version) : Bool := !v.labels.isEmpty

/-- The labels without regard to their spelling. -/
def releaseLabels (v : Version) : List ReleaseLabel := v.labels.map fun l => .ofChars l.toList

/-- Whether every numeral among the labels is short enough to be compared. -/
def isComparable (v : Version) : Bool :=
  v.labels.all fun l => !ReleaseLabel.isNumeral l.toList || l.toList.length ≤ digitLimit

/-- Precedence of the labels; a release comes after its prereleases. -/
def compareLabels (v w : Version) : Ordering :=
  match v.labels, w.labels with
  | [], [] => .eq
  | [], _ :: _ => .gt
  | _ :: _, [] => .lt
  | _ :: _, _ :: _ => ReleaseLabel.compareLists v.releaseLabels w.releaseLabels

/-- Precedence of two versions. -/
def compare (v w : Version) : Ordering :=
  (Ord.compare v.major w.major).then <| (Ord.compare v.minor w.minor).then <|
    (Ord.compare v.patch w.patch).then <| (Ord.compare v.revision w.revision).then <| compareLabels v w

/-- Whether neither version precedes the other. -/
def same (v w : Version) : Bool := compare v w == .eq

instance : BEq Version := ⟨same⟩

/-- Whether the version is a release, as a number. -/
def stage (v : Version) : Nat := if v.labels.isEmpty then 1 else 0

/-- What a hash of the version is made from: the numbers, the stage and what the labels count as. -/
def hashKey (v : Version) : (Nat × Nat × Nat × Nat × Nat) × List String :=
  ((v.major, v.minor, v.patch, v.revision, v.stage), v.releaseLabels.map ReleaseLabel.text)

instance : Hashable Version := ⟨fun v => hash v.hashKey⟩

/-- `major.minor.patch[.revision][-labels]`, without metadata. -/
def normalized (v : Version) : String :=
  natText v.major ++ "." ++ natText v.minor ++ "." ++ natText v.patch ++
    (if v.revision = 0 then "" else "." ++ natText v.revision) ++
    if v.labels.isEmpty then "" else "-" ++ Text.join "." v.labels

end Version
end PackageGraph
