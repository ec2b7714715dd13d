import PackageGraph.Version.Basic
/-!
# Reading versions

A version is written as one to four numbers between points, then optional labels after a hyphen and optional
metadata after a plus sign. Digits of every script count in the numbers; labels and metadata are ASCII.
-/
namespace PackageGraph

/-- Why a text is no version, or no range of versions. -/
inductive VersionError where
  /-- There is no text. -/
  | missing
  /-- The text does not have the form of a version. -/
  | invalid (text : String)
  /-- A number or numeral has more digits than the limit. -/
  | tooLong
  /-- The text does not have the form of a range. -/
  | invalidRange (text : String)
  /-- The wildcard of a floating range is not at its end. -/
  | invalidFloating (text : String)
  /-- The upper bound precedes the lower bound. -/
  | crossedBounds (text : String)
  /-- The bounds are equal and one of them is excluded. -/
  | emptyInterval (text : String)
  deriving DecidableEq, Repr

namespace VersionError

/-- The wording of the error; a number that is too long is reported by the reader of numbers instead. -/
def message? : VersionError → Option String
  | .missing => some "Version string is required"
  | .invalid text => some ("Invalid version string '" ++ text ++ "'")
  | .tooLong => none
  | .invalidRange text => some ("Invalid version range '" ++ text ++ "'")
  | .invalidFloating text => some ("Invalid floating range '" ++ text ++ "'")
  | .crossedBounds text => some ("Invalid version range '" ++ text ++ "': upper bound below lower bound")
  | .emptyInterval text => some ("Invalid version range '" ++ text ++ "': empty interval")

end VersionError

namespace Version

open Text

/-- Whether the character may stand in a label or in metadata. -/
def isLabelChar (c : Char) : Bool := c.isAlphanum || c = '-'

/-- Names between points, none of them empty. -/
def names? (cs : List Char) : Option (List (List Char)) :=
  let names := splitOn '.' cs
  if names.all fun n => !n.isEmpty && n.all isLabelChar then some names else none

/-- One to four numbers between points, as runs of digits. -/
def numerals? (cs : List Char) : Option (List (List Char)) :=
  let numerals := splitOn '.' cs
  if numerals.length ≤ 4 ∧ (numerals.all fun n => !n.isEmpty && n.all isDigit) then some numerals else none

/-- The text of a version taken apart. -/
structure Spelling where
  numerals : List (List Char)
  labels : List (List Char)
  metadata : Option (List Char)
  deriving DecidableEq

/-- Whether the character begins the labels or the metadata. -/
def endsNumbers (c : Char) : Bool := c = '-' || c = '+'

/-- Whether the character begins the metadata. -/
def endsLabels (c : Char) : Bool := c = '+'

/-- The metadata with its plus sign; nothing when there is no text. -/
def metadata? : List Char → Option (Option (List Char))
  | [] => some none
  | '+' :: cs => (names? cs).map fun _ => some cs
  | _ => none

/-- Takes the text of a version apart. -/
def spelling? (cs : List Char) : Option Spelling := do
  let numerals ← numerals? (cs.takeWhile (!endsNumbers ·))
  match cs.dropWhile (!endsNumbers ·) with
  | '-' :: rest =>
    let labels ← names? (rest.takeWhile (!endsLabels ·))
    let metadata ← metadata? (rest.dropWhile (!endsLabels ·))
    return ⟨numerals, labels, metadata⟩
  | rest =>
    let metadata ← metadata? rest
    return ⟨numerals, [], metadata⟩

/-- The version with this spelling; missing numbers are zero. -/
def ofSpelling (s : Spelling) : Version :=
  let number (i : Nat) : Nat := ((s.numerals[i]?).map digitsValue).getD 0
  ⟨number 0, number 1, number 2, number 3, s.labels.map .ofList, s.metadata.map .ofList⟩

/-- Reads a version; white space around it is passed over. -/
def parse (text : String) : Except VersionError Version :=
  match spelling? (trimChars text.toList) with
  | none => .error (.invalid text)
  | some s => if s.numerals.all (·.length ≤ digitLimit) then .ok (ofSpelling s) else .error .tooLong

/-- Reads a version that may be missing. -/
def parseRequired : Option String → Except VersionError Version
  | none => .error .missing
  | some text => parse text

/-- Reads a version, without a reason when there is none. -/
def parse? (text : String) : Option Version := (parse text).toOption

end Version
end PackageGraph
