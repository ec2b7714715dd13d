import PackageGraph.Version.Parser
import PackageGraph.VersionRange.Basic
/-!
# Reading version ranges

A range is written as a version (from there on), as an interval between brackets, or as a floating pattern that
ends in `*`. The empty text and a bare `*` admit every version.
-/
namespace PackageGraph.VersionRange

open Text

/-- The range of a pattern whose lowest version is known. -/
def floatingFrom (low : Version) (pattern : List Char) : VersionRange :=
  ⟨some low, true, none, false, some (.ofList pattern), some (.ofList pattern)⟩

/-- The text before a trailing `*`, if that is the only one. -/
def beforeStar? (cs : List Char) : Option (List Char) :=
  match cs.reverse with
  | '*' :: rest => if rest.contains '*' then none else some rest.reverse
  | _ => none

/-- The lowest version that a pattern admits: a label that floats as a whole begins at `0`, and so does a
number. -/
def lowestText? (pattern : List Char) : Option (List Char) :=
  match cut '-' pattern with
  | (core, some label) =>
    if core.contains '*' then none
    else
      (beforeStar? label).map fun before =>
        let kept := dropEndWhile (· == '.') before
        core ++ '-' :: if kept.isEmpty then ['0'] else kept
  | (_, none) =>
    match beforeStar? pattern with
    | none => none
    | some before =>
      match before.reverse with
      | '.' :: rest => some rest.reverse
      | _ => none

/-- Reads a floating pattern. -/
def parseFloating (pattern : List Char) : Except VersionError VersionRange :=
  if pattern = ['*'] then .ok { all with written := some "*" }
  else
    match lowestText? pattern with
    | none => .error (.invalidFloating (.ofList pattern))
    | some low => (Version.parse (.ofList low)).map (floatingFrom · pattern)

/-- A bound of an interval; white space alone stands for a missing bound. -/
def parseBound (cs : List Char) : Except VersionError (Option Version) :=
  if cs.all isBlank then .ok none else (Version.parse (.ofList cs)).map some

/-- Refuses bounds between which no version lies. -/
def checkBounds (text : String) (inclusive : Bool) : Option Version → Option Version → Except VersionError Unit
  | some low, some high =>
    if low.isComparable && high.isComparable then
      match high.compare low with
      | .lt => .error (.crossedBounds text)
      | .eq => if inclusive then .ok () else .error (.emptyInterval text)
      | .gt => .ok ()
    else .error .tooLong
  | _, _ => .ok ()

/-- Reads the two bounds of an interval. -/
def parseInterval (text : String) (written : List Char) (minInclusive maxInclusive : Bool)
    (left right : List Char) : Except VersionError VersionRange := do
  let low ← parseBound left
  let high ← parseBound right
  checkBounds text (minInclusive && maxInclusive) low high
  return ⟨low, minInclusive && low.isSome, high, maxInclusive && high.isSome, none, some (.ofList written)⟩

/-- Reads what stands between the brackets of an interval. -/
def parseBracketed (text : String) (written : List Char) (minInclusive maxInclusive : Bool)
    (inner : List Char) : Except VersionError VersionRange :=
  match cut ',' inner with
  | (_, none) =>
    if minInclusive && maxInclusive then
      (Version.parse (.ofList inner)).map (exactly · (some (.ofList written)))
    else .error (.invalidRange text)
  | (left, some right) =>
    if right.contains ',' then .error (.invalidRange text)
    else if left.contains '*' && minInclusive && right.all isBlank then parseFloating (trimChars left)
    else parseInterval text written minInclusive maxInclusive left right

/-- Whether an opening bracket includes the bound after it; nothing when it is no opening bracket. -/
def opening? (c : Char) : Option Bool := if c = '[' then some true else if c = '(' then some false else none

/-- Whether a closing bracket includes the bound before it; nothing when it is no closing bracket. -/
def closing? (c : Char) : Option Bool := if c = ']' then some true else if c = ')' then some false else none

/-- Reads a range from a text without white space around it. -/
def parseTrimmed (text : String) : List Char → Except VersionError VersionRange
  | [] => .ok all
  | c :: cs =>
    match opening? c with
    | none =>
      if (c :: cs).contains '*' then parseFloating (c :: cs)
      else (Version.parse (.ofList (c :: cs))).map (atLeast · (some (.ofList (c :: cs))))
    | some minInclusive =>
      match cs.reverse with
      | last :: inner =>
        match closing? last with
        | some maxInclusive =>
          if inner.isEmpty then .error (.invalidRange text)
          else parseBracketed text (c :: cs) minInclusive maxInclusive inner.reverse
        | none => .error (.invalidRange text)
      | [] => .error (.invalidRange text)

/-- Reads a range; white space around it is passed over. -/
def parse (text : String) : Except VersionError VersionRange := parseTrimmed text (trimChars text.toList)

/-- Reads a range; a text that is none admits every version. -/
def parseOrAll (text : String) : VersionRange := (parse text).toOption.getD all

end PackageGraph.VersionRange
