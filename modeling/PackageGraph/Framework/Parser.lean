import PackageGraph.Framework.Basic
import PackageGraph.Number.Reader
/-!
# Reading framework names

A name with a comma or a leading point is a full name, every other name a short one. What is not recognised is
kept as it was written, so that no project loses a framework.
-/
namespace PackageGraph.Moniker

open Text

/-- A version with at least two components and no zeros after the second. -/
def normalizeVersion (components : List Int) : List Int :=
  let filled := components ++ List.replicate (2 - components.length) 0
  filled.take 2 ++ ((filled.drop 2).reverse.dropWhile (· == 0)).reverse

/-- A component of a version as a number. -/
def component? (cs : List Char) : Option Int := (Number.int? cs).toOption

/-- The value of one digit. -/
def digitComponent (c : Char) : Int := ((asciiDigit? c).getD 0 : Nat)

/-- The version in a short name. Without points each digit is a component, but a leading `10` is one. -/
def shortVersion? (cs : List Char) : Option (List Int) :=
  if cs.contains '.' then
    (((splitOn '.' cs).filter fun p => !p.isEmpty).mapM component?).map normalizeVersion
  else
    match cs with
    | '1' :: '0' :: rest => some (normalizeVersion (10 :: rest.map digitComponent))
    | cs => some (normalizeVersion (cs.map digitComponent))

/-- The version in a full name, after an optional `v`. -/
def fullVersion? (cs : List Char) : Option (List Int) :=
  ((splitOn '.' (cs.dropWhile fun c => c = 'v' || c = 'V')).mapM component?).map normalizeVersion

/-- A short name taken apart. -/
structure ShortSpelling where
  letters : List Char
  version : List Char
  suffix : List Char
  deriving DecidableEq

/-- Whether the character may stand before the version of a short name. -/
def isShortLetter (c : Char) : Bool := c.isAlpha || c = '.'

/-- Whether the character may stand in the version of a short name. -/
def isVersionChar (c : Char) : Bool := c.isDigit || c = '.'

/-- The suffix of a short name with its hyphen; nothing when there is no text. -/
def suffix? : List Char → Option (List Char)
  | [] => some []
  | '-' :: cs => if cs.isEmpty || cs.contains '\n' then none else some cs
  | _ => none

/-- Takes a short name in lower case apart; a name without version is none. -/
def shortSpelling? (cs : List Char) : Option ShortSpelling :=
  let letters := cs.takeWhile isShortLetter
  let rest := cs.dropWhile isShortLetter
  let version := rest.takeWhile isVersionChar
  if letters.isEmpty || version.isEmpty then none
  else (suffix? (rest.dropWhile isVersionChar)).map fun suffix => ⟨letters, version, suffix⟩

/-- The framework of a short name taken apart. From version 5 on `net` is the modern framework, whose suffix
names a platform. -/
def ofShortSpelling? (s : ShortSpelling) : Option Moniker := do
  let identifier ← identifierOf? (.ofList s.letters)
  let version ← shortVersion? s.version
  let suffix := String.ofList s.suffix
  if identifier = netFramework ∧ 5 ≤ version.headD 0 then
    return ⟨netCoreApp, version, "", suffix⟩
  else return ⟨identifier, version, suffix, ""⟩

/-- The beginning of a portable profile's short name. -/
def portableMark : List Char := "portable-".toList

/-- Reads a short name. -/
def parseShort (text : String) : Moniker :=
  let cs := trimChars text.toList
  let lowered := lowerChars cs
  if portableMark.isPrefixOf lowered then
    ⟨netPortable, [], .ofList (cs.drop portableMark.length), ""⟩
  else ((shortSpelling? lowered).bind ofShortSpelling?).getD (verbatim (.ofList cs))

/-- A `key=value` part of a full name. -/
inductive FullPart where
  | version (digits : List Char)
  | profile (name : List Char)
  | other
  deriving DecidableEq

/-- Reads a part of a full name after the identifier. -/
def FullPart.ofChars (cs : List Char) : FullPart :=
  let (key, value) := cut '=' cs
  let name := String.ofList (lowerChars (trimChars key))
  let value := trimChars (value.getD [])
  if name = "version" then .version value else if name = "profile" then .profile value else .other

/-- Version and profile that the parts of a full name give, the last of each; nothing when a version is
unreadable. -/
def readParts? : List FullPart → List Int × String → Option (List Int × String)
  | [], state => some state
  | .version digits :: parts, (_, profile) => (fullVersion? digits).bind fun v => readParts? parts (v, profile)
  | .profile name :: parts, (version, _) => readParts? parts (version, .ofList name)
  | .other :: parts, state => readParts? parts state

/-- Reads a full name. -/
def parseFull (text : String) : Moniker :=
  let kept := verbatim (trim text)
  match (splitOn ',' text.toList).map trimChars with
  | [] => kept
  | identifier :: parts =>
    match readParts? (parts.map FullPart.ofChars) ([], "") with
    | none => kept
    | some (version, profile) =>
      if identifier.isEmpty then kept else ⟨.ofList identifier, version, profile, ""⟩

/-- Reads either spelling; white space alone names no framework. -/
def parse? (text : String) : Option Moniker :=
  match trimChars text.toList with
  | [] => none
  | c :: cs =>
    let trimmed := String.ofList (c :: cs)
    if c = '.' || (c :: cs).contains ',' then some (parseFull trimmed) else some (parseShort trimmed)

/-- Reads the frameworks between semicolons; empty entries are passed over. -/
def parseList (text : String) : List Moniker := (fields ';' text).filterMap parse?

end PackageGraph.Moniker
