import PackageGraph.Fault
import PackageGraph.Text.Utf8
import PackageGraph.Xml.Characters
import PackageGraph.Xml.CodePage
/-!
# Encodings of XML documents

A document is UTF-8 unless a byte order mark or its declaration says otherwise. Line ends of every kind count as
one line feed.
-/
namespace PackageGraph.Xml

/-- The encodings that a document may declare. -/
inductive Encoding where
  | utf8
  | utf16 (bigEndian : Bool)
  | octets (page : CodePage)

/-! ## The declaration -/

/-- Whether the character may stand in a value of the declaration. -/
def isDeclarationChar (c : Char) : Bool := c.isAlphanum || c = '.' || c = '-' || c = '_'

/-- A setting of the declaration after white space: its name and its value. -/
def setting? (cs : List Char) : Option ((List Char × List Char) × List Char) := do
  let rest ← afterSpace? cs
  let name := rest.takeWhile fun c => c ≠ '=' && !isSpace c
  match skipSpace (rest.drop name.length) with
  | '=' :: rest =>
    let (value, rest) ← literal? (skipSpace rest)
    if name.isEmpty || !value.all isDeclarationChar then none else return ((name, value), rest)
  | _ => none

/-- The settings of the declaration up to its end. -/
def settings? : Nat → List Char → Option (List (List Char × List Char))
  | 0, _ => none
  | fuel + 1, cs =>
    if skipSpace cs = [] then some []
    else do
      let (s, rest) ← setting? cs
      return s :: (← settings? fuel rest)

/-- Whether a value may name an encoding. -/
def isEncodingName (value : List Char) : Bool := (value.head?.map Char.isAlpha).getD false

/-- Whether a document stands alone by the value for it. -/
def standalone? (value : List Char) : Option Bool :=
  if value = "yes".toList then some true else if value = "no".toList then some false else none

/-- What a declaration says of its document. -/
structure DocumentDeclaration where
  /-- The name of the encoding. -/
  encoding : Option (List Char)
  /-- Whether the document stands alone. -/
  standsAlone : Bool
  deriving DecidableEq

/-- What the settings of a declaration say: the version comes first, then the encoding, then whether the document
stands alone. -/
def DocumentDeclaration.ofSettings? (settings : List (List Char × List Char)) : Option DocumentDeclaration :=
  match settings.map fun (name, value) => (String.ofList name, value) with
  | [("version", _)] => some ⟨none, false⟩
  | [("version", _), ("encoding", e)] => if isEncodingName e then some ⟨some e, false⟩ else none
  | [("version", _), ("standalone", s)] => (standalone? s).map fun alone => ⟨none, alone⟩
  | [("version", _), ("encoding", e), ("standalone", s)] =>
    if isEncodingName e then (standalone? s).map fun alone => ⟨some e, alone⟩ else none
  | _ => none

/-- The content of the declaration and the document after it; nothing when there is none. -/
def declaration? (cs : List Char) : Option (List Char × List Char) := do
  let rest ← afterWord? "<?xml" cs
  let _ ← afterSpace? rest
  cutAt? "?>".toList rest

/-! ## Octets -/

/-- The encoding that the first octets show, and the octets after a byte order mark. -/
def detect : List UInt8 → Encoding × List UInt8
  | 0xEF :: 0xBB :: 0xBF :: rest => (.utf8, rest)
  | 0xFE :: 0xFF :: rest => (.utf16 true, rest)
  | 0xFF :: 0xFE :: rest => (.utf16 false, rest)
  | 0x00 :: rest => (.utf16 true, 0x00 :: rest)
  | b :: 0x00 :: rest => (.utf16 false, b :: 0x00 :: rest)
  | bytes => (.utf8, bytes)

/-- The code units of octets in pairs. -/
def units? (bigEndian : Bool) : List UInt8 → Option (List Nat)
  | [] => some []
  | [_] => none
  | a :: b :: rest =>
    (units? bigEndian rest).map (((if bigEndian then a.toNat * 256 + b.toNat else b.toNat * 256 + a.toNat) :: ·))

/-- The characters of code units. Of the second unit of a character the last ten bits count. -/
def unitChars? : List Nat → Option (List Char)
  | [] => some []
  | u :: rest =>
    if u < 0xD800 ∨ 0xE000 ≤ u then (unitChars? rest).map (Char.ofNat u :: ·)
    else if 0xDC00 ≤ u then none
    else
      match rest with
      | v :: rest => (unitChars? rest).map (Char.ofNat (0x10000 + (u - 0xD800) * 0x400 + v % 0x400) :: ·)
      | [] => none

/-- The characters of octets that stand for one character each. -/
def octetChars (bytes : List UInt8) : List Char := bytes.map fun b => Char.ofNat b.toNat

/-- The characters of a document as far as its declaration goes, which is in ASCII. -/
def Encoding.sample : Encoding → List UInt8 → List Char
  | .utf16 bigEndian, bytes => ((units? bigEndian (bytes.take (bytes.length / 2 * 2))).getD []).map Char.ofNat
  | _, bytes => octetChars bytes

/-- The characters of octets in an encoding. -/
def Encoding.decode? : Encoding → List UInt8 → Option (List Char)
  | .utf8, bytes => Utf8.decodeChars? bytes
  | .utf16 bigEndian, bytes => (units? bigEndian bytes).bind unitChars?
  | .octets page, bytes => page.decode? bytes

/-- The code page with a name, which has to hold the characters of markup where ASCII has them. -/
def codePage (name : List Char) : Except Fault CodePage :=
  let key := encodingKey name
  match CodePage.named? key with
  | some page => .ok page
  | none =>
    if isListed wideNames wideAliases key then .error .unreadable
    else if isListed foreignNames foreignAliases key then .error .markup
    else .error .unknownEncoding

/-- The encoding that a document is read in when it begins in one encoding and names another. Two octets a unit
cannot turn into one, nor one into two; a spelling of UTF-8 other than the exact one admits ASCII alone. -/
def Encoding.declared (detected : Encoding) (name : List Char) : Except Fault Encoding :=
  let exact := String.ofList (name.map Char.toUpper)
  match detected with
  | .utf16 bigEndian =>
    if exact = "UTF-16" ∨ exact = (if bigEndian then "UTF-16BE" else "UTF-16LE") then .ok detected
    else if ["UTF-8", "UTF-16BE", "UTF-16LE"].contains exact then .error .markup
    else (codePage name).bind fun _ => .error .markup
  | _ =>
    if exact = "UTF-8" then .ok .utf8
    else if ["UTF-16", "UTF-16BE", "UTF-16LE"].contains exact then .error .markup
    else .octets <$> codePage name

/-- The text with a line feed for every kind of line end. -/
def normalizeLines : List Char → List Char
  | '\r' :: '\n' :: cs => '\n' :: normalizeLines cs
  | '\r' :: cs => '\n' :: normalizeLines cs
  | c :: cs => c :: normalizeLines cs
  | [] => []

/-- The text of a document after its declaration, and whether the document stands alone. -/
def documentText (bytes : List UInt8) : Except Fault (List Char × Bool) := do
  let (detected, bytes) := detect bytes
  let declared ← match declaration? (detected.sample bytes) with
    | none => .ok ⟨none, false⟩
    | some (content, _) =>
      match (settings? (content.length + 1) content).bind DocumentDeclaration.ofSettings? with
      | none => .error .markup
      | some declared => .ok declared
  let encoding ← declared.encoding.elim (.ok detected) detected.declared
  match encoding.decode? bytes with
  | none => .error .markup
  | some cs =>
    if !cs.all isDocumentChar then .error .markup
    else
      let text := match declaration? cs with
        | none => cs
        | some (_, rest) => rest
      .ok (normalizeLines text, declared.standsAlone)

end PackageGraph.Xml
