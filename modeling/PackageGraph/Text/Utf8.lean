/-!
# UTF-8

Text as octets. The decoder is a machine that takes one octet at a time; where the octets break off the form of a
character, the broken part as a whole stands for no character. The strict reading refuses such a part, the
lenient one puts U+FFFD in its place.
-/
namespace PackageGraph.Utf8

/-- A character of which some octets are still to come. -/
structure Pending where
  /-- The bits read so far. -/
  bits : Nat
  /-- The number of octets still to come. -/
  missing : Nat
  /-- The least value of the next octet. -/
  low : Nat
  /-- The greatest value of the next octet. -/
  high : Nat
  deriving DecidableEq, Repr

/-- What an octet at the beginning of a character means. -/
inductive Lead where
  | whole (c : Char)
  | pending (p : Pending)
  | broken

/-- Reads an octet at the beginning of a character. The bounds of the second octet shut out overlong forms,
surrogates and values beyond the last character. -/
def lead (b : Nat) : Lead :=
  if b < 0x80 then .whole (Char.ofNat b)
  else if b < 0xC2 then .broken
  else if b < 0xE0 then .pending ⟨b - 0xC0, 1, 0x80, 0xBF⟩
  else if b < 0xF0 then
    .pending ⟨b - 0xE0, 2, if b = 0xE0 then 0xA0 else 0x80, if b = 0xED then 0x9F else 0xBF⟩
  else if b < 0xF5 then
    .pending ⟨b - 0xF0, 3, if b = 0xF0 then 0x90 else 0x80, if b = 0xF4 then 0x8F else 0xBF⟩
  else .broken

/-- The characters of the octets, with `none` for every broken part. -/
def decodeFrom : Option Pending → List UInt8 → List (Option Char)
  | none, [] => []
  | some _, [] => [none]
  | none, b :: bs =>
    match lead b.toNat with
    | .whole c => some c :: decodeFrom none bs
    | .pending p => decodeFrom (some p) bs
    | .broken => none :: decodeFrom none bs
  | some p, b :: bs =>
    if p.low ≤ b.toNat ∧ b.toNat ≤ p.high then
      let bits := p.bits * 64 + (b.toNat - 0x80)
      if p.missing = 1 then some (Char.ofNat bits) :: decodeFrom none bs
      else decodeFrom (some ⟨bits, p.missing - 1, 0x80, 0xBF⟩) bs
    else
      none :: match lead b.toNat with
        | .whole c => some c :: decodeFrom none bs
        | .pending p => decodeFrom (some p) bs
        | .broken => none :: decodeFrom none bs

/-- The text of the octets, if no part is broken. -/
def decodeChars? (bytes : List UInt8) : Option (List Char) := (decodeFrom none bytes).mapM id

/-- The text of the octets, if no part is broken. -/
def decode? (bytes : List UInt8) : Option String := (decodeChars? bytes).map .ofList

/-- The text of the octets with U+FFFD for every broken part. -/
def decodeLenient (bytes : List UInt8) : String :=
  .ofList ((decodeFrom none bytes).map fun c => c.getD '\uFFFD')

/-- The octets without a byte order mark at the start. -/
def withoutMark : List UInt8 → List UInt8
  | 0xEF :: 0xBB :: 0xBF :: rest => rest
  | bytes => bytes

/-- The octets of a text. -/
def encode (s : String) : List UInt8 := s.toUTF8.toList

end PackageGraph.Utf8
