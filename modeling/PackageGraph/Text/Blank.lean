/-!
# White space

The white space of Unicode, which every reader of user text trims away. The zero-width space and the
byte order mark are not white space.
-/
namespace PackageGraph.Text

/-- Whether the character is white space. -/
def isBlank (c : Char) : Bool :=
  let n := c.toNat
  (0x09 ≤ n && n ≤ 0x0D) || (0x1C ≤ n && n ≤ 0x20) || n == 0x85 || n == 0xA0 || n == 0x1680 ||
    (0x2000 ≤ n && n ≤ 0x200A) || n == 0x2028 || n == 0x2029 || n == 0x202F || n == 0x205F ||
    n == 0x3000

/-- The text from its first character that is not white space on. -/
def trimStart (cs : List Char) : List Char := cs.dropWhile isBlank

/-- The text up to its last character for which `p` fails. -/
def dropEndWhile (p : Char → Bool) (cs : List Char) : List Char := (cs.reverse.dropWhile p).reverse

/-- The text without white space at either end. -/
def trimChars (cs : List Char) : List Char := dropEndWhile isBlank (trimStart cs)

/-- The text without white space at either end. -/
def trim (s : String) : String := .ofList (trimChars s.toList)

/-- Whether the text holds nothing but white space. -/
def isBlankText (s : String) : Bool := s.toList.all isBlank

end PackageGraph.Text
