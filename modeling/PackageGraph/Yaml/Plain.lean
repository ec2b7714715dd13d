import PackageGraph.Yaml.Cursor
/-!
# Text without quotes

Plain text ends where a mapping, a comment or, inside brackets, a bracket or comma begins. It may go on over lines
that are indented far enough; line ends fold as in quoted text.
-/
namespace PackageGraph.Yaml

/-- Characters that mean something inside brackets. -/
def isBracketMark (c : Char) : Bool := c = ',' || c = '[' || c = ']' || c = '\x7b' || c = '\x7d'

/-- Whether plain text ends before a character, seen with the one after it. -/
def endsPlain (inFlow : Bool) (c : Char) (next : Option Char) : Bool :=
  isGap c || (c = ':' && (endsWord next || (inFlow && next.any isBracketMark))) ||
    (inFlow && (isBracketMark c || c = '?'))

/-- The plain text on one line up to a gap. -/
def plainRun (inFlow : Bool) : List Char → List Char
  | [] => []
  | c :: rest => if endsPlain inFlow c rest.head? then [] else c :: plainRun inFlow rest

/-- The line ends that follow plain text, up to the first word after them; no text when a document ends there. -/
def plainBreaks : Nat → Cursor → Option (List Char) × Cursor
  | 0, c => (none, c)
  | fuel + 1, c =>
    match c.skipBlanks.lineBreak? with
    | none => (some [], c.skipBlanks)
    | some (x, c) =>
      if c.isBoundary then (none, c)
      else
        let (more, c) := plainBreaks fuel c
        (more.map (x :: ·), c)

/-- What stands between two words of plain text. -/
structure PlainGap where
  /-- What the gap counts as, if the text goes on after it. -/
  text : List Char
  cursor : Cursor
  /-- Whether a line ended in the gap. -/
  broken : Bool

/-- Reads the gap after a word. -/
def plainGap (fuel : Nat) (c : Cursor) : PlainGap :=
  match c.skipBlanks.lineBreak? with
  | none => ⟨c.run (· == ' '), c.skipBlanks, false⟩
  | some (first, c) =>
    if c.isBoundary then ⟨[], c, true⟩
    else
      match plainBreaks fuel c with
      | (some more, c) => ⟨foldedText first more, c, true⟩
      | (none, c) => ⟨[], c, true⟩

/-- Plain text together with whether a line ended after its last word. -/
structure PlainText where
  text : String
  broken : Bool

/-- Reads words of plain text; the text so far is in reverse and the gap before the next word apart. -/
def plainWords (inFlow : Bool) (indent : Int) : Nat → List Char → PlainGap → PlainText × Cursor
  | 0, before, gap => (⟨.ofList before.reverse, gap.broken⟩, gap.cursor)
  | fuel + 1, before, gap =>
    let c := gap.cursor
    let word := if c.peek 0 == some '#' then [] else plainRun inFlow c.rest
    if word.isEmpty then (⟨.ofList before.reverse, gap.broken⟩, c)
    else
      let before := word.reverse ++ gap.text.reverse ++ before
      let next := plainGap fuel (Cursor.advance word.length c)
      if next.text.isEmpty || next.cursor.peek 0 == some '#' ||
          (!inFlow && (next.cursor.column : Int) < indent) then
        (⟨.ofList before.reverse, next.broken⟩, next.cursor)
      else plainWords inFlow indent fuel before next

/-- Reads plain text; outside of brackets it goes on only on lines indented by more than `indent`. -/
def plainText (inFlow : Bool) (indent : Int) (c : Cursor) : PlainText × Cursor :=
  plainWords inFlow (indent + 1) (c.rest.length + 1) [] ⟨[], c, false⟩

end PackageGraph.Yaml
