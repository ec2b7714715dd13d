import PackageGraph.Yaml.Cursor
/-!
# Block text

Text that is set off by its indentation, either as it stands or with line ends folded. Its header may say how far
it is indented and what becomes of the line ends after it.
-/
namespace PackageGraph.Yaml

/-- What becomes of the line ends after block text. -/
inductive Chomping where
  /-- None is kept. -/
  | strip
  /-- The first is kept. -/
  | clip
  /-- All are kept. -/
  | keep
  deriving DecidableEq

/-- The header of block text. -/
structure BlockHeader where
  chomping : Chomping
  indentation : Option Nat

/-- The chomping that a character asks for. -/
def chomping? (c : Char) : Option Chomping :=
  if c = '+' then some .keep else if c = '-' then some .strip else none

/-- The indentation that a character asks for; zero is refused. -/
def indentation? (c : Char) : Option (Except Fault Nat) :=
  if c.isDigit then some (if c = '0' then refuse else .ok (c.toNat - '0'.toNat)) else none

/-- Reads an indentation if there is one. -/
def headerIndentation (c : Cursor) : Reading (Option Nat) :=
  match (c.peek 0).bind indentation? with
  | none => .ok (none, c)
  | some (.error f) => .error f
  | some (.ok n) => .ok (some n, c.step)

/-- Passes over blanks and a comment up to the end of the line. -/
def restOfLine (c : Cursor) : Except Fault Cursor :=
  let c := c.skipBlanks
  let c := if c.peek 0 == some '#' then c.skip (!isBreak ·) else c
  match c.lineBreak? with
  | some (_, c) => .ok c
  | none => if c.rest.isEmpty then .ok c else refuse

/-- Reads the header and the rest of its line; chomping and indentation come in either order. -/
def blockHeader (c : Cursor) : Except Fault (BlockHeader × Cursor) := do
  let (header, c) ← match (c.peek 0).bind chomping? with
    | some chomping => (headerIndentation c.step).map fun (n, c) => (BlockHeader.mk chomping n, c)
    | none => do
      let (n, c) ← headerIndentation c
      match n, (c.peek 0).bind chomping? with
      | some _, some chomping => .ok (⟨chomping, n⟩, c.step)
      | _, _ => .ok (⟨.clip, n⟩, c)
  if (c.peek 0).all fun x => x == ' ' || isBreak x then return (header, ← restOfLine c) else refuse

/-- The empty lines before block text whose indentation is not known, and the greatest column of a blank in
them. -/
def leadingLines : Nat → Nat → Cursor → (List Char × Nat) × Cursor
  | 0, greatest, c => (([], greatest), c)
  | fuel + 1, greatest, c =>
    let c := c.skipBlanks
    let greatest := max greatest c.column
    match c.lineBreak? with
    | none => (([], greatest), c)
    | some (x, c) =>
      let ((more, greatest), c) := leadingLines fuel greatest c
      ((x :: more, greatest), c)

/-- The place after the blanks to the left of a column. -/
def skipIndentation (indent : Nat) (c : Cursor) : Cursor :=
  Cursor.advance (min (c.run (· == ' ')).length (indent - c.column)) c

/-- The empty lines between lines of block text, and the place where the next line of it begins. -/
def blockBreaks (indent : Nat) : Nat → Cursor → List Char × Cursor
  | 0, c => ([], c)
  | fuel + 1, c =>
    let c := skipIndentation indent c
    match c.lineBreak? with
    | none => ([], c)
    | some (x, c) =>
      let (more, c) := blockBreaks indent fuel c
      (x :: more, c)

/-- What stands between two lines of block text: in folded text a line end between two lines that begin with a
word counts as a blank. -/
def betweenLines (folded wordBefore wordAfter : Bool) (ending : Char) (breaks : List Char) : List Char :=
  if folded && ending = '\n' && wordBefore && wordAfter then if breaks.isEmpty then [' '] else []
  else [ending]

/-- The line ends after the last line. -/
def ending (chomping : Chomping) (last : List Char) (breaks : List Char) : List Char :=
  match chomping with
  | .strip => []
  | .clip => last
  | .keep => last ++ breaks

/-- Whether a line begins with a word. -/
def beginsWithWord (c : Cursor) : Bool := (c.peek 0).all fun x => x != ' ' && x != '\t'

/-- Reads the lines of block text from a line on, given the empty lines before it and the end of the line before
them. -/
def blockLines (folded : Bool) (chomping : Chomping) (indent : Nat) :
    Nat → List Char → List Char → Cursor → List Char × Cursor
  | 0, last, breaks, c => (ending chomping last breaks, c)
  | fuel + 1, last, breaks, c =>
    if c.column = indent && !c.rest.isEmpty then
      let line := c.run (!isBreak ·)
      let after := Cursor.advance line.length c
      match after.lineBreak? with
      | none => (breaks ++ line, after)
      | some (x, next) =>
        let (nextBreaks, next) := blockBreaks indent fuel next
        if next.column = indent && !next.rest.isEmpty then
          let gap := betweenLines folded (beginsWithWord c) (beginsWithWord next) x nextBreaks
          let (more, next) := blockLines folded chomping indent fuel [x] nextBreaks next
          (breaks ++ line ++ gap ++ more, next)
        else (breaks ++ line ++ ending chomping [x] nextBreaks, next)
    else (ending chomping last breaks, c)

/-- Reads block text from its indicator on. Its lines are indented further than `indent`. -/
def blockText (folded : Bool) (indent : Int) (c : Cursor) : Except Fault (String × Cursor) := do
  let fuel := c.rest.length + 1
  let (header, c) ← blockHeader c.step
  let least := max 1 (indent + 1).toNat
  let ((breaks, column), c) := match header.indentation with
    | none =>
      let ((breaks, greatest), c) := leadingLines fuel 0 c
      ((breaks, max least greatest), c)
    | some n =>
      let column := least + n - 1
      let (breaks, c) := blockBreaks column fuel c
      ((breaks, column), c)
  let (text, c) := blockLines folded header.chomping column fuel [] breaks c
  return (.ofList text, c)

end PackageGraph.Yaml
