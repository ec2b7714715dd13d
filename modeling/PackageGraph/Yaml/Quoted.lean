import PackageGraph.Json.Reader
import PackageGraph.Yaml.Cursor
/-!
# Quoted text

Text between single quotes, in which two quotes stand for one, and text between double quotes, in which a
backslash begins an escape. Either may run over several lines: a single line end counts as a blank, of several the
first does not count.
-/
namespace PackageGraph.Yaml

/-- The characters that a single letter stands for after a backslash. -/
def escapes : List (Char × Char) := [
  ('0', '\x00'), ('a', '\x07'), ('b', '\x08'), ('t', '\t'), ('\t', '\t'), ('n', '\n'), ('v', '\x0b'),
  ('f', '\x0c'), ('r', '\r'), ('e', '\x1b'), (' ', ' '), ('"', '"'), ('\\', '\\'), ('/', '/'), ('N', '\x85'),
  ('_', '\xa0'), ('L', '\u2028'), ('P', '\u2029')]

/-- How many digits follow a letter that begins a character code. -/
def codeLength? (c : Char) : Option Nat :=
  if c = 'x' then some 2 else if c = 'u' then some 4 else if c = 'U' then some 8 else none

/-- The character with a code; codes beyond the last character are refused by their size. -/
def codeChar (code : Nat) : Except Fault Char :=
  if 0x80000000 ≤ code then .error .overflow
  else if 0x10FFFF < code then .error .unreadable
  else .ok (Text.charOfCode code)

/-- The line ends that follow, with the blanks at the beginning of each line passed over. -/
def foldedBreaks : Nat → Cursor → Reading (List Char)
  | 0, _ => refuse
  | fuel + 1, c =>
    if c.isBoundary then refuse
    else
      let c := c.skip fun x => x == ' ' || x == '\t'
      match c.lineBreak? with
      | none => .ok ([], c)
      | some (x, c) => (foldedBreaks fuel c).map fun (more, c) => (x :: more, c)

/-- The text of an escape, from after the backslash. -/
def escape (fuel : Nat) (c : Cursor) : Reading (List Char) :=
  match c.rest with
  | [] => refuse
  | x :: _ =>
    match escapes.find? fun (letter, _) => letter == x with
    | some (_, char) => .ok ([char], c.step)
    | none =>
      match codeLength? x with
      | some count =>
        let digits := (c.step.rest.take count).filterMap Json.hexDigit?
        if digits.length < count then refuse
        else
          let code := digits.foldl (fun n d => 16 * n + d) 0
          (codeChar code).map fun char => ([char], Cursor.advance count c.step)
      | none => if isBreak x then foldedBreaks fuel c.step else refuse

/-- Reads up to the closing quote; the text so far is in reverse. -/
def quotedBody (double : Bool) : Nat → List Char → Cursor → Reading String
  | 0, _, _ => refuse
  | fuel + 1, before, c =>
    match c.rest with
    | [] => refuse
    | x :: rest =>
      if x = (if double then '"' else '\'') then
        if !double && rest.head? == some '\'' then quotedBody double fuel ('\'' :: before) c.step.step
        else .ok (.ofList before.reverse, c.step)
      else if double && x = '\\' then
        match escape fuel c.step with
        | .error f => .error f
        | .ok (text, c) => quotedBody double fuel (text.reverse ++ before) c
      else if isGap x then
        let blanks := c.run fun x => x == ' ' || x == '\t'
        let c := Cursor.advance blanks.length c
        match c.lineBreak? with
        | none => quotedBody double fuel (blanks.reverse ++ before) c
        | some (first, c) =>
          match foldedBreaks fuel c with
          | .error f => .error f
          | .ok (more, c) => quotedBody double fuel ((foldedText first more).reverse ++ before) c
      else quotedBody double fuel (x :: before) c.step

/-- Reads quoted text from its opening quote on. -/
def quotedText (c : Cursor) : Reading String :=
  quotedBody (c.peek 0 == some '"') (c.rest.length + 1) [] c.step

end PackageGraph.Yaml
