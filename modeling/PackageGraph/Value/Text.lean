import PackageGraph.Number.Reader
import PackageGraph.Text.Quoted
import PackageGraph.Text.Split
import PackageGraph.Value.Basic
/-!
# Text of dynamic values

Messages show a value in its inspected form, in which texts are quoted and every other value shows how it is
built. Where a value stands for a name or a version, its plain form is taken: a text stands for itself, dates
and identifiers are written in their usual form, and only the inside of a list or mapping is inspected.
-/
namespace PackageGraph

/-- The inspected form of an offset from universal time, kept as whole days and the seconds above them. -/
def Timestamp.inspectOffset (minutes : Int) : String :=
  if minutes = 0 then "datetime.timezone.utc"
  else
    let days := minutes.fdiv 1440
    let seconds := (minutes.fmod 1440) * 60
    let delta :=
      if days = 0 then "seconds=" ++ intText seconds
      else if seconds = 0 then "days=" ++ intText days
      else "days=" ++ intText days ++ ", seconds=" ++ intText seconds
    "datetime.timezone(datetime.timedelta(" ++ delta ++ "))"

/-- The inspected form of a date. -/
def Date.inspect (d : Date) : String :=
  "datetime.date(" ++ natText d.year ++ ", " ++ natText d.month ++ ", " ++ natText d.day ++ ")"

/-- The inspected form of a date and time: seconds and their fraction are left out when both are zero. -/
def Timestamp.inspect (t : Timestamp) : String :=
  let parts := [t.date.year, t.date.month, t.date.day, t.hour, t.minute] ++
    (if t.second = 0 ∧ t.micros = 0 then [] else [t.second]) ++ if t.micros = 0 then [] else [t.micros]
  let zone := match t.offset with
    | none => []
    | some minutes => ["tzinfo=" ++ Timestamp.inspectOffset minutes]
  "datetime.datetime(" ++ Text.join ", " (parts.map natText ++ zone) ++ ")"

/-- An octet inside a text quoted with `quote`. -/
def quotedOctet (quote : Char) (b : UInt8) : List Char :=
  let c := Char.ofNat b.toNat
  if c = quote ∨ c = '\\' then ['\\', c]
  else if c = '\n' then ['\\', 'n']
  else if c = '\r' then ['\\', 'r']
  else if c = '\t' then ['\\', 't']
  else if 32 ≤ b.toNat ∧ b.toNat < 127 then [c]
  else '\\' :: 'x' :: Text.hex 2 b.toNat

/-- The inspected form of octets: those that are printable as characters, the others by number. -/
def inspectOctets (bytes : List UInt8) : String :=
  let quote := if bytes.contains 39 && !bytes.contains 34 then '"' else '\''
  .ofList ('b' :: quote :: bytes.flatMap (quotedOctet quote) ++ [quote])

namespace Enclosure

/-- How a collection is shown within itself. -/
def inspect : Enclosure → String
  | .list => "[...]"
  | .tuple => "(...)"
  | .mapping => "\x7b...\x7d"

end Enclosure

namespace Value

mutual

/-- The form in which a message shows the value. -/
def inspect : Value → String
  | .null => "None"
  | .bool b => if b then "True" else "False"
  | .int n => intText n
  | .float x => x.text
  | .text s => Text.quoted s
  | .day d => d.inspect
  | .time t => t.inspect
  | .guid g => "UUID(" ++ Text.quoted g ++ ")"
  | .octets bytes => inspectOctets bytes
  | .list items => "[" ++ Text.join ", " (inspectAll items) ++ "]"
  | .tuple [item] => "(" ++ inspect item ++ ",)"
  | .tuple items => "(" ++ Text.join ", " (inspectAll items) ++ ")"
  | .set [] => "set()"
  | .set items => "\x7b" ++ Text.join ", " (inspectAll items) ++ "\x7d"
  | .mapping entries => "\x7b" ++ Text.join ", " (inspectEntries entries) ++ "\x7d"
  | .enclosing kind => kind.inspect

/-- The forms of the items of a list. -/
def inspectAll : List Value → List String
  | [] => []
  | v :: vs => inspect v :: inspectAll vs

/-- The forms of the entries of a mapping. -/
def inspectEntries : List (Value × Value) → List String
  | [] => []
  | (k, v) :: rest => (inspect k ++ ": " ++ inspect v) :: inspectEntries rest

end

mutual

/-- Whether every whole number in the value is short enough to be written. -/
def isWritable : Value → Bool
  | .int n => decide (n.natAbs < powerOfTen digitLimit)
  | .list items | .tuple items | .set items => areWritable items
  | .mapping entries => entriesWritable entries
  | _ => true

/-- Whether every item is writable. -/
def areWritable : List Value → Bool
  | [] => true
  | v :: vs => isWritable v && areWritable vs

/-- Whether every key and every value is writable. -/
def entriesWritable : List (Value × Value) → Bool
  | [] => true
  | (k, v) :: rest => isWritable k && isWritable v && entriesWritable rest

end

/-- The form in which the value stands for a name or a version. -/
def plain : Value → String
  | .text s => s
  | .day d => d.text
  | .time t => t.text
  | .guid g => g
  | v => v.inspect

end Value
end PackageGraph
