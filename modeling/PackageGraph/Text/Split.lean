/-!
# Splitting and joining

Fields of a text between separators. `splitOn` keeps empty fields, so that joining the fields with
the separator gives the text back; `cut` divides a text at the first separator only.
-/
namespace PackageGraph.Text

/-- The fields between the characters that `sep` picks out; there is always at least one. -/
def splitWhere (sep : Char → Bool) : List Char → List (List Char)
  | [] => [[]]
  | c :: cs =>
    if sep c then [] :: splitWhere sep cs
    else
      match splitWhere sep cs with
      | [] => [[c]]
      | field :: fields => (c :: field) :: fields

/-- The fields between occurrences of one separator. -/
def splitOn (sep : Char) (cs : List Char) : List (List Char) := splitWhere (· == sep) cs

/-- The text before the first separator and, if there is one, the text after it. -/
def cut (sep : Char) : List Char → List Char × Option (List Char)
  | [] => ([], none)
  | c :: cs =>
    if c = sep then ([], some cs)
    else
      let (before, after) := cut sep cs
      (c :: before, after)

/-- Characters with every way to end a line written as one line feed. -/
def unifiedLineEnds : List Char → List Char
  | '\r' :: '\n' :: rest => '\n' :: unifiedLineEnds rest
  | '\r' :: rest => '\n' :: unifiedLineEnds rest
  | c :: rest => c :: unifiedLineEnds rest
  | [] => []

/-- The text with every way to end a line written as one line feed. -/
def unifyLineEnds (s : String) : String := .ofList (unifiedLineEnds s.toList)

/-- The text after a character that begins it. -/
def after? (c : Char) : List Char → Option (List Char)
  | d :: rest => if c = d then some rest else none
  | [] => none

/-- The texts one after the other with the separator between them. -/
def join (sep : String) : List String → String
  | [] => ""
  | [s] => s
  | s :: rest => s ++ sep ++ join sep rest

/-- The parts of a text between separators. -/
def fields (sep : Char) (s : String) : List String := (splitOn sep s.toList).map .ofList

/-- There is one part at least. -/
theorem splitWhere_ne_nil (sep : Char → Bool) (cs : List Char) : splitWhere sep cs ≠ [] := by
  cases cs with
  | nil => simp [splitWhere]
  | cons c cs =>
    rw [splitWhere]
    split
    · simp
    · split <;> simp

end PackageGraph.Text
