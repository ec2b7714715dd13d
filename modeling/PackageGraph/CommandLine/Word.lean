import PackageGraph.CommandLine.Option
/-!
# Words of a command line

Each word is an option, an operand, or the separator `--`, after which every word is an operand. An option is
known by its beginning where that is unambiguous, and may carry a value: after an equals sign, or directly after
its letter.
-/
namespace PackageGraph.CommandLine

/-- Why a command line is not carried out. -/
inductive Stop where
  /-- It asks for help. -/
  | help
  /-- It cannot be understood. -/
  | refused
  deriving DecidableEq, Repr

/-- The exit code. -/
def Stop.exitCode : Stop → Nat
  | .help => 0
  | .refused => 2

/-- What a word carries besides an option. -/
inductive Attachment where
  | nothing
  /-- What follows an equals sign. -/
  | value (text : List Char)
  /-- What follows the letter of an option directly. -/
  | tail (text : List Char)
  deriving DecidableEq

/-- A word of a command line. -/
inductive Word where
  | option (name : OptionName) (attachment : Attachment)
  /-- A word that looks like an option but is none. -/
  | unknown
  | separator
  | operand (text : String)
  deriving DecidableEq

namespace Word

/-- Whether the characters after a dash make a negative number: digits, with or without a point among them that
digits follow. A line end may come last. -/
def isNumber (cs : List Char) : Bool :=
  let body := if cs.getLast? = some '\n' then cs.dropLast else cs
  match Text.cut '.' body with
  | (whole, some fraction) => whole.all Text.isDigit && !fraction.isEmpty && fraction.all Text.isDigit
  | (whole, none) => !whole.isEmpty && whole.all Text.isDigit

/-- A word with a dash in front that names no option: numbers and words with spaces are operands. -/
def unnamed (word : String) : Word :=
  if isNumber (word.toList.drop 1) || word.toList.contains ' ' then .operand word else .unknown

/-- What follows the letter of an option. -/
def attachment : List Char → Attachment
  | [] => .nothing
  | '=' :: text => .value text
  | text => .tail text

/-- Reads a word in front of the separator. A beginning of several options is refused. -/
def ofText (options : List OptionName) (word : String) : Except Stop Word :=
  match word.toList with
  | '-' :: '-' :: rest =>
    let (name, value) := Text.cut '=' rest
    match OptionName.matching options name with
    | [o] => .ok (.option o ((value.map Attachment.value).getD .nothing))
    | [] => .ok (unnamed word)
    | _ => .error .refused
  | '-' :: letter :: rest =>
    match OptionName.withLetter? options letter with
    | some o => .ok (.option o (attachment rest))
    | none => .ok (unnamed word)
  | _ => .ok (.operand word)

/-- Reads the words of a command line. -/
def ofTexts (options : List OptionName) : List String → Except Stop (List Word)
  | [] => .ok []
  | word :: rest =>
    if word = "--" then .ok (.separator :: rest.map .operand)
    else do return (← ofText options word) :: (← ofTexts options rest)

end Word

/-- What an option asks for. -/
inductive Demand where
  | stop (s : Stop)
  /-- Help, as long as an operand follows. -/
  | helpBeforeOperand
  /-- The option is switched on. -/
  | switch
  | value (text : String)
  /-- The operand that follows is the value. -/
  | operand
  deriving DecidableEq

namespace Demand

/-- What the letter for help asks for when more follows it in its word. The rest is read as more letters. -/
def ofHelpTail (options : List OptionName) : List Char → Demand
  | [] => .stop .help
  | '-' :: _ => .stop .refused
  | letter :: rest =>
    match OptionName.withLetter? options letter with
    | none => .stop .help
    | some .help => if rest.head? == some '=' then .stop .refused else ofHelpTail options rest
    | some _ => if rest.isEmpty then .helpBeforeOperand else .stop .help

/-- What an option asks for, given what its word carries. -/
def ofOption (options : List OptionName) : OptionName → Attachment → Demand
  | .help, .nothing => .stop .help
  | .help, .value _ => .stop .refused
  | .help, .tail text => ofHelpTail options text
  | .noRecursion, .nothing => .switch
  | .noRecursion, _ => .stop .refused
  | _, .nothing => .operand
  | _, .value text => .value (.ofList text)
  | _, .tail text => .value (.ofList text)

end Demand
end PackageGraph.CommandLine
