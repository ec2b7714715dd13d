import PackageGraph.CommandLine.Word
/-!
# Commands

A command line names a command and gives it operands and options, in any order; the operands stand together. It is
read from left to right, so that of a request for help and a mistake the one that comes first counts, but a word
whose meaning is ambiguous is refused before all else.
-/
namespace PackageGraph.CommandLine

/-- The kinds of commands. -/
inductive CommandKind where
  | scan
  | graph
  | derive
  deriving DecidableEq, Repr

namespace CommandKind

/-- The written name. -/
def name : CommandKind → String
  | .scan => "scan"
  | .graph => "graph"
  | .derive => "dgspec"

/-- The kind with this written name. -/
def ofName? (name : String) : Option CommandKind := [scan, graph, derive].find? fun k => k.name == name

/-- The options that commands of this kind have. -/
def options : CommandKind → List OptionName
  | .scan => OptionName.common
  | .graph => OptionName.common ++ [.maxConcurrency, .sourcesFile, .source]
  | .derive => OptionName.common ++ [.timeout, .noRecursion, .verbosity, .tool, .sourcesFile, .source]

end CommandKind

/-- A command with its operands. -/
inductive Command where
  /-- Reads a project description. -/
  | scan (file : String)
  /-- Aggregates projects. -/
  | graph (projects : List String)
  /-- Derives the graph of a project with the build tool. -/
  | derive (project : String)
  deriving DecidableEq

namespace Command

/-- The kind of the command. -/
def kind : Command → CommandKind
  | .scan _ => .scan
  | .graph _ => .graph
  | .derive _ => .derive

/-- The command of a kind with these operands, if it takes so many. -/
def ofOperands? : CommandKind → List String → Option Command
  | .scan, [file] => some (.scan file)
  | .derive, [project] => some (.derive project)
  | .graph, first :: rest => some (.graph (first :: rest))
  | _, _ => none

end Command

/-- A command and the options that are given with it. -/
structure Invocation where
  command : Command
  options : Options

/-- How far the operands have been read. -/
inductive OperandRun where
  /-- No operand has come so far. -/
  | awaited
  /-- An operand or the separator after one has just been read. -/
  | inside
  /-- An option has come after the operands. -/
  | ended
  deriving DecidableEq

/-- What has been read of a command line. -/
structure Progress where
  run : OperandRun
  operands : List String
  /-- Whether there was a word that has no place in the command. -/
  surplus : Bool
  options : Options

namespace Progress

/-- Nothing read. -/
def start : Progress := ⟨.awaited, [], false, .none⟩

/-- An option has been read. -/
def pastOption (p : Progress) : Progress := { p with run := if p.run = .inside then .ended else p.run }

/-- An operand has been read. One that does not stand with the others is surplus. -/
def addOperand (p : Progress) (text : String) : Progress :=
  if p.run = .ended then { p with surplus := true }
  else { p with run := .inside, operands := p.operands ++ [text] }

/-- The separator has been read. -/
def addSeparator (p : Progress) : Progress := if p.run = .ended then { p with surplus := true } else p

/-- An option has been given a value. -/
def give (p : Progress) (name : OptionName) (text : String) : Except Stop Progress :=
  match p.options.give name text with
  | some options => .ok { p.pastOption with options := options }
  | none => .error .refused

/-- An option has been switched on. -/
def switchOn (p : Progress) : Progress :=
  { p.pastOption with options := { p.options with noRecursion := true } }

/-- Reads the words that are left. -/
def read (allowed : List OptionName) : Progress → List Word → Except Stop Progress
  | p, [] => .ok p
  | p, .operand text :: rest => read allowed (p.addOperand text) rest
  | p, .separator :: rest => read allowed p.addSeparator rest
  | p, .unknown :: rest => read allowed { p.pastOption with surplus := true } rest
  | p, .option name attachment :: rest =>
    match Demand.ofOption allowed name attachment, rest with
    | .stop s, _ => .error s
    | .switch, rest => read allowed p.switchOn rest
    | .value text, rest => do read allowed (← p.give name text) rest
    | .operand, .operand text :: rest => do read allowed (← p.give name text) rest
    | .helpBeforeOperand, .operand _ :: _ => .error .help
    | _, _ => .error .refused

/-- The invocation, once every word has been read. -/
def invocation (p : Progress) (kind : CommandKind) : Except Stop Invocation :=
  match Command.ofOperands? kind p.operands with
  | some command => if p.surplus then .error .refused else .ok ⟨command, p.options⟩
  | none => .error .refused

end Progress

namespace Invocation

/-- Reads the words after the name of a command. -/
def ofWords (kind : CommandKind) (words : List String) : Except Stop Invocation := do
  let progress ← Progress.read kind.options .start (← Word.ofTexts kind.options words)
  progress.invocation kind

/-- Reads a command line. In front of the command only help can be asked for; any other option there is refused,
unless what follows asks for help. -/
def parse : List String → Except Stop Invocation
  | [] => .error .refused
  | word :: rest =>
    if word = "--" then .error .refused
    else
      match Word.ofText [.help] word with
      | .error s => .error s
      | .ok (.operand name) =>
        match CommandKind.ofName? name with
        | some kind => ofWords kind rest
        | none => .error .refused
      | .ok (.option name attachment) =>
        match Demand.ofOption [.help] name attachment with
        | .stop s => .error s
        | _ => .error .refused
      | .ok _ => (parse rest).bind fun _ => .error .refused

end Invocation
end PackageGraph.CommandLine
