import PackageGraph.Settings.Given
import PackageGraph.Settings.LogThreshold
/-!
# Options

The options of the command line, how they are spelled, and what they set.
-/
namespace PackageGraph.CommandLine

/-- The options. -/
inductive OptionName where
  | help
  | output
  | config
  | logLevel
  | logFile
  | maxConcurrency
  | timeout
  | noRecursion
  | verbosity
  | tool
  | sourcesFile
  | source
  deriving DecidableEq, Repr

namespace OptionName

/-- The name after two dashes. -/
def long : OptionName → String
  | .help => "help"
  | .output => "output"
  | .config => "config"
  | .logLevel => "loglevel"
  | .logFile => "logfile"
  | .maxConcurrency => "max-concurrency"
  | .timeout => "timeout"
  | .noRecursion => "no-recursive"
  | .verbosity => "verbosity"
  | .tool => "dotnet"
  | .sourcesFile => "nuget-config"
  | .source => "source"

/-- The letter after a single dash, for options that have one. -/
def letter? : OptionName → Option Char
  | .help => some 'h'
  | .output => some 'o'
  | _ => none

/-- The options that every command has. -/
def common : List OptionName := [.help, .output, .config, .logLevel, .logFile]

/-- The option among some with this letter. -/
def withLetter? (options : List OptionName) (c : Char) : Option OptionName :=
  options.find? fun o => o.letter? == some c

/-- The options among some that a name may mean: the one with exactly this name, or else all whose name begins with
it. -/
def matching (options : List OptionName) (name : List Char) : List OptionName :=
  match options.find? fun o => o.long.toList == name with
  | some o => [o]
  | none => options.filter fun o => name.isPrefixOf o.long.toList

end OptionName

/-- What the options of a command line set. -/
structure Options where
  output : Option String
  config : Option String
  logLevel : Option Severity
  logFile : Option String
  maxConcurrency : Option Int
  timeout : Option Binary64
  noRecursion : Bool
  verbosity : Option String
  tool : Option String
  sourcesFile : Option String
  sources : List String

namespace Options

/-- No option given. -/
def none : Options := ⟨.none, .none, .none, .none, .none, .none, false, .none, .none, .none, []⟩

/-- The severities that can be given as a level. -/
def levels : List Severity := [.debug, .info, .warning, .error, .critical]

/-- The severity that a level stands for. -/
def level? (text : String) : Option Severity :=
  levels.find? fun s => s.name == LogThreshold.capitals text

/-- What is set once an option with a value has been given too; nothing if the option does not take such a value.
An option that is given again sets another value, except that sources are added up. -/
def give (g : Options) (name : OptionName) (text : String) : Option Options :=
  match name with
  | .help | .noRecursion => .none
  | .output => some { g with output := some text }
  | .config => some { g with config := some text }
  | .logLevel => (level? text).map fun level => { g with logLevel := some level }
  | .logFile => some { g with logFile := some text }
  | .maxConcurrency => (Number.int? text.toList).toOption.map fun n => { g with maxConcurrency := some n }
  | .timeout => (Number.float? text.toList).map fun seconds => { g with timeout := some seconds }
  | .verbosity => some { g with verbosity := some text }
  | .tool => some { g with tool := some text }
  | .sourcesFile => some { g with sourcesFile := some text }
  | .source => some { g with sources := g.sources ++ [text] }

/-- A text as a value, an absent one as the absent value. -/
def textValue (text : Option String) : Value := (text.map Value.text).getD .null

/-- The settings that are given. -/
def settings (g : Options) : GivenSettings where
  config := g.config
  toolPath := textValue g.tool
  verbosity := textValue g.verbosity
  timeout := (g.timeout.map Value.float).getD .null
  maxConcurrency := (g.maxConcurrency.map Value.int).getD .null
  noRecursion := g.noRecursion
  sourcesFile := g.sourcesFile
  moreSources := g.sources

end Options
end PackageGraph.CommandLine
