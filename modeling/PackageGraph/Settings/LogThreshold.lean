import PackageGraph.Settings.Basic
/-!
# Log thresholds

The least severity that is logged. A level names it: the level that is given, or else that of the environment.
Names are read without regard to case, and a name that means nothing stands for warnings.
-/
namespace PackageGraph.LogThreshold

/-- The variable that holds the level. -/
def levelVariable : String := "DGPREVIEW_LOG_LEVEL"

/-- The capital of a letter, for letters whose capital is a basic one. Two such letters are not basic
themselves. -/
def capital (c : Char) : Char :=
  if c = 'ı' then 'I' else if c = 'ſ' then 'S' else c.toUpper

/-- A text in capitals. -/
def capitals (s : String) : String := .ofList (s.toList.map capital)

/-- The severity that a name in capitals stands for; some severities have two names. -/
def named? : String → Option Severity
  | "NOTSET" => some .notSet
  | "DEBUG" => some .debug
  | "INFO" => some .info
  | "WARNING" | "WARN" => some .warning
  | "ERROR" => some .error
  | "CRITICAL" | "FATAL" => some .critical
  | _ => none

/-- The name of the level; an empty name counts as none. -/
def levelName (env : Environment) (given : Option String) : String :=
  match given.filter (!·.isEmpty) with
  | some level => level
  | none => if (env.valueOf levelVariable).isEmpty then Severity.warning.name else env.valueOf levelVariable

/-- The threshold. Two names stand for something other than a level and are refused. -/
def resolve (env : Environment) (given : Option String) : Except Error Severity :=
  match capitals (levelName env given) with
  | "BASIC_FORMAT" => .error (.fault .unreadable)
  | "_STYLES" => .error (.fault .wrongKind)
  | name => .ok ((named? name).getD .warning)

end PackageGraph.LogThreshold
