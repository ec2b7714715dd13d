import PackageGraph.Settings.Basic
import PackageGraph.Settings.PackageSources
import PackageGraph.Yaml.Document
/-!
# Configuration files

Settings in a YAML file, either in a section of their own or as the whole file. Values are brought into the kind
of their setting; a setting whose kind is not fixed keeps the value it is given.
-/
namespace PackageGraph.ConfigFile

/-- The section that holds the settings, if there is one. -/
def sectionName : String := "dgpreview"

/-- An entry of a file, whose value stands in the document. -/
structure Entry where
  key : Value
  document : Yaml.Document
  place : Nat

namespace Entry

/-- The value with all that it holds. -/
def value (e : Entry) : Value := e.document.value e.place

/-- Whether the value is absent, false, zero or empty. -/
def isFalsy (e : Entry) : Bool := e.document.isFalsy e.place

end Entry

/-- The entries that hold the settings of a file. -/
def entriesOf (path : String) (d : Yaml.Document) : Except Error (List Entry) :=
  if d.isFalsy d.root then .ok []
  else
    match d.entries? d.root with
    | none => .error (.malformed path .configRoot)
    | some entries =>
      let inner := entries.find? fun (key, _) => match key with | .text s => s == sectionName | _ => false
      match inner.elim (some entries) fun (_, i) => d.entries? i with
      | some entries => .ok (entries.map fun (key, i) => ⟨key, d, i⟩)
      | none => .error (.malformed path (.configSection sectionName))

/-- Reads the entries that hold the settings in a file. Without a path there are none. -/
def read (fs : FileSystem) (path : Option String) : Except Error (List Entry) :=
  match path.filter (!·.isEmpty) with
  | none => .ok []
  | some path =>
    match fs.readText path with
    | .error f => .error (.fault f)
    | .ok text =>
      match Yaml.parse (Text.unifyLineEnds text) with
      | .ok content => entriesOf path content
      | .error .yaml => .error (.malformed path (.unreadable .yaml))
      | .error f => .error (.fault f)

/-! ## Kinds of settings -/

/-- Why a value cannot be brought into a kind. -/
inductive Unfit where
  /-- The value does not denote anything of that kind. -/
  | wrongValue
  /-- The value is out of range. -/
  | outOfRange
  deriving DecidableEq

/-- The text of octets that are characters of ASCII. -/
def asciiText? (bytes : List UInt8) : Option (List Char) :=
  if bytes.all (· < 128) then some (bytes.map fun b => Char.ofNat b.toNat) else none

/-- The value as a number with a point. -/
def asFloat : Value → Except Unfit Value
  | .bool b => .ok (.float (.ofInt (if b then 1 else 0)))
  | .int n =>
    match Binary64.ofInt n with
    | .infinite _ => .error .outOfRange
    | x => .ok (.float x)
  | .float x => .ok (.float x)
  | .text s =>
    match Number.float? s.toList with
    | some x => .ok (.float x)
    | none => .error .wrongValue
  | .octets bytes =>
    match (asciiText? bytes).bind Number.float? with
    | some x => .ok (.float x)
    | none => .error .wrongValue
  | _ => .error .wrongValue

/-- The value as a whole number; what follows a point is dropped. -/
def asInt : Value → Except Unfit Value
  | .bool b => .ok (.int (if b then 1 else 0))
  | .int n => .ok (.int n)
  | .float (.infinite _) => .error .outOfRange
  | .float x =>
    match x.truncate? with
    | some n => .ok (.int n)
    | none => .error .wrongValue
  | .text s =>
    match Number.int? s.toList with
    | .ok n => .ok (.int n)
    | .error _ => .error .wrongValue
  | .octets bytes =>
    match (asciiText? bytes).bind fun cs => (Number.int? cs).toOption with
    | some n => .ok (.int n)
    | none => .error .wrongValue
  | _ => .error .wrongValue

/-- The texts that switch a setting on. -/
def onTexts : List String := ["1", "true", "yes", "on"]

/-- The value as a truth value: a text by what it says, every other value by whether it is empty or zero. -/
def asBool (e : Entry) : Value :=
  match e.document.text? e.place with
  | some s => .bool (onTexts.contains (Text.lower (Text.trim s)))
  | none => .bool (!e.isFalsy)

/-- The text of a value, unless it holds a number that is too long to be written. -/
def textOf (v : Value) : Except Error String :=
  if v.isWritable then .ok v.plain else .error (.fault .unreadable)

/-- The value as a list of texts; a text counts as its characters and a mapping as its keys. -/
def asTexts (e : Entry) : Except Error Value :=
  if e.isFalsy then .ok (.list [])
  else
    match e.document.elements? e.place with
    | some items => do return .list ((← items.mapM textOf).map .text)
    | none => .error (.fault .wrongKind)

/-- What is reported when a value is unfit for a setting. -/
def unfitError (path : String) (setting : Setting) (value : Value) : Unfit → Error
  | .wrongValue =>
    if value.isWritable then .malformed path (.settingValue setting.name value.inspect) else .fault .unreadable
  | .outOfRange => .fault .overflow

/-- The value of an entry brought into the kind of a setting. -/
def coerce (path : String) (setting : Setting) (e : Entry) : Except Error Value :=
  match setting with
  | .timeout => (asFloat e.value).mapError (unfitError path setting e.value)
  | .maxConcurrency => (asInt e.value).mapError (unfitError path setting e.value)
  | .recursive | .disableParallel | .noCache | .ignoreFailedSources => .ok (asBool e)
  | .packageSources => asTexts e
  | .toolPath | .verbosity | .scratchDirectory => .ok e.value

/-! ## The layer of a file -/

/-- The key that names a file with package sources. -/
def sourcesKey : String := "nuget_config"

/-- The part of the program that logs. -/
def logSource : String := "cli_config"

/-- What is logged for a key that sets nothing. -/
def unknownLog (key : Value) : LogRecord :=
  .warning logSource (.ofText ("Ignoring unknown config key: " ++ key.plain))

/-- What an entry sets. -/
def setting? (fs : FileSystem) (env : Environment) (path : String) (e : Entry) :
    Logged (Option (Setting × Value)) := do
  match e.key with
  | .text name =>
    if name == sourcesKey then
      let sources ← PackageSources.load fs (env.expandHome (← Logged.ofExcept (textOf e.value)))
      return some (.packageSources, .list (sources.map .text))
    match Setting.ofName? name with
    | some setting => return some (setting, ← Logged.ofExcept (coerce path setting e))
    | none =>
      Logged.log (unknownLog e.key)
      return none
  | _ =>
    Logged.log (unknownLog e.key)
    return none

/-- What entries set, in order; a later entry takes the place of an earlier one for the same setting. -/
def layerOf (fs : FileSystem) (env : Environment) (path : String) : Overrides → List Entry → Logged Overrides
  | layer, [] => return layer
  | layer, e :: rest => do
    match ← setting? fs env path e with
    | some (setting, v) => layerOf fs env path (OrderedMap.put layer setting v) rest
    | none => layerOf fs env path layer rest

/-- What a configuration file sets. -/
def layer (fs : FileSystem) (env : Environment) (path : Option String) : Logged Overrides := do
  layerOf fs env (path.getD "") [] (← Logged.ofExcept (read fs path))

end PackageGraph.ConfigFile
