import PackageGraph.Error
import PackageGraph.PackageSpec.Basic
import PackageGraph.Value.Text
import PackageGraph.VersionRange.Parser
/-!
# Specifications from project files in JSON

The specification that the typed values of a `project.json` file describe. Sections of the wrong kind count as
missing, while a version that is unreadable or a framework without a name refuses the file.
-/
namespace PackageGraph.PackageSpec.ProjectJson

/-- The texts of a list: a text is divided at semicolons, the items of a list stand for themselves. Blank
entries are passed over. -/
def texts : Value → List String
  | .text s => ((Text.fields ';' s).map Text.trim).filter fun t => !t.isEmpty
  | .list items =>
    (items.filterMap fun v => match v with | .null => none | v => some (Text.trim v.plain)).filter
      fun t => !t.isEmpty
  | _ => []

/-- The range that the version of a dependency stands for; without version every version will do. -/
def range (path name : String) : Option Value → Except Error VersionRange
  | none | some .null => .ok .all
  | some v => (VersionRange.parse v.plain).mapError fun e => .malformed path (.dependency name e)

/-- The flags under a key; only a text can name flags. -/
def flags (v : Value) (key : String) (default : AssetFlags) : Except Error AssetFlags :=
  match v.get? key with
  | none | some .null => .ok default
  | some (.text s) => .ok (.parse s default)
  | some _ => .error (.fault .notText)

/-- Whether the value under a key is this text, without regard to letter case. -/
def isNamed (v : Value) (key expected : String) : Bool :=
  match v.get? key with
  | some (.text s) => Text.lower s == expected
  | _ => false

/-- A dependency that is written with its settings. A dependency for the build alone withholds everything. -/
def detailed (path name : String) (v : Value) : Except Error Dependency := do
  let included ← flags v "include" .all
  let excluded ← flags v "exclude" .none
  let suppressed ← flags v "suppressParent" .defaultPrivate
  let range ← range path name (v.get? "version")
  return ⟨name, range, if isNamed v "target" "project" then .project else .package, included.without excluded,
    if isNamed v "type" "build" then .all else suppressed⟩

/-- One entry of a dependencies section. -/
def dependency (path : String) : String × Value → Except Error Dependency
  | (name, .mapping entries) => detailed path name (.mapping entries)
  | (name, v) => (range path name (some v)).map (Dependency.ofRange name)

/-- The dependencies of a section. -/
def dependencies (path : String) (section? : Option Value) : Except Error (List Dependency) :=
  (((section?.bind Value.members).getD []).mapM (dependency path))

/-- One entry of the frameworks section. -/
def target (path : String) : String × Value → Except Error FrameworkGroup
  | (name, body) =>
    match Moniker.parse? name with
    | none => .error (.malformed path (.invalidFramework name))
    | some moniker => do
      let imports := (((body.get? "imports").map texts).getD []).filterMap Moniker.parse?
      let dependencies ← dependencies path (body.get? "dependencies")
      return ⟨.withImports moniker imports, dependencies, imports⟩

/-- The keys of a section that is a mapping. -/
def sectionKeys (data : Value) (key : String) : Option (List String) :=
  ((data.get? key).bind Value.members).map fun ms => ms.map (·.1)

/-- The runtimes and profiles, if either section is there. -/
def runtimeGraph (data : Value) : Option RuntimeGraph :=
  match sectionKeys data "runtimes", sectionKeys data "supports" with
  | none, none => none
  | runtimes, supports => some ⟨runtimes.getD [], supports.getD []⟩

/-- The stated version of the project. -/
def version (data : Value) : String :=
  match data.get? "version" with
  | some (.text s) => if s.isEmpty then defaultVersion else s
  | _ => defaultVersion

/-- The specification of the project with this name whose file stands at `path`. -/
def read (name path : String) (data : Value) : Except Error PackageSpec := do
  let targets ← (((data.get? "frameworks").bind Value.members).getD []).mapM (target path)
  let dependencies ← dependencies path (data.get? "dependencies")
  return ⟨name, path, targets, dependencies, runtimeGraph data, none, version data⟩

end PackageGraph.PackageSpec.ProjectJson
