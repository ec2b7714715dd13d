import PackageGraph.Project.PackagesConfig
/-!
# Package sources of a configuration

A `NuGet.Config` document lists package sources by key and, apart from them, the keys that are disabled. Its
sections are read in order as one list of entries: `clear` forgets the sources so far, and a key that is given
again keeps its place and takes the last value.
-/
namespace PackageGraph.PackageSources

/-- The entries of every section of a name, in document order. -/
def entries (root : Element) (name : String) : List Element :=
  (root.children.filter fun e => e.name == name).flatMap Element.children

/-- The sources after one more entry. -/
def addEntry (sources : OrderedMap String String) (e : Element) : OrderedMap String String :=
  if e.name == "clear" then []
  else if e.name == "add" && !(e.attributeText "key").isEmpty && !(e.attributeText "value").isEmpty then
    OrderedMap.put sources (e.attributeText "key") (e.attributeText "value")
  else sources

/-- The sources that are declared, by key. -/
def declared (root : Element) : OrderedMap String String := (entries root "packageSources").foldl addEntry []

/-- Whether an entry disables its source. -/
def disables (e : Element) : Bool := e.name == "add" && Text.lower (e.attributeText "value") == "true"

/-- The keys of the sources that are disabled. -/
def disabledKeys (root : Element) : List String :=
  ((entries root "disabledPackageSources").filter disables).filterMap fun e => e.attribute? "key"

/-- The sources that are declared and not disabled, in the order of their keys. -/
def enabled (root : Element) : List String :=
  ((declared root).filter fun (key, _) => !(disabledKeys root).contains key).map (·.2)

/-- What is logged when sources have been read. -/
def loadedLog (path : String) (sources : List String) : LogRecord :=
  .debug "settings" ("Loaded " ++ natText sources.length ++ " enabled package source(s) from " ++ path) []

/-- Reads the enabled package sources in a file. -/
def load (fs : FileSystem) (path : String) : Logged (List String) := do
  let sources := enabled (← Logged.ofExcept (fs.readDocument path))
  Logged.log (loadedLog path sources)
  return sources

end PackageGraph.PackageSources
