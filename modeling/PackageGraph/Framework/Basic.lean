import PackageGraph.Number.Format
import PackageGraph.Text.LowerCase
import PackageGraph.Text.Split
/-!
# Target frameworks

A moniker names a framework by identifier, version and either a profile or a platform. It has a full name, such
as `.NETFramework,Version=v4.8`, and a short name, such as `net48`. A target framework is a moniker that may
carry frameworks to fall back to.
-/
namespace PackageGraph

/-- The name of a framework. -/
structure Moniker where
  identifier : String
  /-- The components of the version; a moniker without version is kept as it was written. -/
  version : List Int
  profile : String
  platform : String
  deriving DecidableEq, Inhabited

namespace Moniker

/-- A moniker that is kept as it was written. -/
def verbatim (text : String) : Moniker := ⟨text, [], "", ""⟩

def netFramework : String := ".NETFramework"
def netCoreApp : String := ".NETCoreApp"
def netStandard : String := ".NETStandard"
def netPortable : String := ".NETPortable"
def uap : String := "UAP"

/-- The short spellings of the identifiers that have one. -/
def shortSpellings : List (String × String) := [
  ("net", netFramework), ("netcoreapp", netCoreApp), ("netstandard", netStandard),
  ("netcore", ".NETCore"), ("uap", uap), ("win", "Windows"), ("wp", "WindowsPhone"),
  ("wpa", "WindowsPhoneApp"), ("monoandroid", "MonoAndroid"), ("xamarinios", "Xamarin.iOS")]

/-- The identifier that a short spelling stands for. -/
def identifierOf? (short : String) : Option String :=
  (shortSpellings.find? fun (s, _) => s == short).map (·.2)

/-- The short spelling of an identifier, without regard to its letter case. -/
def shortOf? (identifier : String) : Option String :=
  (shortSpellings.find? fun (_, full) => Text.lower full == Text.lower identifier).map (·.1)

/-- Identifiers whose short names keep the points of the version. -/
def keepsPoints (identifier : String) : Bool :=
  identifier == netCoreApp || identifier == netStandard || identifier == uap

/-- The components of a version with points between them. -/
def pointedVersion (version : List Int) : String := Text.join "." (version.map intText)

/-- The full name; without version it is the identifier alone. -/
def fullName (m : Moniker) : String :=
  if m.version.isEmpty then m.identifier
  else
    m.identifier ++ ",Version=v" ++ pointedVersion m.version ++
      if m.profile.isEmpty then "" else ",Profile=" ++ m.profile

/-- The name with a suffix after a hyphen, unless the suffix is empty. -/
def withSuffix (name suffix : String) : String := if suffix.isEmpty then name else name ++ "-" ++ suffix

/-- Whether the version is one of those from 5 on, whose short names begin with `net`. -/
def isModern (m : Moniker) : Bool := m.identifier == netCoreApp && 5 ≤ m.version.headD 0

/-- The short name, which stands for the framework in documents. Identifiers without a short spelling keep
their full name. -/
def shortName (m : Moniker) : String :=
  if m.identifier == netPortable then withSuffix "portable" m.profile
  else if m.version.isEmpty then m.identifier
  else if m.isModern then withSuffix ("net" ++ pointedVersion m.version) m.platform
  else
    match shortOf? m.identifier with
    | none => m.fullName
    | some short =>
      let version := if keepsPoints m.identifier then pointedVersion m.version
        else Text.join "" (m.version.map intText)
      withSuffix (short ++ version) (Text.lower m.profile)

end Moniker

/-- A framework that a project is built for. -/
structure TargetFramework where
  moniker : Moniker
  /-- The frameworks to fall back to, in order; a framework with an empty list of them differs from one
  without. -/
  fallbacks : Option (List Moniker)
  deriving DecidableEq, Inhabited

namespace TargetFramework

/-- A framework without fallbacks. -/
def plain (m : Moniker) : TargetFramework := ⟨m, none⟩

/-- A framework that falls back to others. -/
def withFallbacks (m : Moniker) (fallbacks : List Moniker) : TargetFramework := ⟨m, some fallbacks⟩

/-- A framework that falls back to others if there are any. -/
def withImports (m : Moniker) (imports : List Moniker) : TargetFramework :=
  if imports.isEmpty then plain m else withFallbacks m imports

/-- The short name of the moniker. -/
def shortName (f : TargetFramework) : String := f.moniker.shortName

end TargetFramework
end PackageGraph
