import PackageGraph.Error
import PackageGraph.VersionRange.Parser
/-!
# Package keys

The key under which the consumers of a package are listed: its identifier, without regard to letter case, and the
text of its version or range.
-/
namespace PackageGraph

/-- A package and a version or range of it. -/
structure PackageKey where
  packageId : String
  version : String
  deriving DecidableEq, Inhabited

namespace PackageKey

/-- Whether two keys stand for the same package and version. -/
def same (k l : PackageKey) : Bool := Text.lower k.packageId == Text.lower l.packageId && k.version == l.version

instance : BEq PackageKey := ⟨same⟩

/-- What a hash of the key is made from. -/
def hashKey (k : PackageKey) : String × String := (Text.lower k.packageId, k.version)

instance : Hashable PackageKey := ⟨fun k => hash k.hashKey⟩

/-- The identifier and the version. -/
def text (k : PackageKey) : String := k.packageId ++ " " ++ k.version

/-- The key of a range. -/
def ofRange (packageId : String) (range : VersionRange) : PackageKey := ⟨packageId, range.normalized⟩

/-- The key of a range, if the range can be written. -/
def ofRange? (packageId : String) (range : VersionRange) : Except Error PackageKey :=
  if range.isPrintable then .ok (ofRange packageId range) else .error (.fault .unreadable)

/-- The key of a version; a text that is no version stands for itself without white space around it. -/
def ofVersionText (packageId text : String) : PackageKey :=
  ⟨packageId, match Version.parse? text with
    | some v => v.normalized
    | none => Text.trim text⟩

end PackageKey
end PackageGraph
