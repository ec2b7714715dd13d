/-!
# Maps in insertion order

An ordered map is a list of pairs. A key that is written again keeps its first position and takes its
last value, which is how every document this library reads treats a repeated name.
-/
namespace PackageGraph

/-- Pairs of key and value, in the order in which the keys were first written. -/
abbrev OrderedMap (κ β : Type) := List (κ × β)

namespace OrderedMap

variable {κ β γ : Type} [BEq κ]

/-- The value of the first pair with this key. -/
def get? : OrderedMap κ β → κ → Option β
  | [], _ => none
  | (k, v) :: m, key => if k == key then some v else get? m key

/-- Whether some pair has this key. -/
def contains (m : OrderedMap κ β) (key : κ) : Bool := m.any fun (k, _) => k == key

/-- Writes a value: in place when the key is there, at the end when it is new. -/
def put : OrderedMap κ β → κ → β → OrderedMap κ β
  | [], key, value => [(key, value)]
  | (k, v) :: m, key, value => if k == key then (k, value) :: m else (k, v) :: put m key value

/-- Writes a value only when the key is new. -/
def putNew (m : OrderedMap κ β) (key : κ) (value : β) : OrderedMap κ β :=
  if contains m key then m else m ++ [(key, value)]

/-- Applies `f` to the value of a key, which is `absent` when the key is new. -/
def update (m : OrderedMap κ β) (key : κ) (absent : β) (f : β → β) : OrderedMap κ β :=
  put m key (f ((get? m key).getD absent))

/-- The map that results from writing the pairs in order. -/
def ofPairs (pairs : List (κ × β)) : OrderedMap κ β :=
  pairs.foldl (fun m (k, v) => put m k v) []

/-- The keys in order of first insertion. -/
def keys (m : OrderedMap κ β) : List κ := m.map (·.1)

/-- The values in order of first insertion of their keys. -/
def values (m : OrderedMap κ β) : List β := m.map (·.2)

/-- Applies `f` to every value. -/
def mapValues (f : β → γ) (m : OrderedMap κ β) : OrderedMap κ γ := m.map fun (k, v) => (k, f v)

end OrderedMap

/-- The elements without repetition, each at its first position. -/
def distinct {α : Type} [BEq α] (xs : List α) : List α :=
  xs.foldl (fun seen x => if seen.contains x then seen else seen ++ [x]) []

end PackageGraph
