import PackageGraph.Xml.Reference
/-!
# Expansion of entities

Entities that refer to others several times can make a short document stand for a very long text. How long it would
be is found without writing it, and a document that would grow too much is refused.
-/
namespace PackageGraph.Xml

/-- The names of the entities that a text refers to, outside of comments, instructions and quoted text. -/
def referredNames : Nat → List Char → List String
  | 0, _ => []
  | _ + 1, [] => []
  | fuel + 1, '<' :: '!' :: '-' :: '-' :: cs => referredNames fuel (((cutAt? "-->".toList cs).map (·.2)).getD [])
  | fuel + 1, '<' :: '!' :: '[' :: cs => referredNames fuel (((cutAt? "]]>".toList cs).map (·.2)).getD [])
  | fuel + 1, '<' :: '?' :: cs => referredNames fuel (((cutAt? "?>".toList cs).map (·.2)).getD [])
  | fuel + 1, '&' :: cs =>
    match plainName? cs with
    | some (name, ';' :: rest) => .ofList name :: referredNames fuel rest
    | _ => referredNames fuel cs
  | fuel + 1, _ :: cs => referredNames fuel cs

/-- The length that a text adds through the entities in it, when entities have these lengths. -/
def addedLength (lengths : OrderedMap String Nat) (cs : List Char) : Nat :=
  (referredNames (cs.length + 1) cs).foldl (fun n name => n + (OrderedMap.get? lengths name).getD 0) 0

namespace Entities

/-- The lengths of the entities as they are written. -/
def writtenLengths (entities : Entities) : OrderedMap String Nat :=
  OrderedMap.mapValues (fun
    | .internal text => text.length
    | .external => 0) entities.table

/-- The lengths of the entities when the entities in them are replaced so many times. -/
def lengthsAfter (entities : Entities) : Nat → OrderedMap String Nat
  | 0 => entities.writtenLengths
  | n + 1 =>
    let before := lengthsAfter entities n
    OrderedMap.mapValues (fun
      | .internal text => text.length + addedLength before text
      | .external => 0) entities.table

/-- The greatest length of a text with all entities in it replaced, whatever the length of the document. -/
def expansionLimit : Nat := 8388608

/-- How many times as long as its document a text may be that is longer than that. -/
def expansionFactor : Nat := 100

/-- Whether a text of a document of some length, with all entities in it replaced, is too long. Entities do not nest
more deeply than their number. -/
def exceeds (entities : Entities) (length : Nat) (cs : List Char) : Bool :=
  let total := length + addedLength (entities.lengthsAfter entities.table.length) cs
  expansionLimit ≤ total && expansionFactor * length < total

end Entities
end PackageGraph.Xml
