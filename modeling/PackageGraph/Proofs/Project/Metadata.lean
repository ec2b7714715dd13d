import PackageGraph.Project.Document
import PackageGraph.Proofs.OrderedMap
/-!
# The metadata of items

What an item says under a name: the last of its children with that name counts, or else its attribute. A name that it
does not have is looked for in other letter case, among the attributes first and then among the children.
-/
namespace PackageGraph

namespace ProjectDocument

/-- The elements that the items of a type come from. -/
def itemElements (root : Element) (type : String) : List Element :=
  (groupMembers root "ItemGroup").filter fun e => e.name == type

theorem items_eq (root : Element) (type : String) : items root type = (itemElements root type).flatMap itemsOf := rfl

/-- The attributes of an item that are metadata. -/
def metadataAttributes (e : Element) : OrderedMap String String :=
  e.attributes.filter fun (key, _) => !reservedAttributes.contains (Text.lower key)

/-- An attribute that is not reserved is metadata under its own name. -/
theorem get?_metadataAttributes (e : Element) {name : String}
    (h : reservedAttributes.contains (Text.lower name) = false) :
    (metadataAttributes e).get? name = e.attribute? name := by
  have hkept : (!reservedAttributes.contains (Text.lower name)) = true := by rw [h, Bool.not_false]
  exact OrderedMap.get?_filter_of_pos e.attributes (p := fun key => !reservedAttributes.contains (Text.lower key)) hkept

/-- What an item says under a name: the last child with that name counts, and the attribute when there is none. -/
def metadataValue? (e : Element) (name : String) : Option String :=
  ((e.childrenNamed name).getLast?.map Element.trimmedText).or ((metadataAttributes e).get? name)

/-- By induction on the children, each of which takes the place of those before it. -/
theorem get?_foldl_put_children (children : List Element) (m : OrderedMap String String) (name : String) :
    (children.foldl (fun m child => OrderedMap.put m child.name child.trimmedText) m).get? name =
      ((children.filter (·.name == name)).getLast?.map Element.trimmedText).or (m.get? name) := by
  induction children generalizing m with
  | nil => rfl
  | cons child children ih =>
    rw [List.foldl_cons, ih, OrderedMap.get?_put, List.filter_cons]
    cases hname : child.name == name with
    | false => rfl
    | true =>
      rw [if_pos rfl, if_pos rfl, List.getLast?_cons]
      cases (children.filter (·.name == name)).getLast? <;> rfl

/-- Metadata of a name is the last child of that name, or else the attribute. -/
theorem get?_metadata (e : Element) (name : String) : (metadata e).get? name = metadataValue? e name :=
  get?_foldl_put_children e.children (metadataAttributes e) name

/-! ## Names in other letter case -/

/-- The names under which an item says something. -/
def metadataNames (e : Element) : List String := (metadataAttributes e).keys ++ e.children.map Element.name

/-- What an item says under a name, or under the first that differs from it in letter case alone. -/
def metadataText? (e : Element) (name : String) : Option String :=
  (metadataValue? e name).or
    (((metadataNames e).find? fun other => Text.lower other == Text.lower name).bind (metadataValue? e))

/-- Names in other letter case do not count where there are none. -/
theorem metadataText?_of_spelling {e : Element} {name : String}
    (h : ∀ other ∈ metadataNames e, Text.lower other = Text.lower name → other = name) :
    metadataText? e name = metadataValue? e name := by
  rw [metadataText?]
  cases hother : (metadataNames e).find? fun other => Text.lower other == Text.lower name with
  | none => rw [Option.bind_none, Option.or_none]
  | some other =>
    have hlower : Text.lower other = Text.lower name := by simpa using List.find?_some hother
    rw [h other (List.mem_of_find?_eq_some hother) hlower, Option.bind_some, Option.or_self]

/-- The keys of the metadata are the attributes and then the children, in the order in which they first occur. -/
theorem find?_keys_foldl_put_children (children : List Element) (m : OrderedMap String String) (p : String → Bool) :
    (children.foldl (fun m child => OrderedMap.put m child.name child.trimmedText) m).keys.find? p =
      (m.keys ++ children.map Element.name).find? p := by
  induction children generalizing m with
  | nil => rw [List.foldl_nil, List.map_nil, List.append_nil]
  | cons child children ih => rw [List.foldl_cons, ih, OrderedMap.find?_keys_put, List.map_cons]

/-- Metadata is looked up first under the name as it stands and then without regard to letter case. -/
theorem metadata?_metadata (included : String) (e : Element) (name : String) :
    (⟨included, metadata e⟩ : ProjectItem).metadata? name = metadataText? e name := by
  have hkeys : ∀ p, (metadata e).keys.find? p = (metadataNames e).find? p :=
    find?_keys_foldl_put_children e.children (metadataAttributes e)
  have hget : (metadata e).get? = metadataValue? e := funext (get?_metadata e)
  have hother : ((metadata e).find? fun (key, _) => Text.lower key == Text.lower name).map (·.2) =
      ((metadataNames e).find? fun other => Text.lower other == Text.lower name).bind (metadataValue? e) := by
    rw [OrderedMap.map_find?_key (metadata e) fun key => Text.lower key == Text.lower name, hkeys, hget]
  rw [ProjectItem.metadata?, metadataText?, get?_metadata, hother]
  cases metadataValue? e name <;> rfl

end ProjectDocument
end PackageGraph
