import Mathlib.Data.List.Forall2
import PackageGraph.Proofs.Aggregate.References
import PackageGraph.Proofs.Project.Metadata
/-!
# Elements under conditions

What evaluating a project file makes of elements under conditions, by comparing the file with the one without them.
Properties are the same in both, and so are the items and what they include; but a child of an item gives its metadata
whether or not it stands under a condition.
-/
namespace PackageGraph

open ProjectDocument (isConditional)

namespace Element

mutual

/-- The element without the elements below it that stand under a condition. -/
def withoutConditions : Element → Element
  | ⟨name, attributes, text, children⟩ => ⟨name, attributes, text, withoutConditionsOf children⟩

/-- Of the elements of a list those that stand under no condition, each without those below it that do. -/
def withoutConditionsOf : List Element → List Element
  | [] => []
  | e :: es => if isConditional e then withoutConditionsOf es else withoutConditions e :: withoutConditionsOf es

end

theorem withoutConditionsOf_eq (es : List Element) :
    withoutConditionsOf es = (es.filter fun e => !isConditional e).map withoutConditions := by
  induction es with
  | nil => rfl
  | cons e es ih =>
    rw [withoutConditionsOf, List.filter_cons, ih]
    cases isConditional e <;> rfl

@[simp] theorem name_withoutConditions (e : Element) : e.withoutConditions.name = e.name := by
  cases e
  rfl

@[simp] theorem attributes_withoutConditions (e : Element) : e.withoutConditions.attributes = e.attributes := by
  cases e
  rfl

@[simp] theorem text_withoutConditions (e : Element) : e.withoutConditions.text = e.text := by
  cases e
  rfl

/-- The children that remain are those without a condition, each without conditions below it. -/
theorem children_withoutConditions (e : Element) :
    e.withoutConditions.children = (e.children.filter fun c => !isConditional c).map withoutConditions := by
  cases e
  exact withoutConditionsOf_eq _

/-- Attributes of an element do not depend on the conditions below it. -/
@[simp] theorem attributeText_withoutConditions (e : Element) (name : String) :
    e.withoutConditions.attributeText name = e.attributeText name := by
  rw [attributeText, attributeText, attribute?, attribute?, attributes_withoutConditions]

@[simp] theorem trimmedText_withoutConditions (e : Element) : e.withoutConditions.trimmedText = e.trimmedText := by
  rw [trimmedText, trimmedText, text_withoutConditions]

/-- Whether an element is conditional is stated on the element itself. -/
@[simp] theorem isConditional_withoutConditions (e : Element) :
    isConditional e.withoutConditions = isConditional e := by
  rw [isConditional, isConditional, attributeText_withoutConditions]

end Element

namespace ProjectDocument

open Element

/-! ## Groups, properties and items -/

/-- Children that are picked out without regard to what stands below them, and only if they stand under no condition,
are still there. -/
theorem filter_children_withoutConditions (e : Element) {p : Element → Bool}
    (hp : ∀ c : Element, p c.withoutConditions = p c)
    (hconditional : ∀ c ∈ e.children, p c = true → isConditional c = false) :
    e.withoutConditions.children.filter p = (e.children.filter p).map withoutConditions := by
  rw [children_withoutConditions, List.filter_map, List.filter_filter]
  congr 1
  refine List.filter_congr fun c hc => ?_
  rw [Function.comp_apply, hp]
  cases hpc : p c with
  | false => rfl
  | true => rw [hconditional c hc hpc]; rfl

/-- The members of groups stand under no condition. -/
theorem groupMembers_withoutConditions (root : Element) (group : String) :
    groupMembers root.withoutConditions group = (groupMembers root group).map withoutConditions := by
  rw [groupMembers, groupMembers, filter_children_withoutConditions root (by simp) (by simp), List.filter_flatMap,
    List.filter_flatMap, List.flatMap_map, List.map_flatMap]
  -- the same groups are left, and in each of them the same members
  congr 1
  funext g
  exact filter_children_withoutConditions g (by simp) (by simp)

/-- Properties do not depend on what stands under a condition. -/
theorem properties_withoutConditions (root : Element) : properties root.withoutConditions = properties root := by
  rw [properties, properties, groupMembers_withoutConditions, List.map_map]
  congr 2
  funext e
  simp

/-- The items of a type come from the same elements. -/
theorem items_withoutConditions (root : Element) (type : String) :
    items root.withoutConditions type = (itemElements root type).flatMap fun e => itemsOf e.withoutConditions := by
  rw [items_eq, itemElements, groupMembers_withoutConditions, List.filter_map, List.flatMap_map]
  simp only [Function.comp_def, name_withoutConditions, itemElements]

theorem itemsOf_eq (e : Element) : itemsOf e = (included e).map fun name => ⟨name, metadata e⟩ := rfl

/-- An element includes the same in both. -/
theorem itemsOf_withoutConditions (e : Element) :
    itemsOf e.withoutConditions = (included e).map fun name => ⟨name, metadata e.withoutConditions⟩ := by
  rw [itemsOf_eq, included, attributeText_withoutConditions, included]

/-! ## Metadata -/

/-- Without conditional children the metadata are the same, in the same order. -/
theorem metadata_withoutConditions {e : Element} (h : ∀ c ∈ e.children, isConditional c = false) :
    metadata e.withoutConditions = metadata e := by
  have hchildren : (e.children.filter fun c => !isConditional c) = e.children :=
    List.filter_eq_self.2 fun c hc => by rw [h c hc]; rfl
  rw [metadata, metadata, children_withoutConditions, hchildren, List.foldl_map]
  simp

/-- A name that no conditional child has says the same. -/
theorem metadataValue?_withoutConditions {e : Element} {name : String}
    (h : ∀ c ∈ e.children, isConditional c = true → c.name ≠ name) :
    metadataValue? e.withoutConditions name = metadataValue? e name := by
  have hnamed : e.withoutConditions.childrenNamed name = (e.childrenNamed name).map withoutConditions := by
    refine filter_children_withoutConditions e (by simp) fun c hc hname => ?_
    exact Bool.eq_false_iff.2 fun hconditional => h c hc hconditional (beq_iff_eq.1 hname)
  rw [metadataValue?, metadataValue?, hnamed, metadataAttributes, metadataAttributes, attributes_withoutConditions,
    List.getLast?_map, Option.map_map]
  simp only [Function.comp_def, trimmedText_withoutConditions]

/-- The metadata of an item are the same exactly if those are that its conditional children have a name for. -/
theorem get?_metadata_withoutConditions_iff (e : Element) :
    (∀ name, (metadata e.withoutConditions).get? name = (metadata e).get? name) ↔
      ∀ c ∈ e.children, isConditional c = true →
        metadataValue? e.withoutConditions c.name = metadataValue? e c.name := by
  simp only [get?_metadata]
  refine ⟨fun h c _ _ => h c.name, fun h name => ?_⟩
  by_cases hname : ∃ c ∈ e.children, isConditional c = true ∧ c.name = name
  · obtain ⟨c, hc, hconditional, rfl⟩ := hname
    exact h c hc hconditional
  · -- nothing with this name has gone
    exact metadataValue?_withoutConditions fun c hc hconditional hc' => hname ⟨c, hc, hconditional, hc'⟩

end ProjectDocument

/-! ## Answers -/

/-- Lists that consist of parts of equal length are related exactly if the parts are. -/
theorem forall₂_append_iff {α β : Type} {R : α → β → Prop} {as more : List α} {bs more' : List β}
    (hlength : as.length = bs.length) :
    List.Forall₂ R (as ++ more) (bs ++ more') ↔ List.Forall₂ R as bs ∧ List.Forall₂ R more more' := by
  induction as generalizing bs with
  | nil =>
    obtain rfl := List.length_eq_zero_iff.1 hlength.symm
    simp
  | cons a as ih =>
    obtain ⟨b, bs, rfl⟩ := List.exists_of_length_succ bs hlength.symm
    have hrest : as.length = bs.length := Nat.succ.inj hlength
    simp only [List.cons_append, List.forall₂_cons, ih hrest, and_assoc]

/-- Concatenated lists are related when their pieces are, provided that the pieces have equal lengths. -/
theorem forall₂_flatMap_iff {α β γ : Type} {R : β → γ → Prop} {f : α → List β} {g : α → List γ} {xs : List α}
    (hlength : ∀ x ∈ xs, (f x).length = (g x).length) :
    List.Forall₂ R (xs.flatMap f) (xs.flatMap g) ↔ ∀ x ∈ xs, List.Forall₂ R (f x) (g x) := by
  induction xs with
  | nil => simp
  | cons x xs ih =>
    rw [List.flatMap_cons, List.flatMap_cons, forall₂_append_iff (hlength x List.mem_cons_self),
      ih fun y hy => hlength y (List.mem_cons_of_mem x hy), List.forall_mem_cons]

/-- The items include the same and say the same under every name. -/
def ProjectItem.Same (a b : ProjectItem) : Prop :=
  a.included = b.included ∧ ∀ name, a.metadata.get? name = b.metadata.get? name

namespace ProjectDocument

open Element

/-- The items of an element are the same exactly if it has none or its metadata are. -/
theorem forall₂_itemsOf_iff (e : Element) :
    List.Forall₂ ProjectItem.Same (itemsOf e.withoutConditions) (itemsOf e) ↔
      (included e ≠ [] → ∀ name, (metadata e.withoutConditions).get? name = (metadata e).get? name) := by
  rw [itemsOf_withoutConditions, itemsOf_eq, List.forall₂_map_left_iff, List.forall₂_map_right_iff, List.forall₂_same]
  refine ⟨fun h hne => ?_, fun h name hname => ⟨rfl, h (List.ne_nil_of_mem hname)⟩⟩
  obtain ⟨name, hname⟩ := List.exists_mem_of_ne_nil _ hne
  exact (h name hname).2

/-- Without what stands under a condition every property is the same. The items of a type are the same exactly if each
element that they come from says the same under the names of its conditional children; so they are if there are no such
children. -/
theorem answers_withoutConditions (root : Element) :
    (∀ name, property root.withoutConditions name = property root name) ∧
    (∀ type, List.Forall₂ ProjectItem.Same (items root.withoutConditions type) (items root type) ↔
      ∀ e ∈ itemElements root type, included e ≠ [] → ∀ c ∈ e.children, isConditional c = true →
        metadataValue? e.withoutConditions c.name = metadataValue? e c.name) ∧
    ∀ type, (∀ e ∈ itemElements root type, ∀ c ∈ e.children, isConditional c = false) →
      items root.withoutConditions type = items root type := by
  refine ⟨fun name => ?_, fun type => ?_, fun type h => ?_⟩
  · rw [property, property, properties_withoutConditions]
  · have hlength : ∀ e ∈ itemElements root type, (itemsOf e.withoutConditions).length = (itemsOf e).length := by
      intro e _
      rw [itemsOf_withoutConditions, itemsOf_eq, List.length_map, List.length_map]
    rw [items_withoutConditions, items_eq, forall₂_flatMap_iff hlength]
    simp only [forall₂_itemsOf_iff, get?_metadata_withoutConditions_iff]
  · rw [items_withoutConditions, items_eq]
    refine List.flatMap_congr fun e he => ?_
    rw [itemsOf_withoutConditions, itemsOf_eq, metadata_withoutConditions (h e he)]

/-- A project that asks for another version of a package under a condition. -/
def conditionalVersion : Element :=
  let stated : Element := ⟨"Version", [], "2.10.0", []⟩
  let conditional : Element := ⟨"Version", [("Condition", "'$(Configuration)' == 'Debug'")], "3.0.0", []⟩
  let reference : Element := ⟨"PackageReference", [("Include", "Serilog")], "", [stated, conditional]⟩
  ⟨"Project", [], "", [⟨"ItemGroup", [], "", [reference]⟩]⟩

/-- The version for one configuration counts for all. -/
theorem not_answers_withoutConditions : ¬ ∀ root : Element,
    (∀ name, property root.withoutConditions name = property root name) ∧
      ∀ type, List.Forall₂ ProjectItem.Same (items root.withoutConditions type) (items root type) := by
  intro h
  have hitems := (h conditionalVersion).2 "PackageReference"
  have hwithout : items conditionalVersion.withoutConditions "PackageReference" =
      [⟨"Serilog", [("Version", "2.10.0")]⟩] := rfl
  have hwith : items conditionalVersion "PackageReference" = [⟨"Serilog", [("Version", "3.0.0")]⟩] := rfl
  rw [hwithout, hwith] at hitems
  cases hitems with
  | cons hsame _ => exact absurd (hsame.2 "Version") (by decide)

end ProjectDocument
end PackageGraph
