import Mathlib.Data.List.Forall2
import PackageGraph.Aggregate.Specification
import PackageGraph.Project.PackageReferences
import PackageGraph.Proofs.Aggregate.References
import PackageGraph.Proofs.Project.Metadata
import PackageGraph.Proofs.VersionRange.Notation
/-!
# Two readers of package references

The package references of a project file are read twice: as records, wherever they stand in the file, and as the
items from which the dependencies of the project are made. Where references stand in item groups and nothing is under a
condition, both find the same packages in the same order. Their ranges need not agree, because a record takes the
version from the first child of a reference, whatever its name, and a dependency from the metadata under its name.
-/
namespace PackageGraph

open ProjectDocument

namespace Element

theorem descendants_eq (e : Element) : e.descendants = e :: descendantsOf e.children := by
  cases e
  rfl

theorem descendantsOf_eq (es : List Element) : descendantsOf es = es.flatMap descendants := by
  induction es with
  | nil => rfl
  | cons e es ih => rw [descendantsOf, ih, List.flatMap_cons]

theorem mem_descendants_self (e : Element) : e ∈ e.descendants := by
  rw [descendants_eq]
  exact List.mem_cons_self

/-- The descendants of a child are descendants. -/
theorem mem_descendants_of_child {e c d : Element} (hc : c ∈ e.children) (hd : d ∈ c.descendants) :
    d ∈ e.descendants := by
  rw [descendants_eq, descendantsOf_eq]
  exact List.mem_cons_of_mem e (List.mem_flatMap.2 ⟨c, hc, hd⟩)

/-- Whether the element is a package reference. -/
def isReference (e : Element) : Bool := e.name == "PackageReference"

end Element

/-! ## Where references stand -/

/-- Nothing in a project file is under a condition, and its package references stand directly in the item groups below
the root and include one package each. -/
structure ProjectDocument.PlainReferences (root : Element) : Prop where
  unconditional : ∀ e ∈ root.descendants, isConditional e = false
  notRoot : root.isReference = false
  notGroup : ∀ g ∈ root.children, g.isReference = false
  notElsewhere : ∀ g ∈ root.children, g.name ≠ "ItemGroup" →
    ∀ e ∈ Element.descendantsOf g.children, e.isReference = false
  notBelow : ∀ g ∈ root.children, ∀ item ∈ g.children, ∀ e ∈ Element.descendantsOf item.children, e.isReference = false
  named : ∀ e ∈ root.descendants, e.isReference = true → Text.isBlankText (e.attributeText "Include") = false
  single : ∀ e ∈ root.descendants, e.isReference = true → ';' ∉ (e.attributeText "Include").toList

/-- The package references of a project file, wherever they stand. -/
def ProjectDocument.references (root : Element) : List Element := root.descendants.filter Element.isReference

namespace ProjectDocument

/-- Where nothing is under a condition all children of groups count. -/
theorem groupMembers_of_unconditional {root : Element} (h : ∀ e ∈ root.descendants, isConditional e = false)
    (group : String) : groupMembers root group = (root.children.filter (·.name == group)).flatMap Element.children := by
  have hgroups : (root.children.filter fun g => g.name == group && !isConditional g) =
      root.children.filter (·.name == group) := by
    refine List.filter_congr fun g hg => ?_
    rw [h g (Element.mem_descendants_of_child hg (Element.mem_descendants_self g)), Bool.not_false, Bool.and_true]
  rw [groupMembers, hgroups]
  refine List.filter_eq_self.2 fun e he => ?_
  obtain ⟨g, hg, he⟩ := List.mem_flatMap.1 he
  have hroot : e ∈ root.descendants := Element.mem_descendants_of_child (List.mem_of_mem_filter hg)
    (Element.mem_descendants_of_child he (Element.mem_descendants_self e))
  rw [h e hroot, Bool.not_false]

namespace PlainReferences

variable {root : Element} (h : PlainReferences root)

include h

/-- Of an item group the references are its children, and elsewhere there are none. -/
theorem filter_descendants {g : Element} (hg : g ∈ root.children) :
    g.descendants.filter Element.isReference =
      if g.name == "ItemGroup" then g.children.filter Element.isReference else [] := by
  rw [Element.descendants_eq, List.filter_cons_of_neg (by rw [h.notGroup g hg]; exact Bool.false_ne_true)]
  split
  · -- a child is a reference or has none below it
    have hchild : ∀ e ∈ g.children, e.descendants.filter Element.isReference = if e.isReference then [e] else [] := by
      intro e he
      rw [Element.descendants_eq, List.filter_cons, List.filter_eq_nil_iff.2]
      intro d hd
      rw [h.notBelow g hg e he d hd]
      exact Bool.false_ne_true
    rw [Element.descendantsOf_eq, List.filter_flatMap, List.flatMap_congr hchild, ← flatMap_filter,
      List.flatMap_singleton']
  · rename_i hname
    refine List.filter_eq_nil_iff.2 fun e he => ?_
    rw [h.notElsewhere g hg (by simpa using hname) e he]
    exact Bool.false_ne_true

/-- Both readers find the same elements. -/
theorem references_eq : references root = itemElements root "PackageReference" := by
  have hroot : ¬ root.isReference = true := by
    rw [h.notRoot]
    exact Bool.false_ne_true
  rw [references, Element.descendants_eq, List.filter_cons_of_neg hroot, Element.descendantsOf_eq, List.filter_flatMap,
    List.flatMap_congr fun g hg => h.filter_descendants hg, ← flatMap_filter]
  -- among the members of groups as well the references are picked out group by group
  rw [itemElements, groupMembers_of_unconditional h.unconditional, List.filter_flatMap]
  rfl

/-! ## One record and one item for each reference -/

/-- A reference that is read names something other than blanks. -/
theorem trim_include {e : Element} (he : e ∈ references root) : Text.trim (e.attributeText "Include") ≠ "" := by
  obtain ⟨hroot, hreference⟩ := List.mem_filter.1 he
  intro hempty
  have hblank : Text.trimChars (e.attributeText "Include").toList = [] := by
    rw [← String.toList_ofList (l := Text.trimChars _), ← Text.trim, hempty]
    rfl
  have hnamed := h.named e hroot hreference
  rw [Text.isBlankText, List.all_eq_true.2 (Text.trimChars_eq_nil_iff.1 hblank)] at hnamed
  cases hnamed

/-- There is one record for each reference. -/
theorem ofDocument_eq : PackageReferenceRecord.ofDocument root =
    (references root).map fun e => ⟨Text.trim (e.attributeText "Include"), PackageReferenceRecord.versionOf e⟩ := by
  rw [← List.filterMap_eq_map]
  refine List.filterMap_congr fun e he => ?_
  have hne : (e.attributeText "Include").isEmpty = false := by
    refine Bool.eq_false_iff.2 fun hempty => h.trim_include he ?_
    rw [String.isEmpty_iff.1 hempty]
    rfl
  rw [PackageReferenceRecord.ofElement?, hne, if_neg Bool.false_ne_true, Function.comp_apply]

/-- There is one item for each reference. -/
theorem items_eq_map : items root "PackageReference" =
    (references root).map fun e => ⟨Text.trim (e.attributeText "Include"), metadata e⟩ := by
  rw [items_eq, ← h.references_eq, List.map_eq_flatMap]
  refine List.flatMap_congr fun e he => ?_
  obtain ⟨hroot, hreference⟩ := List.mem_filter.1 he
  have hfields : Text.fields ';' (e.attributeText "Include") = [e.attributeText "Include"] := by
    rw [Text.fields, Text.splitOn_of_notMem (h.single e hroot hreference), List.map_singleton, String.ofList_toList]
  have hkept : ([Text.trim (e.attributeText "Include")].filter fun s => !s.isEmpty) =
      [Text.trim (e.attributeText "Include")] := List.filter_eq_self.2 (by simpa using h.trim_include he)
  rw [itemsOf, hfields, List.map_singleton, hkept, List.map_singleton]

end PlainReferences

end ProjectDocument

/-- The dependency is on the package of the record, with an equal range. -/
def PackageReferenceRecord.Matches (r : PackageReferenceRecord) (d : Dependency) : Prop :=
  r.name = d.name ∧ (r.range == d.range) = true

/-- The records and the dependencies of a project file match, in order. -/
def ProjectDocument.ReadersAgree (root : Element) : Prop :=
  List.Forall₂ PackageReferenceRecord.Matches (PackageReferenceRecord.ofDocument root)
    ((items root "PackageReference").map Specification.dependencyOf)

/-- Without version every version will do, as for the empty text. -/
theorem Specification.rangeOf_eq (item : ProjectItem) : rangeOf item = .parseOrAll (item.metadataText "Version") := by
  rw [rangeOf]
  split
  · rename_i hempty
    rw [String.isEmpty_iff.1 hempty]
    rfl
  · rfl

namespace ProjectDocument

/-- The version that a dependency is made from. -/
def dependencyVersion (e : Element) : String := (metadataText? e "Version").getD ""

/-- The range of an item is that of the version found in its metadata by name. -/
theorem rangeOf_metadata (included : String) (e : Element) :
    Specification.rangeOf ⟨included, metadata e⟩ = .parseOrAll (dependencyVersion e) := by
  rw [Specification.rangeOf_eq, ProjectItem.metadataText, metadata?_metadata, dependencyVersion]

/-! ## Where the version is given once -/

/-- The reference gives its version in one place at most: in an attribute and without children, or in the first child
alone. -/
inductive StatesVersionOnce (e : Element) : Prop where
  | inAttribute (childless : e.children = [])
      (spelling : ∀ key ∈ e.attributes.keys, Text.lower key = "version" → key = "Version")
  | inChild (first : Element) (rest : List Element) (children : e.children = first :: rest)
      (name : first.name = "Version") (once : ∀ c ∈ rest, c.name ≠ "Version")

/-- A reference that states its version once has the same range for both readers. -/
theorem StatesVersionOnce.parseOrAll_eq {e : Element} (h : StatesVersionOnce e) :
    VersionRange.parseOrAll (PackageReferenceRecord.versionOf e) = VersionRange.parseOrAll (dependencyVersion e) := by
  cases h with
  | inAttribute hchildless hspelling =>
    have hnames : ∀ other ∈ metadataNames e, Text.lower other = Text.lower "Version" → other = "Version" := by
      intro other hother hlower
      rw [metadataNames, hchildless, List.map_nil, List.append_nil] at hother
      exact hspelling other (((List.filter_sublist).map _).subset hother) hlower
    have hversion : dependencyVersion e = e.attributeText "Version" := by
      rw [dependencyVersion, metadataText?_of_spelling hnames, metadataValue?, Element.childrenNamed, hchildless,
        get?_metadataAttributes e (by decide)]
      rfl
    rw [hversion, PackageReferenceRecord.versionOf, hchildless]
    exact VersionRange.parseOrAll_trim _
  | inChild first rest hchildren hname honce =>
    -- the first child is the last with the name
    have hlast : (e.childrenNamed "Version").getLast? = some first := by
      rw [Element.childrenNamed, hchildren, List.filter_cons_of_pos (by simp [hname]),
        List.filter_eq_nil_iff.2 fun c hc => by simpa using honce c hc]
      rfl
    have hversion : dependencyVersion e = first.trimmedText := by
      rw [dependencyVersion, metadataText?, metadataValue?, hlast]
      rfl
    rw [hversion, PackageReferenceRecord.versionOf, hchildren]

/-- The ranges are compared reference by reference. -/
theorem PlainReferences.readersAgree_iff {root : Element} (h : PlainReferences root) :
    ReadersAgree root ↔ ∀ e ∈ references root, (VersionRange.parseOrAll (PackageReferenceRecord.versionOf e) ==
      VersionRange.parseOrAll (dependencyVersion e)) = true := by
  rw [ReadersAgree, h.ofDocument_eq, h.items_eq_map, List.map_map, List.forall₂_map_left_iff,
    List.forall₂_map_right_iff, List.forall₂_same]
  refine forall₂_congr fun e he => ?_
  have hrange := rangeOf_metadata (Text.trim (e.attributeText "Include")) e
  rw [← hrange]
  exact and_iff_right rfl

/-- Where all references stand in item groups and nothing is under a condition, both readers find the same packages in
the same order. They agree on the ranges exactly if of each reference the text of the first child, or without children
the attribute, stands for the same range as the metadata under the name of the version. They do where each reference
gives its version in one place. -/
theorem readers_agree_iff {root : Element} (h : PlainReferences root) :
    (PackageReferenceRecord.ofDocument root).map PackageReferenceRecord.name =
      ((items root "PackageReference").map Specification.dependencyOf).map Dependency.name ∧
    (ReadersAgree root ↔ ∀ e ∈ references root, (VersionRange.parseOrAll (PackageReferenceRecord.versionOf e) ==
      VersionRange.parseOrAll (dependencyVersion e)) = true) ∧
    ((∀ e ∈ references root, StatesVersionOnce e) → ReadersAgree root) := by
  refine ⟨?_, h.readersAgree_iff, fun honce => h.readersAgree_iff.2 fun e he => ?_⟩
  · rw [h.ofDocument_eq, h.items_eq_map, List.map_map, List.map_map, List.map_map]
    rfl
  · rw [(honce e he).parseOrAll_eq]
    exact VersionRange.beq_refl _

/-- A project with one item group. -/
def projectOf (items : List Element) : Element := ⟨"Project", [], "", [⟨"ItemGroup", [], "", items⟩]⟩

/-- A reference that gives its version in an attribute. -/
def serilog (children : List Element) : Element :=
  ⟨"PackageReference", [("Include", "Serilog"), ("Version", "2.10.0"), ("PrivateAssets", "All")], "", children⟩

/-- A reference that gives its version in a child, with white space around it. -/
def nunit : Element := ⟨"PackageReference", [("Include", " NUnit ")], "", [⟨"Version", [], " 3.13.2\n", []⟩]⟩

/-- Two references as they are usually written, one with its version inside and one with an attribute. -/
theorem readers_agree_of_usual_references :
    let root := projectOf [serilog [], nunit]
    PlainReferences root ∧
      (PackageReferenceRecord.ofDocument root).map PackageReferenceRecord.name = ["Serilog", "NUnit"] ∧
      ReadersAgree root := by
  intro root
  have hplain : PlainReferences root :=
    ⟨by decide, by decide, by decide, by decide, by decide, by decide, by decide⟩
  refine ⟨hplain, by decide, (readers_agree_iff hplain).2.2 fun e he => ?_⟩
  have hreferences : references root = [serilog [], nunit] := rfl
  rw [hreferences, List.mem_cons, List.mem_singleton] at he
  rcases he with rfl | rfl
  · exact .inAttribute rfl (by decide)
  · exact .inChild _ [] rfl rfl (by simp)

/-- Where the assets of a reference stand in a child they are taken for its version. -/
theorem not_readers_agree : ¬ ∀ root, PlainReferences root → ReadersAgree root := by
  intro h
  have hplain : PlainReferences (projectOf [serilog [⟨"IncludeAssets", [], "Compile;Runtime", []⟩]]) :=
    ⟨by decide, by decide, by decide, by decide, by decide, by decide, by decide⟩
  cases h _ hplain with
  | cons hmatches _ => exact absurd hmatches.2 (by decide)

end ProjectDocument
end PackageGraph
