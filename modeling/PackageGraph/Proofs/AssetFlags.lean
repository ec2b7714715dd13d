import PackageGraph.AssetFlags
import PackageGraph.Proofs.Text.Blank
import PackageGraph.Proofs.Text.Split
/-!
# The written form of asset flags

Every set of asset groups is read back from its written form, whatever the default of the place is.
-/
namespace PackageGraph.AssetFlags

open Text

/-! ## Sets and their members -/

@[simp] theorem has_ofTest (p : AssetGroup → Bool) (g : AssetGroup) : (ofTest p).has g = p g := by
  cases g <;> rfl

/-- Flags are known by the groups that they have. -/
theorem eq_of_has {f g : AssetFlags} (h : ∀ a, f.has a = g.has a) : f = g := by
  ext
  · exact h .runtime
  · exact h .compile
  · exact h .build
  · exact h .native
  · exact h .contentFiles
  · exact h .analyzers
  · exact h .buildTransitive

theorem without_none (f : AssetFlags) : f.without none = f := by
  refine eq_of_has fun a => ?_
  simp [without, none]

/-- A union holds a group exactly if one of the sets does. -/
theorem has_foldl_union (sets : List AssetFlags) (f : AssetFlags) (a : AssetGroup) :
    (sets.foldl union f).has a = (f.has a || sets.any (·.has a)) := by
  induction sets generalizing f with
  | nil => simp
  | cons g sets ih =>
    rw [List.foldl_cons, ih, union, has_ofTest, Bool.or_assoc, List.any_cons]

/-- A union of single groups has these groups. -/
theorem has_foldl_union_only (groups : List AssetGroup) (f : AssetFlags) (a : AssetGroup) :
    ((groups.map only).foldl union f).has a = (f.has a || groups.contains a) := by
  simp only [has_foldl_union, List.any_map, Function.comp_def, only, has_ofTest, List.any_beq]

theorem mem_groups (g : AssetGroup) : g ∈ AssetGroup.all := by
  cases g <;> decide

/-- A set is the union of its groups. -/
theorem foldl_union_groups (f : AssetFlags) : ((AssetGroup.all.filter f.has).map only).foldl union none = f := by
  refine eq_of_has fun a => ?_
  rw [has_foldl_union_only, none, has_ofTest, Bool.false_or, Bool.eq_iff_iff, List.contains_iff_mem, List.mem_filter]
  exact and_iff_right (mem_groups a)

/-! ## Reading names -/

/-- Each group is found under its name. -/
theorem ofName?_name (g : AssetGroup) : ofName? g.name.toList = some (only g) := by
  cases g <;> rfl

/-- White space before a name does not count. -/
theorem ofName?_cons_of_isBlank {c : Char} (h : isBlank c = true) (cs : List Char) :
    ofName? (c :: cs) = ofName? cs := by
  unfold ofName?
  rw [trimChars_cons_of_isBlank h]

/-- No name of a group has a separator in it. -/
theorem not_isSeparator_of_mem_name {g : AssetGroup} {c : Char} (h : c ∈ g.name.toList) :
    isSeparator c = false := by
  have hall : ∀ g : AssetGroup, g.name.toList.all (!isSeparator ·) = true := by
    intro g
    cases g <;> rfl
  simpa using List.all_eq_true.1 (hall g) c h

/-- White space before a text does not change the names in it. -/
theorem filterMap_ofName?_cons_of_isBlank {c : Char} (hblank : isBlank c = true) (hsep : isSeparator c = false)
    (cs : List Char) : (splitWhere isSeparator (c :: cs)).filterMap ofName? =
      (splitWhere isSeparator cs).filterMap ofName? := by
  rw [splitWhere, if_neg (by simp [hsep])]
  cases hfields : splitWhere isSeparator cs with
  | nil => exact absurd hfields (splitWhere_ne_nil _ cs)
  | cons field fields => simp [List.filterMap_cons, ofName?_cons_of_isBlank hblank]

/-- The names of groups are read back as the groups. -/
theorem filterMap_ofName?_join {groups : List AssetGroup} (h : groups ≠ []) :
    (splitWhere isSeparator (join ", " (groups.map AssetGroup.name)).toList).filterMap ofName? =
      groups.map only := by
  induction groups with
  | nil => exact absurd rfl h
  | cons g groups ih =>
    have hname : ∀ c ∈ g.name.toList, isSeparator c = false := fun c => not_isSeparator_of_mem_name
    cases groups with
    | nil => simp [join, splitWhere_of_forall_not hname, ofName?_name]
    | cons g' groups =>
      -- the blank after the comma is the first character of the next field
      have hjoin : (join ", " ((g :: g' :: groups).map AssetGroup.name)).toList =
          g.name.toList ++ ',' :: ' ' :: (join ", " ((g' :: groups).map AssetGroup.name)).toList := by
        simp [join]
      rw [hjoin, splitWhere_append_cons hname rfl, List.filterMap_cons, ofName?_name,
        filterMap_ofName?_cons_of_isBlank rfl rfl, ih (by simp)]
      rfl

/-! ## Reading the written form -/

/-- Names that are joined stand for the union of their groups. -/
theorem named_join {groups : List AssetGroup} (h : groups ≠ []) :
    named (join ", " (groups.map AssetGroup.name)).toList = (groups.map only).foldl union none := by
  rw [named, filterMap_ofName?_join h]

/-- Flags that are not empty have a group. -/
theorem groups_ne_nil {f : AssetFlags} (h : f ≠ none) : AssetGroup.all.filter f.has ≠ [] := by
  intro hnil
  have hf := foldl_union_groups f
  rw [hnil] at hf
  exact h hf.symm

/-- The text of flags stands for these flags. -/
theorem named_text (f : AssetFlags) : named f.text.toList = f := by
  unfold text
  split
  · rename_i hf
    subst hf
    rfl
  · split
    · rename_i hf
      subst hf
      rfl
    · rename_i hf
      rw [named_join (groups_ne_nil hf), foldl_union_groups]

/-- A blank text names no group, so the written form of a set is none. -/
theorem not_isBlankText_text (f : AssetFlags) : isBlankText f.text = false := by
  unfold text
  split
  · rfl
  · split
    · rfl
    · rename_i hf
      cases hgroups : AssetGroup.all.filter f.has with
      | nil => exact absurd hgroups (groups_ne_nil hf)
      | cons g groups =>
        -- the first name is there in any case, whether or not others follow it
        have hname : g.name.toList.all isBlank = false := by
          cases g <;> rfl
        cases groups with
        | nil => simpa [isBlankText, join] using hname
        | cons g' groups =>
          have hjoin : (join ", " ((g :: g' :: groups).map AssetGroup.name)).toList =
              g.name.toList ++ ", ".toList ++ (join ", " ((g' :: groups).map AssetGroup.name)).toList := by
            simp [join]
          rw [isBlankText, hjoin, List.all_append, List.all_append, hname]
          rfl

/-- A set is read back from its written form. -/
theorem parse_text (f default : AssetFlags) : parse f.text default = f := by
  rw [parse, not_isBlankText_text, if_neg Bool.false_ne_true, named_text]

end PackageGraph.AssetFlags
