import PackageGraph.Json.Reader
import PackageGraph.Proofs.Except
import PackageGraph.Proofs.OrderedMap
/-!
# Names of members

In a document that was read, no object names a member twice: a name that is written again takes the place of the
member that had it.
-/
namespace PackageGraph.Json

mutual

/-- Whether no object in the value names a member twice. -/
def hasDistinctNames : Json → Bool
  | .list items => itemsHaveDistinctNames items
  | .object members => decide (members.map (·.1)).Nodup && membersHaveDistinctNames members
  | _ => true

/-- Whether no object in the items names a member twice. -/
def itemsHaveDistinctNames : List Json → Bool
  | [] => true
  | j :: js => hasDistinctNames j && itemsHaveDistinctNames js

/-- Whether no object in the members names a member twice. -/
def membersHaveDistinctNames : List (String × Json) → Bool
  | [] => true
  | (_, j) :: rest => hasDistinctNames j && membersHaveDistinctNames rest

end

theorem itemsHaveDistinctNames_iff {items : List Json} :
    itemsHaveDistinctNames items = true ↔ ∀ j ∈ items, j.hasDistinctNames = true := by
  induction items with
  | nil => simp [itemsHaveDistinctNames]
  | cons j items ih => simp [itemsHaveDistinctNames, ih]

theorem membersHaveDistinctNames_iff {members : List (String × Json)} :
    membersHaveDistinctNames members = true ↔ ∀ m ∈ members, m.2.hasDistinctNames = true := by
  induction members with
  | nil => simp [membersHaveDistinctNames]
  | cons m members ih => simp [membersHaveDistinctNames, ih]

/-- An object has distinct names when its members do and the value of each member has. -/
theorem hasDistinctNames_object_iff {members : List (String × Json)} :
    (object members).hasDistinctNames = true ↔
      (members.map (·.1)).Nodup ∧ ∀ m ∈ members, m.2.hasDistinctNames = true := by
  rw [hasDistinctNames, Bool.and_eq_true, decide_eq_true_iff, membersHaveDistinctNames_iff]

theorem hasDistinctNames_list_iff {items : List Json} :
    (list items).hasDistinctNames = true ↔ ∀ j ∈ items, j.hasDistinctNames = true := by
  rw [hasDistinctNames, itemsHaveDistinctNames_iff]

/-! ## Members of a value -/

/-- No two members of a value with distinct names share a name, since only an object has members. -/
theorem nodup_members {j : Json} (h : j.hasDistinctNames = true) : (j.members.map (·.1)).Nodup := by
  cases j with
  | object members => exact (hasDistinctNames_object_iff.1 h).1
  | _ => exact List.nodup_nil

theorem hasDistinctNames_of_mem_members {j : Json} (h : j.hasDistinctNames = true) {m : String × Json}
    (hm : m ∈ j.members) : m.2.hasDistinctNames = true := by
  cases j with
  | object members => exact (hasDistinctNames_object_iff.1 h).2 m hm
  | _ => cases hm

/-- The member of a value with distinct names is such a value. -/
theorem hasDistinctNames_of_get? {j k : Json} {name : String} (h : j.hasDistinctNames = true)
    (hk : j.get? name = some k) : k.hasDistinctNames = true := by
  cases j with
  | object members => exact (hasDistinctNames_object_iff.1 h).2 _ (OrderedMap.mem_of_get? hk)
  | _ => cases hk

/-! ## Documents that were read -/

/-- A numeral is read as a number, which has no members. -/
theorem hasDistinctNames_of_numeral {negative : Bool} {cs rest : List Char} {j : Json}
    (h : numeral negative cs = .ok (j, rest)) : j.hasDistinctNames = true := by
  unfold numeral at h
  split at h
  · cases h
  · dsimp only at h
    split at h
    · split at h
      · cases h
        rfl
      · cases h
    · cases h
      rfl

/-- What is read off a text without brackets has no members. -/
theorem hasDistinctNames_of_scalar {cs rest : List Char} {j : Json} (h : scalar cs = .ok (j, rest)) :
    j.hasDistinctNames = true := by
  unfold scalar at h
  split at h
  · rename_i read hread
    obtain rfl := Except.ok.inj h
    obtain ⟨word, hword, hmap⟩ := List.exists_of_findSome?_eq_some hread
    obtain ⟨after, -, hj⟩ := Option.map_eq_some_iff.1 hmap
    have hall : wordValues.all (·.2.hasDistinctNames) = true := rfl
    have hword := List.all_eq_true.1 hall word hword
    cases hj
    exact hword
  · split at h
    · exact hasDistinctNames_of_numeral h
    · exact hasDistinctNames_of_numeral h

/-- What the three functions of the reader return with so much fuel names no member twice. -/
structure ReadsDistinctNames (fuel : Nat) : Prop where
  value : ∀ {cs rest j}, value fuel cs = .ok (j, rest) → j.hasDistinctNames = true
  items : ∀ {read cs rest j}, (∀ k ∈ read, k.hasDistinctNames = true) →
    listItems fuel read cs = .ok (j, rest) → j.hasDistinctNames = true
  members : ∀ {read cs rest j}, (object read).hasDistinctNames = true →
    objectMembers fuel read cs = .ok (j, rest) → j.hasDistinctNames = true

/-- Values, lists and objects with distinct names are all that is read, whatever the fuel. -/
theorem readsDistinctNames (fuel : Nat) : ReadsDistinctNames fuel := by
  -- The functions call one another with less fuel, so one induction carries the three statements.
  induction fuel with
  | zero =>
    refine ⟨?_, ?_, ?_⟩
    · intro cs rest j h
      cases h
    · intro read cs rest j _ h
      cases h
    · intro read cs rest j _ h
      cases h
  | succ fuel ih =>
    refine ⟨fun h => ?_, fun hread h => ?_, fun hread h => ?_⟩
    · unfold value at h
      split at h
      · obtain ⟨s, -, hs⟩ := Except.map_eq_ok_iff.1 h
        cases hs
        rfl
      · split at h
        · cases h
          rfl
        · exact ih.items (by simp) h
      · split at h
        · cases h
          rfl
        · exact ih.members rfl h
      · exact hasDistinctNames_of_scalar h
    · unfold listItems at h
      split at h
      · cases h
      · rename_i k rest hk
        have hitems : ∀ i ∈ k :: _, i.hasDistinctNames = true := List.forall_mem_cons.2 ⟨ih.value hk, hread⟩
        split at h
        · exact ih.items hitems h
        · cases h
          exact hasDistinctNames_list_iff.2 fun i hi => hitems i (List.mem_reverse.1 hi)
        · cases h
    · unfold objectMembers at h
      split at h
      · split at h
        · cases h
        · rename_i name rest hname
          split at h
          · split at h
            · cases h
            · rename_i k rest hk
              obtain ⟨hnames, hinner⟩ := hasDistinctNames_object_iff.1 hread
              have hput : (object (OrderedMap.put _ name k)).hasDistinctNames = true :=
                hasDistinctNames_object_iff.2 ⟨OrderedMap.nodup_keys_put name k hnames, fun m hm =>
                  (OrderedMap.mem_of_mem_put hm).elim (fun h => h ▸ ih.value hk) (hinner m)⟩
              dsimp only at h
              split at h
              · exact ih.members hput h
              · cases h
                exact hput
              · cases h
          · cases h
      · cases h

/-- A document that was read names no member of an object twice. -/
theorem hasDistinctNames_of_parse {s : String} {j : Json} (h : parse s = .ok j) :
    j.hasDistinctNames = true := by
  unfold parse parseChars at h
  split at h
  · cases h
  · rename_i k rest hk
    split at h
    · exact Except.ok.inj h ▸ (readsDistinctNames _).value hk
    · cases h

end PackageGraph.Json
