import PackageGraph.Json.Shape
/-!
# Documents without violations

A violation is reported exactly if a document does not have the shape.
-/
namespace PackageGraph.Json.Shape

/-! ## Violations -/

mutual

/-- A value has a shape exactly if nothing keeps it from having it. -/
theorem violationsAt_eq_nil_iff : ∀ (s : Shape) (place : Place) (j : Json),
    violationsAt place s j = [] ↔ conforms s j = true
  | .anything, _, _ => by simp [violationsAt, conforms]
  | .scalar kind, place, j => by simp [violationsAt, conforms]
  | .listOf item, place, j => by
    cases j with
    | list items =>
      have hitem := violationsAt_eq_nil_iff item
      have hfst : (∀ j ∈ items.zipIdx.map Prod.fst, conforms item j = true) ↔
          ∀ x ∈ items.zipIdx, conforms item x.1 = true := List.forall_mem_map
      rw [List.zipIdx_map_fst] at hfst
      simp only [violationsAt, conforms, List.flatMap_eq_nil_iff, List.all_eq_true, hfst, hitem]
    | _ => simp [violationsAt, conforms]
  | .record required fields others, place, j => by
    cases j with
    | object members =>
      have hrequired : ((required.filter fun name => !OrderedMap.contains members name).map
          (⟨place, .missingMember ·⟩ : String → Violation)) = [] ↔
          (required.all fun name => OrderedMap.contains members name) = true := by
        simp
      have hothers : (members.flatMap fun (name, j) => if (fields.map (·.1)).contains name then []
            else violationsAt (place ++ [.member name]) others j) = [] ↔
          (members.all fun (name, j) => (fields.map (·.1)).contains name || conforms others j) = true := by
        rw [List.flatMap_eq_nil_iff, List.all_eq_true]
        -- a member with a field of its own is not checked against the shape of the others
        refine forall₂_congr fun m _ => ?_
        cases hname : (fields.map (·.1)).contains m.1 with
        | true => simp only [hname, if_true, Bool.true_or]
        | false => simp only [hname, Bool.false_eq_true, if_false, Bool.false_or, violationsAt_eq_nil_iff others]
      rw [violationsAt, conforms, List.append_eq_nil_iff, List.append_eq_nil_iff, hrequired, hothers,
        fieldViolations_eq_nil_iff fields, Bool.and_eq_true, Bool.and_eq_true]
    | _ => simp [violationsAt, conforms]
  | .either first second, place, j => by
    rw [violationsAt, conforms]
    split <;> simp_all

/-- Nothing is reported of the fields of an object exactly when each of them conforms. -/
theorem fieldViolations_eq_nil_iff : ∀ (fields : List (String × Shape)) (place : Place)
    (members : List (String × Json)),
    fieldViolations place fields members = [] ↔ fieldsConform fields members = true
  | [], _, _ => by simp [fieldViolations, fieldsConform]
  | (name, s) :: rest, place, members => by
    have hfield : (members.flatMap fun (n, j) => if n == name then violationsAt (place ++ [.member name]) s j
          else []) = [] ↔ (members.all fun (n, j) => n != name || conforms s j) = true := by
      rw [List.flatMap_eq_nil_iff, List.all_eq_true]
      refine forall₂_congr fun m _ => ?_
      by_cases hname : m.1 = name
      · simp only [hname, beq_self_eq_true, if_true, bne_self_eq_false, Bool.false_or, violationsAt_eq_nil_iff s]
      · simp [hname]
    rw [fieldViolations, fieldsConform, List.append_eq_nil_iff, hfield, fieldViolations_eq_nil_iff rest,
      Bool.and_eq_true]

end

/-- A list of violations has a least one unless it is empty. -/
theorem least_eq_none_iff {vs : List Violation} : least vs = none ↔ vs = [] := by
  cases vs with
  | nil => simp [least]
  | cons v vs =>
    rw [least]
    split
    · simp
    · split <;> simp

/-- No violation is reported exactly if the document has the shape. -/
theorem firstViolation_eq_none_iff {s : Shape} {j : Json} : s.firstViolation j = none ↔ s.conforms j = true := by
  rw [firstViolation, least_eq_none_iff, violationsAt_eq_nil_iff]

/-! ## Objects -/

/-- An object conforms to a map of `s` when the value of each member conforms to `s`, whatever its name. -/
theorem conforms_mapOf_iff {s : Shape} {members : List (String × Json)} :
    (mapOf s).conforms (.object members) = true ↔ ∀ m ∈ members, s.conforms m.2 = true := by
  simp [mapOf, conforms, fieldsConform]

/-- The fields conform when every member that bears the name of one conforms to it. -/
theorem fieldsConform_iff {fields : List (String × Shape)} {members : List (String × Json)} :
    fieldsConform fields members = true ↔
      ∀ f ∈ fields, ∀ m ∈ members, m.1 = f.1 → f.2.conforms m.2 = true := by
  induction fields with
  | nil => simp [fieldsConform]
  | cons f fields ih =>
    rw [fieldsConform, Bool.and_eq_true, ih, List.forall_mem_cons, List.all_eq_true]
    refine and_congr_left fun _ => forall₂_congr fun m _ => ?_
    by_cases hname : m.1 = f.1 <;> simp [hname]

/-- Members that no field names are free. -/
theorem conforms_withFields_iff {fields : List (String × Shape)} {members : List (String × Json)} :
    (withFields fields).conforms (.object members) = true ↔
      ∀ m ∈ members, ∀ f ∈ fields, m.1 = f.1 → f.2.conforms m.2 = true := by
  have hothers : (members.all fun (name, j) => (fields.map (·.1)).contains name || conforms .anything j) = true := by
    simp [conforms]
  rw [withFields, conforms, hothers, Bool.and_true, List.all_nil, Bool.true_and, fieldsConform_iff]
  constructor
  · exact fun h m hm f hf => h f hf m hm
  · exact fun h f hf m hm => h m hm f hf

end PackageGraph.Json.Shape
