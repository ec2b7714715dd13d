import PackageGraph.Proofs.Version.Order
import PackageGraph.Proofs.VersionRange.Notation
/-!
# Membership in a range

What a bound admits goes on in one direction, so that the members of a range lie side by side. A range that was read
has bounds between which a version lies, and so its bounds are members exactly if they are included. Equal ranges have
the same members, and therefore so has the range that the normalized form is read as.
-/
namespace PackageGraph.VersionRange

variable {r s : VersionRange} {u v w : Version}

/-! ## One bound -/

/-- A lower bound admits what comes after it, and itself if it is included. -/
theorem admitsFromBelow_of_min {low : Version} (h : r.min = some low) :
    r.admitsFromBelow v = true ↔ low < v ∨ (r.minInclusive = true ∧ (low == v) = true) := by
  simp only [admitsFromBelow, h]
  cases r.minInclusive with
  | true =>
    have hle : (v.compare low != .lt) = true ↔ low < v ∨ (low == v) = true := by
      rw [bne_iff_ne, ne_eq, ← Version.lt_iff]
      exact Version.not_lt_iff
    simpa using hle
  | false => simp [Version.gt_iff]

/-- An upper bound admits what comes before it, and itself if it is included. -/
theorem admitsFromAbove_of_max {high : Version} (h : r.max = some high) :
    r.admitsFromAbove v = true ↔ v < high ∨ (r.maxInclusive = true ∧ (v == high) = true) := by
  simp only [admitsFromAbove, h]
  cases r.maxInclusive with
  | true =>
    have hle : (v.compare high != .gt) = true ↔ v < high ∨ (v == high) = true := by
      rw [bne_iff_ne, ne_eq, ← Version.gt_iff]
      exact Version.not_lt_iff
    simpa using hle
  | false => simp [Version.lt_iff]

/-- What is not below a member is not below the lower bound. -/
theorem admitsFromBelow_of_le (huv : u ≤ v) (hu : r.admitsFromBelow u = true) : r.admitsFromBelow v = true := by
  cases hmin : r.min with
  | none => rw [admitsFromBelow, hmin]
  | some low =>
    rw [admitsFromBelow_of_min hmin] at hu ⊢
    rcases hu with hlt | ⟨hincluded, hequal⟩
    · exact .inl (Version.lt_of_lt_of_le hlt huv)
    · have hle : low ≤ v := Version.le_trans (.inr hequal) huv
      exact hle.imp id fun h => ⟨hincluded, h⟩

/-- What is not above a member is not above the upper bound. -/
theorem admitsFromAbove_of_le (hvw : v ≤ w) (hw : r.admitsFromAbove w = true) : r.admitsFromAbove v = true := by
  cases hmax : r.max with
  | none => rw [admitsFromAbove, hmax]
  | some high =>
    rw [admitsFromAbove_of_max hmax] at hw ⊢
    rcases hw with hlt | ⟨hincluded, hequal⟩
    · exact .inl (Version.lt_of_le_of_lt hvw hlt)
    · have hle : v ≤ high := Version.le_trans hvw (.inr hequal)
      exact hle.imp id fun h => ⟨hincluded, h⟩

/-! ## Both bounds -/

/-- A version is in a range when both bounds admit it. -/
theorem satisfies_iff : r.satisfies v = true ↔ r.admitsFromBelow v = true ∧ r.admitsFromAbove v = true := by
  rw [satisfies, Bool.and_eq_true]

/-- Between two members there are members only. -/
theorem satisfies_of_between (huv : u ≤ v) (hvw : v ≤ w) (hu : r.satisfies u = true) (hw : r.satisfies w = true) :
    r.satisfies v = true :=
  satisfies_iff.2 ⟨admitsFromBelow_of_le huv (satisfies_iff.1 hu).1, admitsFromAbove_of_le hvw (satisfies_iff.1 hw).2⟩

/-- Equal versions are members of the same ranges. -/
theorem satisfies_congr (h : (u == v) = true) (r : VersionRange) : r.satisfies u = r.satisfies v := by
  have huv : u ≤ v := .inr h
  have hvu : v ≤ u := .inr (Version.beq_symm h)
  rw [Bool.eq_iff_iff]
  constructor
  · intro hu
    exact satisfies_of_between huv hvu hu hu
  · intro hv
    exact satisfies_of_between hvu huv hv hv

/-- Equal bounds are both missing, or every version compares alike with both. -/
theorem compare_eq_of_bound_beq {a b : Option Version} (h : (a == b) = true) :
    (a = none ∧ b = none) ∨ ∃ u w, a = some u ∧ b = some w ∧ ∀ v : Version, v.compare u = v.compare w := by
  cases a with
  | none =>
    cases b with
    | none => exact .inl ⟨rfl, rfl⟩
    | some w => cases h
  | some u =>
    cases b with
    | none => cases h
    | some w => exact .inr ⟨u, w, rfl, rfl, fun v => Std.TransCmp.congr_right (Version.beq_iff.1 h)⟩

theorem admitsFromBelow_congr (h : (s.min == r.min) = true) (hincl : s.minInclusive = r.minInclusive) (v : Version) :
    s.admitsFromBelow v = r.admitsFromBelow v := by
  unfold admitsFromBelow
  rcases compare_eq_of_bound_beq h with ⟨hs, hr⟩ | ⟨low, low', hs, hr, hsame⟩
  · rw [hs, hr]
  · simp only [hs, hr, hincl, hsame v]

theorem admitsFromAbove_congr (h : (s.max == r.max) = true) (hincl : s.maxInclusive = r.maxInclusive) (v : Version) :
    s.admitsFromAbove v = r.admitsFromAbove v := by
  unfold admitsFromAbove
  rcases compare_eq_of_bound_beq h with ⟨hs, hr⟩ | ⟨high, high', hs, hr, hsame⟩
  · rw [hs, hr]
  · simp only [hs, hr, hincl, hsame v]

/-- Equal ranges have the same members. -/
theorem satisfies_of_beq (h : (s == r) = true) (v : Version) : s.satisfies v = r.satisfies v := by
  obtain ⟨hmin, hminInclusive, hmax, hmaxInclusive, -⟩ := beq_iff.1 h
  rw [satisfies, satisfies, admitsFromBelow_congr hmin hminInclusive, admitsFromAbove_congr hmax hmaxInclusive]

/-! ## Ranges that were read -/

/-- The bounds of the range leave room for a version. -/
def Ordered (r : VersionRange) : Prop :=
  ∀ low high, r.min = some low → r.max = some high →
    low < high ∨ ((low == high) = true ∧ r.minInclusive = true ∧ r.maxInclusive = true)

/-- A plain range that can be printed has its bounds in order. -/
theorem ordered_of_plain (hr : Plain r) (hc : r.isComparable = true) : r.Ordered := by
  intro low high hlow hhigh
  have hcheck := hr.bounds hc ""
  have hcomparable : (low.isComparable && high.isComparable) = true := by
    simpa [isComparable, hlow, hhigh] using hc
  rw [hlow, hhigh, checkBounds, if_pos hcomparable] at hcheck
  split at hcheck
  · cases hcheck
  · rename_i hequal
    split at hcheck
    · rename_i hinclusive
      have hlowHigh : (low == high) = true := Version.beq_symm (Version.beq_iff.2 hequal)
      exact .inr ⟨hlowHigh, Bool.and_eq_true_iff.1 hinclusive⟩
    · cases hcheck
  · rename_i hgreater
    exact .inl (Version.gt_iff.2 hgreater)

/-- A floating range has no upper bound to be out of order with. -/
theorem ordered_of_patterned {pattern : List Char} (hr : Patterned r pattern) : r.Ordered := by
  intro low high _ hhigh
  rcases parseFloating_eq_ok hr.reading with ⟨-, rfl⟩ | ⟨low, v, -, -, rfl⟩
  · cases hhigh
  · cases hhigh

/-- The bounds of a range that was read were not refused. -/
theorem ordered_of_wellFormed (hr : WellFormed r) (hc : r.isComparable = true) : r.Ordered := by
  rcases hr with hr | ⟨pattern, hr⟩
  · exact ordered_of_plain hr hc
  · exact ordered_of_patterned hr

namespace Ordered

/-- The lower bound is a member exactly if it is included. -/
theorem satisfies_min_iff (hr : r.Ordered) {low : Version} (hlow : r.min = some low) :
    r.satisfies low = true ↔ r.minInclusive = true := by
  rw [satisfies_iff, admitsFromBelow_of_min hlow]
  constructor
  · rintro ⟨hlt | ⟨hincluded, -⟩, -⟩
    · exact absurd hlt (Version.lt_irrefl low)
    · exact hincluded
  · intro hincluded
    refine ⟨.inr ⟨hincluded, Version.beq_refl low⟩, ?_⟩
    cases hmax : r.max with
    | none => rw [admitsFromAbove, hmax]
    | some high =>
      rw [admitsFromAbove_of_max hmax]
      exact (hr low high hlow hmax).imp id fun h => ⟨h.2.2, h.1⟩

/-- The upper bound is a member exactly if it is included. -/
theorem satisfies_max_iff (hr : r.Ordered) {high : Version} (hhigh : r.max = some high) :
    r.satisfies high = true ↔ r.maxInclusive = true := by
  rw [satisfies_iff, admitsFromAbove_of_max hhigh]
  constructor
  · rintro ⟨-, hlt | ⟨hincluded, -⟩⟩
    · exact absurd hlt (Version.lt_irrefl high)
    · exact hincluded
  · intro hincluded
    refine ⟨?_, .inr ⟨hincluded, Version.beq_refl high⟩⟩
    cases hmin : r.min with
    | none => rw [admitsFromBelow, hmin]
    | some low =>
      rw [admitsFromBelow_of_min hmin]
      exact (hr low high hmin hhigh).imp id fun h => ⟨h.2.1, h.1⟩

end Ordered

/-! ## The laws of membership -/

/-- What holds of the members of a range. -/
structure MembershipLaws (r : VersionRange) : Prop where
  min : ∀ low, r.min = some low → (r.satisfies low = true ↔ r.minInclusive = true)
  max : ∀ high, r.max = some high → (r.satisfies high = true ↔ r.maxInclusive = true)
  between : ∀ u v w : Version, u ≤ v → v ≤ w → r.satisfies u = true → r.satisfies w = true → r.satisfies v = true
  congr : ∀ u v : Version, (u == v) = true → r.satisfies u = r.satisfies v
  equal : ∀ s : VersionRange, (s == r) = true → ∀ v, s.satisfies v = r.satisfies v
  reread : ∃ s, parse r.normalized = .ok s ∧ ∀ v, s.satisfies v = r.satisfies v

/-- A range that was read has its included bounds and none of the excluded ones as members, and all that lies between
members; neither the spelling of a version nor that of the range makes a difference. -/
theorem membership_of_parse {text : String} (h : parse text = .ok r) (hc : r.isComparable = true) :
    MembershipLaws r where
  min _ := (ordered_of_wellFormed (wellFormed_of_parse h) hc).satisfies_min_iff
  max _ := (ordered_of_wellFormed (wellFormed_of_parse h) hc).satisfies_max_iff
  between _ _ _ := satisfies_of_between
  congr _ _ hequal := satisfies_congr hequal r
  equal _ := satisfies_of_beq
  reread := by
    obtain ⟨hread, hequal⟩ := parse_eq_reread (wellFormed_of_parse h) hc
    exact ⟨r.reread, hread, satisfies_of_beq hequal⟩

/-- The members of an interval from a prerelease on, up to a release that it excludes. -/
theorem membership_of_prerelease_interval :
    ∃ r low high, parse "[1.0-RC.1, 2.0)" = .ok r ∧ r.isComparable = true ∧ r.min = some low ∧ r.max = some high ∧
      MembershipLaws r ∧ r.satisfies low = true ∧ r.satisfies high = false := by
  have hread : parse "[1.0-RC.1, 2.0)" =
      .ok ⟨some ⟨1, 0, 0, 0, ["RC", "1"], none⟩, true, some ⟨2, 0, 0, 0, [], none⟩, false, none,
        some "[1.0-RC.1, 2.0)"⟩ := by rfl
  have hlaws := membership_of_parse hread (by rfl)
  refine ⟨_, _, _, hread, by rfl, rfl, rfl, hlaws, (hlaws.min _ rfl).2 rfl, ?_⟩
  rw [← Bool.not_eq_true, hlaws.max _ rfl]
  exact Bool.false_ne_true

end PackageGraph.VersionRange
