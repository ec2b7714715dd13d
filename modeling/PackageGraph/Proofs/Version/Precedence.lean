import PackageGraph.Version.Basic
/-!
# Equal versions

Two versions are equal if their numbers are and if their labels count alike. Metadata never counts.
-/
namespace PackageGraph

namespace ReleaseLabel

theorem compareWords_eq_eq_iff {v w : List Char} : compareWords v w = .eq ↔ v = w := by
  induction v generalizing w with
  | nil => cases w <;> simp [compareWords]
  | cons a v ih =>
    cases w with
    | nil => simp [compareWords]
    | cons b w =>
      rw [compareWords, Ordering.then_eq_eq, Nat.compare_eq_eq, ih, List.cons.injEq, Char.toNat_inj]

/-- Labels that compare equal are the same label. -/
theorem compare_eq_eq_iff {a b : ReleaseLabel} : compare a b = .eq ↔ a = b := by
  cases a <;> cases b <;> simp [compare, compareWords_eq_eq_iff]

theorem compareLists_eq_eq_iff {as bs : List ReleaseLabel} : compareLists as bs = .eq ↔ as = bs := by
  induction as generalizing bs with
  | nil => cases bs <;> simp [compareLists]
  | cons a as ih =>
    cases bs with
    | nil => simp [compareLists]
    | cons b bs => rw [compareLists, Ordering.then_eq_eq, compare_eq_eq_iff, ih, List.cons.injEq]

end ReleaseLabel

namespace Version

/-- Prerelease parts compare equal when they have the same labels. -/
theorem compareLabels_eq_eq_iff {v w : Version} :
    compareLabels v w = .eq ↔ v.releaseLabels = w.releaseLabels := by
  unfold compareLabels releaseLabels
  split
  · rename_i hv hw
    simp [hv, hw]
  · rename_i hv hw
    simp [hv, hw]
  · rename_i hv hw
    simp [hv, hw]
  · exact ReleaseLabel.compareLists_eq_eq_iff

/-- Neither of two versions precedes the other exactly if their numbers are equal and their labels count alike. -/
theorem compare_eq_eq_iff {v w : Version} : v.compare w = .eq ↔
    v.major = w.major ∧ v.minor = w.minor ∧ v.patch = w.patch ∧ v.revision = w.revision ∧
      v.releaseLabels = w.releaseLabels := by
  simp only [compare, Ordering.then_eq_eq, Nat.compare_eq_eq, compareLabels_eq_eq_iff]

theorem beq_iff {v w : Version} : (v == w) = true ↔ v.compare w = .eq := by
  show (v.compare w == .eq) = true ↔ _
  exact beq_iff_eq

theorem beq_refl (v : Version) : (v == v) = true := by
  rw [beq_iff, compare_eq_eq_iff]
  exact ⟨rfl, rfl, rfl, rfl, rfl⟩

theorem beq_symm {v w : Version} (h : (v == w) = true) : (w == v) = true := by
  rw [beq_iff, compare_eq_eq_iff] at h ⊢
  exact ⟨h.1.symm, h.2.1.symm, h.2.2.1.symm, h.2.2.2.1.symm, h.2.2.2.2.symm⟩

theorem beq_trans {u v w : Version} (huv : (u == v) = true) (hvw : (v == w) = true) : (u == w) = true := by
  rw [beq_iff, compare_eq_eq_iff] at *
  obtain ⟨h₁, h₂, h₃, h₄, h₅⟩ := huv
  rw [h₁, h₂, h₃, h₄, h₅]
  exact hvw

instance : EquivBEq Version where
  rfl := beq_refl _
  symm := beq_symm
  trans := beq_trans

/-- The version without its metadata. -/
def withoutMetadata (v : Version) : Version := { v with metadata := none }

/-- Metadata does not count in comparison. -/
theorem withoutMetadata_beq (v : Version) : (v.withoutMetadata == v) = true := beq_refl v

/-- Metadata is not printed. -/
theorem normalized_withoutMetadata (v : Version) : v.withoutMetadata.normalized = v.normalized := rfl

theorem isComparable_withoutMetadata (v : Version) : v.withoutMetadata.isComparable = v.isComparable := rfl

end Version
end PackageGraph
