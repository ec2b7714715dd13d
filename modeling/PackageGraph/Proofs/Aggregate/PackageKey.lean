import PackageGraph.Proofs.Aggregate.Consumers
import PackageGraph.Proofs.VersionRange.Notation
/-!
# What the keys of packages stand for

A key holds the normalized form of a range or of a version, which tells apart what is not equal. It also tells apart
equal versions whose labels are spelled in two ways, because it keeps the labels as they were written. So keys are
equal exactly if the identifiers are, in lower case, and the ranges or versions are equal and written with the same
labels.
-/
namespace PackageGraph

/-! ## Versions -/

namespace Version

/-- Equal versions with labels that are spelled alike are written alike. -/
theorem normalized_eq_of_beq {v w : Version} (h : (v == w) = true) (hlabels : v.labels = w.labels) :
    v.normalized = w.normalized := by
  obtain ⟨hmajor, hminor, hpatch, hrevision, -⟩ := compare_eq_eq_iff.1 (beq_iff.1 h)
  rw [normalized, normalized, hmajor, hminor, hpatch, hrevision, hlabels]

/-- Normalized forms are equal exactly if the versions are and their labels are spelled alike. -/
theorem normalized_eq_iff {v w : Version} (hv : v.WellFormed) (hw : w.WellFormed) :
    v.normalized = w.normalized ↔ (v == w) = true ∧ v.labels = w.labels := by
  constructor
  · intro h
    -- a normalized form is read back as the version without its metadata
    have hsame : v.withoutMetadata = w.withoutMetadata := by
      have hread := parse_normalized hv
      rw [h, parse_normalized hw] at hread
      exact (Except.ok.inj hread).symm
    have hlabels : v.withoutMetadata.labels = w.withoutMetadata.labels := by rw [hsame]
    refine ⟨?_, hlabels⟩
    show (v.withoutMetadata == w.withoutMetadata) = true
    rw [hsame]
    exact beq_refl _
  · rintro ⟨hbeq, hlabels⟩
    exact normalized_eq_of_beq hbeq hlabels

end Version

/-! ## Ranges -/

namespace VersionRange

/-- The labels that the normalized form spells out: those of the version that it singles out, or those of the bounds.
A pattern is kept as it is. -/
def writtenLabels (r : VersionRange) : List (Option (List String)) :=
  match r.floating, r.singleVersion? with
  | some _, _ => []
  | none, some v => [some v.labels]
  | none, none => [r.min.map Version.labels, r.max.map Version.labels]

/-- A range that is equal to one that singles out a version singles out an equal version. -/
theorem exists_singleVersion?_of_beq {r q : VersionRange} {v : Version} (h : (r == q) = true)
    (hv : r.singleVersion? = some v) : ∃ w, q.singleVersion? = some w ∧ (v == w) = true := by
  obtain ⟨hmin, hminInclusive, hmaxInclusive, high, hmax, hhigh⟩ := of_singleVersion? hv
  obtain ⟨hbmin, himinInclusive, hbmax, himaxInclusive, -⟩ := beq_iff.1 h
  rw [hmin] at hbmin
  rw [hmax] at hbmax
  cases hlow' : q.min with
  | none => simp [hlow'] at hbmin
  | some low' =>
    cases hhigh' : q.max with
    | none => simp [hhigh'] at hbmax
    | some high' =>
      -- the bounds of the one are equal to those of the other, and through them to each other
      have hvlow : (v == low') = true := by simpa [hlow'] using hbmin
      have hhighs : (high == high') = true := by simpa [hhigh'] using hbmax
      have hbounds : (low' == high') = true := BEq.trans (BEq.symm hvlow) (BEq.trans hhigh hhighs)
      refine ⟨low', ?_, hvlow⟩
      simp [singleVersion?, hlow', hhigh', ← himinInclusive, ← himaxInclusive, hminInclusive, hmaxInclusive, hbounds]

/-- Equal ranges are both single versions or both not. -/
theorem singleVersion?_eq_none_of_beq {r q : VersionRange} (h : (r == q) = true) (hnone : r.singleVersion? = none) :
    q.singleVersion? = none := by
  cases hq : q.singleVersion? with
  | none => rfl
  | some w =>
    obtain ⟨v, hv, -⟩ := exists_singleVersion?_of_beq (BEq.symm h) hq
    rw [hnone] at hv
    cases hv

/-- The normalized form is read back as an equal range that is written with the same labels. -/
theorem exists_parse_normalized {r : VersionRange} (hr : WellFormed r) (hc : r.isComparable = true) :
    ∃ s, parse r.normalized = .ok s ∧ (s == r) = true ∧ s.writtenLabels = r.writtenLabels := by
  obtain ⟨s, hread, hbeq, -, -⟩ := readsBack_of_wellFormed hr hc
  refine ⟨s, hread, hbeq, ?_⟩
  -- a range is written as the one version that it singles out, as an interval or as a pattern
  rcases hr with hr | ⟨pattern, hr⟩
  · have hfloating : s.floating = none := (beq_iff.1 hbeq).2.2.2.2.trans hr.floating
    cases hsingle : r.singleVersion? with
    | some v =>
      obtain rfl : s = exactly v.withoutMetadata (some r.normalized) := by
        rw [parse_normalized_of_singleVersion? hr hsingle] at hread
        exact (Except.ok.inj hread).symm
      have hs : (exactly v.withoutMetadata (some r.normalized)).singleVersion? = some v.withoutMetadata := by
        simp [singleVersion?, exactly]
      rw [writtenLabels, writtenLabels, hfloating, hs, hr.floating, hsingle]
      rfl
    | none =>
      have htext : r.normalized = r.intervalText := by simp [normalized, hr.floating, hsingle]
      obtain rfl : s = r.rewritten (some r.intervalText) := by
        rw [htext, parse_intervalText hr (hr.bounds hc)] at hread
        exact (Except.ok.inj hread).symm
      rw [writtenLabels, writtenLabels, hfloating, singleVersion?_eq_none_of_beq (BEq.symm hbeq) hsingle, hr.floating,
        hsingle]
      simp only [rewritten, Option.map_map]
      rfl
  · obtain rfl : s = r := by
      rw [parse_normalized_of_patterned hr] at hread
      exact (Except.ok.inj hread).symm
    rfl

/-- Equal bounds with labels that are spelled alike are written alike. -/
theorem boundText_eq_of_beq {a b : Option Version} (h : (a == b) = true)
    (hlabels : a.map Version.labels = b.map Version.labels) : boundText a = boundText b := by
  cases a with
  | none =>
    cases b with
    | none => rfl
    | some w => simp at h
  | some v =>
    cases b with
    | none => simp at h
    | some w => exact Version.normalized_eq_of_beq h (by simpa using hlabels)

theorem isSome_eq_of_beq {a b : Option Version} (h : (a == b) = true) : a.isSome = b.isSome := by
  cases a <;> cases b <;> simp_all

/-- Equal ranges with labels that are spelled alike are written alike. -/
theorem normalized_eq_of_beq {r q : VersionRange} (h : (r == q) = true) (hlabels : r.writtenLabels = q.writtenLabels) :
    r.normalized = q.normalized := by
  obtain ⟨hmin, hminInclusive, hmax, hmaxInclusive, hfloating⟩ := beq_iff.1 h
  unfold writtenLabels at hlabels
  unfold normalized
  -- a floating range is written by its pattern, a single version by itself, and every other range by its bounds
  cases hr : r.floating with
  | some pattern => rw [← hfloating, hr]
  | none =>
    rw [hr, ← hfloating, hr] at hlabels
    rw [← hfloating, hr]
    cases hsingle : r.singleVersion? with
    | some v =>
      obtain ⟨w, hw, hvw⟩ := exists_singleVersion?_of_beq h hsingle
      rw [hsingle, hw] at hlabels
      have hvlabels : v.labels = w.labels := by simpa using hlabels
      simp only [hw, Version.normalized_eq_of_beq hvw hvlabels]
    | none =>
      rw [hsingle, singleVersion?_eq_none_of_beq h hsingle] at hlabels
      obtain ⟨hlow, hhigh⟩ : r.min.map Version.labels = q.min.map Version.labels ∧
          r.max.map Version.labels = q.max.map Version.labels := by simpa using hlabels
      simp only [singleVersion?_eq_none_of_beq h hsingle]
      rw [intervalText, intervalText, hminInclusive, hmaxInclusive, isSome_eq_of_beq hmin, isSome_eq_of_beq hmax,
        boundText_eq_of_beq hmin hlow, boundText_eq_of_beq hmax hhigh]

/-- Normalized forms are equal exactly if the ranges are and their labels are spelled alike. -/
theorem normalized_eq_iff {r q : VersionRange} (hr : WellFormed r) (hrc : r.isComparable = true)
    (hq : WellFormed q) (hqc : q.isComparable = true) :
    r.normalized = q.normalized ↔ (r == q) = true ∧ r.writtenLabels = q.writtenLabels := by
  constructor
  · intro h
    -- both are read back from the one text
    obtain ⟨s, hs, hsr, hslabels⟩ := exists_parse_normalized hr hrc
    obtain ⟨t, ht, htq, htlabels⟩ := exists_parse_normalized hq hqc
    obtain rfl : s = t := by
      rw [h, ht] at hs
      exact (Except.ok.inj hs).symm
    exact ⟨BEq.trans (BEq.symm hsr) htq, hslabels.symm.trans htlabels⟩
  · rintro ⟨hbeq, hlabels⟩
    exact normalized_eq_of_beq hbeq hlabels

end VersionRange

/-! ## Keys -/

namespace PackageKey

/-- Keys are equal if their ids differ in letter case alone and their versions not at all. -/
theorem beq_iff {k l : PackageKey} :
    (k == l) = true ↔ Text.lower k.packageId = Text.lower l.packageId ∧ k.version = l.version := by
  show k.same l = true ↔ _
  simp [same]

/-- Equal keys have one hash, whichever function it is made with. -/
theorem hashKey_eq_of_beq {k l : PackageKey} (h : (k == l) = true) : k.hashKey = l.hashKey := by
  obtain ⟨hid, hversion⟩ := beq_iff.1 h
  rw [hashKey, hashKey, hid, hversion]

instance : LawfulHashable PackageKey where
  hash_eq k l h := by
    show hash k.hashKey = hash l.hashKey
    rw [hashKey_eq_of_beq h]

/-- A version that can be read is written in its normal form. -/
theorem ofVersionText_of_parse {text : String} {v : Version} (h : Version.parse text = .ok v) (packageId : String) :
    ofVersionText packageId text = ⟨packageId, v.normalized⟩ := by
  simp [ofVersionText, Version.parse?, h, Except.toOption]

/-- Keys of ranges and of versions stand for equal identifiers and for ranges and versions that are equal and written
with the same labels, and equal keys share their hash and their place in an index. -/
theorem keys_equal_iff_written_alike (a b : String) :
    (∀ {s t : String} {r q : VersionRange}, VersionRange.parse s = .ok r → VersionRange.parse t = .ok q →
      r.isComparable = true → q.isComparable = true →
        ((ofRange a r == ofRange b q) = true ↔
          Text.lower a = Text.lower b ∧ (r == q) = true ∧ r.writtenLabels = q.writtenLabels)) ∧
    (∀ {s t : String} {v w : Version}, Version.parse s = .ok v → Version.parse t = .ok w →
      ((ofVersionText a s == ofVersionText b t) = true ↔
        Text.lower a = Text.lower b ∧ (v == w) = true ∧ v.labels = w.labels)) ∧
    ∀ {k l : PackageKey}, (k == l) = true →
      k.hashKey = l.hashKey ∧ hash k = hash l ∧
        ∀ index : OrderedMap PackageKey (List String), index.get? k = index.get? l := by
  refine ⟨?_, ?_, ?_⟩
  · intro s t r q hr hq hrc hqc
    rw [beq_iff, ofRange, ofRange, VersionRange.normalized_eq_iff (VersionRange.wellFormed_of_parse hr) hrc
      (VersionRange.wellFormed_of_parse hq) hqc]
  · intro s t v w hv hw
    rw [beq_iff, ofVersionText_of_parse hv, ofVersionText_of_parse hw,
      Version.normalized_eq_iff (Version.wellFormed_of_parse hv) (Version.wellFormed_of_parse hw)]
  · intro k l h
    exact ⟨hashKey_eq_of_beq h, LawfulHashable.hash_eq k l h, fun index => OrderedMap.get?_congr index h⟩

/-- A release candidate has one key however its numbers and its metadata are written, in every letter case of the
identifier. -/
theorem keys_equal_of_release_candidate :
    (∃ r q, VersionRange.parse "[1.0-RC.1+a]" = .ok r ∧ VersionRange.parse "[1.0.0-RC.1, 1.0.0.0-rc.01]" = .ok q ∧
      r.isComparable = true ∧ q.isComparable = true ∧ (ofRange "Package" r == ofRange "PACKAGE" q) = true) ∧
    (∃ v w, Version.parse "1.0-RC.1+a" = .ok v ∧ Version.parse "1.0.0.0-RC.1" = .ok w ∧
      (ofVersionText "Package" "1.0-RC.1+a" == ofVersionText "PACKAGE" "1.0.0.0-RC.1") = true) ∧
    (mk "Package" "1.0.0" == mk "PACKAGE" "1.0.0") = true ∧
      (mk "Package" "1.0.0").hashKey = (mk "PACKAGE" "1.0.0").hashKey := by
  obtain ⟨hranges, hversions, hkeys⟩ := keys_equal_iff_written_alike "Package" "PACKAGE"
  have hlower : Text.lower "Package" = Text.lower "PACKAGE" := by decide +kernel
  have hsingle : VersionRange.parse "[1.0-RC.1+a]" =
      .ok (.exactly ⟨1, 0, 0, 0, ["RC", "1"], some "a"⟩ (some "[1.0-RC.1+a]")) := by rfl
  have hbounds : VersionRange.parse "[1.0.0-RC.1, 1.0.0.0-rc.01]" =
      .ok ⟨some ⟨1, 0, 0, 0, ["RC", "1"], none⟩, true, some ⟨1, 0, 0, 0, ["rc", "01"], none⟩, true, none,
        some "[1.0.0-RC.1, 1.0.0.0-rc.01]"⟩ := by rfl
  have hversion : Version.parse "1.0-RC.1+a" = .ok ⟨1, 0, 0, 0, ["RC", "1"], some "a"⟩ := by rfl
  have hzeros : Version.parse "1.0.0.0-RC.1" = .ok ⟨1, 0, 0, 0, ["RC", "1"], none⟩ := by rfl
  have hmk : (mk "Package" "1.0.0" == mk "PACKAGE" "1.0.0") = true := beq_iff.2 ⟨hlower, rfl⟩
  refine ⟨⟨_, _, hsingle, hbounds, by rfl, by rfl, ?_⟩, ⟨_, _, hversion, hzeros, ?_⟩, hmk, (hkeys hmk).1⟩
  · exact (hranges hsingle hbounds (by rfl) (by rfl)).2 ⟨hlower, by rfl, by rfl⟩
  · exact (hversions hversion hzeros).2 ⟨hlower, by rfl, by rfl⟩

/-- Equal ranges with labels in another letter case have keys of their own. -/
theorem not_equal_keys_of_equal_ranges :
    ¬ ∀ (a b s t : String) (r q : VersionRange), VersionRange.parse s = .ok r → VersionRange.parse t = .ok q →
      r.isComparable = true → q.isComparable = true →
        ((ofRange a r == ofRange b q) = true ↔ Text.lower a = Text.lower b ∧ (r == q) = true) := by
  intro h
  have hupper : VersionRange.parse "1.0.0-Beta" =
      .ok (.atLeast ⟨1, 0, 0, 0, ["Beta"], none⟩ (some "1.0.0-Beta")) := by rfl
  have hlower : VersionRange.parse "1.0.0-beta" =
      .ok (.atLeast ⟨1, 0, 0, 0, ["beta"], none⟩ (some "1.0.0-beta")) := by rfl
  have hkeys := (h "A" "A" _ _ _ _ hupper hlower (by rfl) (by rfl)).2 ⟨rfl, by rfl⟩
  exact absurd (beq_iff.1 hkeys).2 (by decide)

end PackageKey
end PackageGraph
