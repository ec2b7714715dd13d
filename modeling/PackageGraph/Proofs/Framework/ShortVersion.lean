import PackageGraph.Proofs.Framework.VersionText
import PackageGraph.Proofs.Text.Blank
/-!
# Reading the version of a short name

The version of a short name is normal: it has two components or more, and no zeros at its end but those. With points it
is read back from its text. Without points it is read back exactly if every component is a single digit, but for a ten
that it may begin with, and it does not begin with a one and a zero, which would be read as that ten.
-/
namespace PackageGraph

/-- The results of a list of steps that may have none, each of which comes from its own step. -/
theorem mapM_eq_some_iff {α β : Type _} {f : α → Option β} {xs : List α} {ys : List β} :
    xs.mapM f = some ys ↔ xs.map f = ys.map some := by
  induction xs generalizing ys with
  | nil => cases ys <;> simp
  | cons x xs ih =>
    simp only [List.mapM_cons, Option.bind_eq_bind, Option.bind_eq_some_iff, Option.pure_def, Option.some.injEq, ih]
    constructor
    · rintro ⟨y, hy, ys, hys, rfl⟩
      rw [List.map_cons, List.map_cons, hy, hys]
    · intro h
      cases ys with
      | nil => cases h
      | cons y ys =>
        obtain ⟨hy, hys⟩ := List.cons.inj h
        exact ⟨y, hy, ys, hys, rfl⟩

/-- There are results if every step has one. -/
theorem exists_mapM_iff {α β : Type _} {f : α → Option β} {xs : List α} :
    (∃ ys, xs.mapM f = some ys) ↔ ∀ x ∈ xs, ∃ y, f x = some y := by
  constructor
  · rintro ⟨ys, hys⟩ x hx
    have hmem : f x ∈ ys.map some := mapM_eq_some_iff.1 hys ▸ List.mem_map_of_mem hx
    obtain ⟨y, -, hy⟩ := List.mem_map.1 hmem
    exact ⟨y, hy.symm⟩
  · intro h
    induction xs with
    | nil => exact ⟨[], rfl⟩
    | cons x xs ih =>
      obtain ⟨hx, hxs⟩ := List.forall_mem_cons.1 h
      obtain ⟨y, hy⟩ := hx
      obtain ⟨ys, hys⟩ := ih hxs
      exact ⟨y :: ys, by rw [mapM_eq_some_iff, List.map_cons, List.map_cons, hy, mapM_eq_some_iff.1 hys]⟩

/-! ## Numbers -/

namespace Number

open Text

theorem not_isPadding_of_isDigit {c : Char} (h : c.isDigit = true) : isPadding c = false := by
  have hlow : 48 ≤ c.toNat := (Char.isDigit_iff_toNat.1 h).1
  have hhigh : c.toNat ≤ 57 := (Char.isDigit_iff_toNat.1 h).2
  rw [isPadding, not_isBlank_of_visible (by omega) (by omega), Bool.false_and]

/-- There is nothing to trim from digits. -/
theorem trimPadding_digits {cs : List Char} (h : ∀ c ∈ cs, c.isDigit = true) : trimPadding cs = cs := by
  have hstart : cs.dropWhile isPadding = cs := by
    cases cs with
    | nil => rfl
    | cons c cs => simp [not_isPadding_of_isDigit (h c List.mem_cons_self)]
  rw [trimPadding, hstart]
  exact dropEndWhile_eq_self fun c hc => not_isPadding_of_isDigit (h c (List.mem_of_getLast? hc))

theorem splitSign_digits {cs : List Char} (h : ∀ c ∈ cs, c.isDigit = true) : splitSign cs = (false, cs) := by
  unfold splitSign
  split
  · exact absurd (h '-' List.mem_cons_self) (by decide)
  · exact absurd (h '+' List.mem_cons_self) (by decide)
  · rfl

/-- Digits are a run of digits. -/
theorem digitRun?_digits {cs : List Char} (hne : cs ≠ []) (h : ∀ c ∈ cs, c.isDigit = true) :
    digitRun? cs = some cs := by
  have hunderscore : '_' ∉ cs := fun hc => absurd (h '_' hc) (by decide)
  have hall : ([cs].all fun g => !g.isEmpty && g.all isDigit) = true := by
    simpa [hne] using fun c hc => isDigit_of_isDigit (h c hc)
  simp only [digitRun?, splitOn_of_notMem hunderscore]
  rw [if_pos hall, List.flatten_singleton]

/-- Digits are read as the number that they denote, unless there are too many. -/
theorem int?_digits {cs : List Char} (hne : cs ≠ []) (h : ∀ c ∈ cs, c.isDigit = true) :
    int? cs = if digitLimit < cs.length then .error .tooLong else .ok (digitsValue cs : Int) := by
  rw [int?, trimPadding_digits h, splitSign_digits h]
  simp only [digitRun?_digits hne h, nat?, Bool.false_eq_true, if_false]
  split <;> rfl

end Number

namespace Moniker

open Text

/-- A run of digits is a component, unless it is too long to be read. -/
theorem component?_digits {cs : List Char} (hne : cs ≠ []) (h : ∀ c ∈ cs, c.isDigit = true) :
    component? cs = if digitLimit < cs.length then none else some (digitsValue cs : Int) := by
  rw [component?, Number.int?_digits hne h]
  split <;> rfl

/-- The component is a natural number that is short enough to be read. -/
def IsComponent (n : Int) : Prop := ∃ k : Nat, n = k ∧ k < 10 ^ digitLimit

theorem isComponent_of_lt {k : Nat} (h : k ≤ 10) : IsComponent k :=
  ⟨k, rfl, Nat.lt_of_le_of_lt h (Nat.pow_lt_pow_right (show 1 < 10 by decide) (show 1 < digitLimit by decide))⟩

/-- The digits of a component are read as the component. -/
theorem component?_intText {n : Int} (h : IsComponent n) : component? (intText n).toList = some n := by
  obtain ⟨k, rfl, hk⟩ := h
  have hlength : ¬ digitLimit < (Nat.toDigits 10 k).length := Nat.not_lt.2 (length_toDigits_le (by decide) hk)
  have hnat : (intText (k : Int)).toList = Nat.toDigits 10 k := by simp [toList_intText]
  rw [hnat, component?_digits Nat.toDigits_ne_nil fun _ => isDigit_of_mem_toDigits, if_neg hlength,
    digitsValue_toDigits]

/-- What is read of digits is a component. -/
theorem isComponent_of_component? {cs : List Char} {n : Int} (hne : cs ≠ []) (hcs : ∀ c ∈ cs, c.isDigit = true)
    (h : component? cs = some n) : IsComponent n := by
  rw [component?_digits hne hcs] at h
  split at h
  · cases h
  · rename_i hlength
    refine ⟨digitsValue cs, (Option.some.inj h).symm, ?_⟩
    exact lt_of_lt_of_le (digitsValue_lt cs) (Nat.pow_le_pow_right (by decide) (Nat.not_lt.1 hlength))

theorem exists_digitComponent (c : Char) : ∃ k : Nat, digitComponent c = k ∧ k < 10 := by
  rw [digitComponent]
  cases h : asciiDigit? c with
  | none => exact ⟨0, rfl, by decide⟩
  | some k =>
    refine ⟨k, rfl, ?_⟩
    unfold asciiDigit? at h
    split at h
    · rename_i hc
      have hhigh : c.toNat ≤ 57 := (Char.isDigit_iff_toNat.1 hc).2
      have hk := Option.some.inj h
      omega
    · cases h

/-! ## Normal versions -/

/-- Two components are kept, and of the others those that are not zeros at the end. -/
theorem normalizeVersion_cons_cons (a b : Int) (v : List Int) :
    normalizeVersion (a :: b :: v) = a :: b :: v.rdropWhile (· == 0) := by
  simp [normalizeVersion, List.rdropWhile]

/-- A version that is normal stays as it is. -/
theorem normalizeVersion_normalizeVersion (v : List Int) :
    normalizeVersion (normalizeVersion v) = normalizeVersion v := by
  match v with
  | [] => rfl
  | [a] => rfl
  | a :: b :: v => rw [normalizeVersion_cons_cons, normalizeVersion_cons_cons, List.rdropWhile_idempotent]

/-- A version has its first component still, and no other that it did not have, but for zeros. -/
theorem exists_normalizeVersion_cons (a : Int) (v : List Int) :
    ∃ w, normalizeVersion (a :: v) = a :: w ∧ ∀ n ∈ w, n ∈ v ∨ n = 0 := by
  match v with
  | [] => exact ⟨[0], rfl, by simp⟩
  | b :: v =>
    refine ⟨b :: v.rdropWhile (· == 0), normalizeVersion_cons_cons a b v, fun n hn => .inl ?_⟩
    rcases List.mem_cons.1 hn with rfl | hn
    · exact List.mem_cons_self
    · exact List.mem_cons_of_mem _ ((List.rdropWhile_prefix _ v).subset hn)

/-- Nothing but zeros is added to a version. -/
theorem mem_normalizeVersion {v : List Int} {n : Int} (h : n ∈ normalizeVersion v) : n ∈ v ∨ n = 0 := by
  cases v with
  | nil => exact .inr (by simpa [normalizeVersion] using h)
  | cons a v =>
    obtain ⟨w, hw, hall⟩ := exists_normalizeVersion_cons a v
    rw [hw] at h
    rcases List.mem_cons.1 h with rfl | h
    · exact .inl List.mem_cons_self
    · exact (hall n h).imp_left (List.mem_cons_of_mem a)

/-- What holds of the version of every short name. -/
structure IsShortVersion (v : List Int) : Prop where
  normal : normalizeVersion v = v
  components : ∀ n ∈ v, IsComponent n

/-- A normal version of components is one that can be read from a short name. -/
theorem isShortVersion_normalizeVersion {v : List Int} (h : ∀ n ∈ v, IsComponent n) :
    IsShortVersion (normalizeVersion v) where
  normal := normalizeVersion_normalizeVersion v
  components n hn := by
    rcases mem_normalizeVersion hn with hn | rfl
    · exact h n hn
    · exact isComponent_of_lt (Nat.zero_le 10)

/-- Such a version has two components at least. -/
theorem IsShortVersion.exists_cons_cons {v : List Int} (h : IsShortVersion v) : ∃ a b w, v = a :: b :: w := by
  have hlength : 2 ≤ v.length := by
    rw [← h.normal]
    simp only [normalizeVersion, List.length_append, List.length_take, List.length_replicate]
    omega
  match v, hlength with
  | a :: b :: w, _ => exact ⟨a, b, w, rfl⟩

theorem IsShortVersion.ne_nil {v : List Int} (h : IsShortVersion v) : v ≠ [] := by
  obtain ⟨a, b, w, rfl⟩ := h.exists_cons_cons
  exact List.cons_ne_nil a _

/-- The fields of a version between its points that are not empty are digits. -/
theorem isDigit_of_mem_fields {cs p : List Char} (hcs : ∀ c ∈ cs, isVersionChar c = true)
    (hp : p ∈ (splitOn '.' cs).filter fun p => !p.isEmpty) : p ≠ [] ∧ ∀ c ∈ p, c.isDigit = true := by
  obtain ⟨hfield, hne⟩ := List.mem_filter.1 hp
  refine ⟨by simpa using hne, fun c hc => ?_⟩
  have hpoint : c ≠ '.' := fun heq => notMem_of_mem_splitOn hfield (heq ▸ hc)
  simpa [isVersionChar, hpoint] using hcs c (mem_of_mem_splitOn hfield hc)

/-- The digits and points of a short name give a normal version with components that can be written. -/
theorem isShortVersion_of_shortVersion? {cs : List Char} {v : List Int} (hcs : ∀ c ∈ cs, isVersionChar c = true)
    (h : shortVersion? cs = some v) : IsShortVersion v := by
  have hsmall : ∀ ds : List Char, ∀ n ∈ ds.map digitComponent, IsComponent n := by
    intro ds n hn
    obtain ⟨c, -, rfl⟩ := List.mem_map.1 hn
    obtain ⟨k, hk, hlt⟩ := exists_digitComponent c
    rw [hk]
    exact isComponent_of_lt hlt.le
  unfold shortVersion? at h
  split at h
  -- with points each field is a component, without them each digit
  · obtain ⟨components, hcomponents, rfl⟩ := Option.map_eq_some_iff.1 h
    refine isShortVersion_normalizeVersion fun n hn => ?_
    have hmem : some n ∈ ((splitOn '.' cs).filter fun p => !p.isEmpty).map component? :=
      mapM_eq_some_iff.1 hcomponents ▸ List.mem_map_of_mem hn
    obtain ⟨p, hp, hread⟩ := List.mem_map.1 hmem
    obtain ⟨hne, hdigits⟩ := isDigit_of_mem_fields hcs hp
    exact isComponent_of_component? hne hdigits hread
  · split at h
    · obtain rfl := Option.some.inj h
      refine isShortVersion_normalizeVersion fun n hn => ?_
      -- a leading 10 is one component
      rcases List.mem_cons.1 hn with rfl | hn
      · exact isComponent_of_lt (Nat.le_refl 10)
      · exact hsmall _ n hn
    · obtain rfl := Option.some.inj h
      exact isShortVersion_normalizeVersion (hsmall cs)

/-- The version is read unless it has points and a component has too many digits. -/
theorem exists_shortVersion?_iff {cs : List Char} (hcs : ∀ c ∈ cs, isVersionChar c = true) :
    (∃ v, shortVersion? cs = some v) ↔ ('.' ∈ cs → ∀ p ∈ splitOn '.' cs, p.length ≤ digitLimit) := by
  unfold shortVersion?
  by_cases hpoint : '.' ∈ cs
  · rw [if_pos (List.contains_iff_mem.2 hpoint)]
    simp only [Option.map_eq_some_iff, hpoint, true_imp_iff]
    constructor
    · rintro ⟨-, components, hcomponents, -⟩ p hp
      cases p with
      | nil => exact Nat.zero_le _
      | cons c p =>
        have hmem : (c :: p) ∈ (splitOn '.' cs).filter fun p => !p.isEmpty := List.mem_filter.2 ⟨hp, rfl⟩
        obtain ⟨n, hn⟩ := exists_mapM_iff.1 ⟨components, hcomponents⟩ _ hmem
        obtain ⟨hne, hdigits⟩ := isDigit_of_mem_fields hcs hmem
        -- a field of digits is read unless it is too long
        rw [component?_digits hne hdigits] at hn
        split at hn
        · cases hn
        · omega
    · intro h
      obtain ⟨components, hcomponents⟩ : ∃ components,
          ((splitOn '.' cs).filter fun p => !p.isEmpty).mapM component? = some components := by
        refine exists_mapM_iff.2 fun p hp => ?_
        obtain ⟨hne, hdigits⟩ := isDigit_of_mem_fields hcs hp
        have hlength := h p (List.mem_filter.1 hp).1
        exact ⟨_, by rw [component?_digits hne hdigits, if_neg (Nat.not_lt.2 hlength)]⟩
      exact ⟨_, components, hcomponents, rfl⟩
  · rw [if_neg (by simpa using hpoint)]
    refine iff_of_true ?_ fun h => absurd h hpoint
    split <;> exact ⟨_, rfl⟩

/-! ## Versions with points -/

/-- A version is read back from its text with points. -/
theorem shortVersion?_pointedVersion {v : List Int} (h : IsShortVersion v) :
    shortVersion? (pointedVersion v).toList = some v := by
  obtain ⟨a, b, w, rfl⟩ := h.exists_cons_cons
  have hpoint : '.' ∈ (pointedVersion (a :: b :: w)).toList := by simp [toList_pointedVersion_cons_cons]
  -- no component has a point in it, so that the fields are the components
  have hfields : splitOn '.' (pointedVersion (a :: b :: w)).toList = (a :: b :: w).map fun n => (intText n).toList := by
    rw [pointedVersion, toList_join, List.map_map]
    refine splitOn_intercalate (List.cons_ne_nil _ _) fun f hf hc => ?_
    obtain ⟨n, -, rfl⟩ := List.mem_map.1 hf
    rcases mem_intText hc with hc | hc <;> exact absurd hc (by decide)
  have hfilter : ((a :: b :: w).map fun n => (intText n).toList).filter (fun p => !p.isEmpty) =
      (a :: b :: w).map fun n => (intText n).toList := by
    refine List.filter_eq_self.2 fun p hp => ?_
    obtain ⟨n, hn, rfl⟩ := List.mem_map.1 hp
    obtain ⟨k, rfl, -⟩ := h.components n hn
    simp [toList_intText]
  have hread : ((a :: b :: w).map fun n => (intText n).toList).mapM component? = some (a :: b :: w) := by
    rw [mapM_eq_some_iff, List.map_map]
    exact List.map_congr_left fun n hn => component?_intText (h.components n hn)
  unfold shortVersion?
  rw [if_pos (List.contains_iff_mem.2 hpoint), hfields, hfilter, hread, Option.map_some, h.normal]

/-! ## Versions without points -/

/-- Digits without points say where each component ends. -/
structure IsJoinable (v : List Int) : Prop where
  major : v.headD 0 ≤ 10
  others : ∀ n ∈ v.tail, n < 10
  /-- A one and a zero are read as a ten. -/
  notTen : ¬ [1, 0] <+: v

instance (v : List Int) : Decidable (IsJoinable v) :=
  decidable_of_iff (v.headD 0 ≤ 10 ∧ (∀ n ∈ v.tail, n < 10) ∧ ¬ [1, 0] <+: v)
    ⟨fun ⟨major, others, notTen⟩ => ⟨major, others, notTen⟩, fun h => ⟨h.major, h.others, h.notTen⟩⟩

/-- A component of one digit, and the digit. -/
theorem toList_intText_of_lt {k : Nat} (h : k < 10) :
    (intText k).toList = [Nat.digitChar k] ∧ digitComponent (Nat.digitChar k) = k := by
  have hdigit : ∀ k < 10, digitComponent (Nat.digitChar k) = k := by decide
  refine ⟨?_, hdigit k h⟩
  simp [toList_intText, Nat.toDigits_of_lt_base h]

/-- Components of one digit each are read back from their digits. -/
theorem map_digitComponent_joinedVersion {v : List Int} (h : ∀ n ∈ v, IsComponent n) (hv : ∀ n ∈ v, n < 10) :
    (joinedVersion v).toList.map digitComponent = v := by
  induction v with
  | nil => rfl
  | cons a v ih =>
    obtain ⟨ha, hrest⟩ := List.forall_mem_cons.1 h
    obtain ⟨hlt, hsmall⟩ := List.forall_mem_cons.1 hv
    obtain ⟨k, rfl, -⟩ := ha
    obtain ⟨htext, hdigit⟩ := toList_intText_of_lt (by omega : k < 10)
    rw [toList_joinedVersion_cons, htext, List.singleton_append, List.map_cons, hdigit, ih hrest hsmall]

/-- A leading ten is one component. -/
theorem shortVersion?_ten {cs : List Char} (h : '.' ∉ cs) :
    shortVersion? ('1' :: '0' :: cs) = some (normalizeVersion (10 :: cs.map digitComponent)) := by
  have hpoint : ¬ ('1' :: '0' :: cs).contains '.' = true := by simpa using h
  unfold shortVersion?
  rw [if_neg hpoint]
  rfl

/-- Otherwise every digit is a component. -/
theorem shortVersion?_digits {cs : List Char} (h : '.' ∉ cs) (hten : ¬ ['1', '0'] <+: cs) :
    shortVersion? cs = some (normalizeVersion (cs.map digitComponent)) := by
  have hpoint : ¬ cs.contains '.' = true := by simpa using h
  unfold shortVersion?
  rw [if_neg hpoint]
  split
  · exact absurd (List.prefix_append ['1', '0'] _) hten
  · rfl

/-- A single digit is a component below ten. -/
theorem digitComponent_lt (c : Char) : digitComponent c < 10 := by
  obtain ⟨k, hk, hlt⟩ := exists_digitComponent c
  omega

/-- What digits without points are read as says where each of its components ends, but for a one and a zero. -/
theorem isJoinable_of_shortVersion? {cs : List Char} {v : List Int} (hcs : '.' ∉ cs) (h : shortVersion? cs = some v)
    (hten : ¬ [1, 0] <+: v) : IsJoinable v := by
  -- every component but the first is a digit or a zero that was added
  have hothers : ∀ {a : Int} {ds : List Char} {w : List Int}, (∀ n ∈ w, n ∈ ds.map digitComponent ∨ n = 0) →
      ∀ n ∈ (a :: w).tail, n < 10 := by
    intro a ds w hw n hn
    rcases hw n hn with hn | rfl
    · obtain ⟨c, -, rfl⟩ := List.mem_map.1 hn
      exact digitComponent_lt c
    · decide
  by_cases hprefix : ['1', '0'] <+: cs
  · obtain ⟨ds, rfl⟩ := hprefix
    have hds : '.' ∉ ds := fun hc => hcs (List.mem_append_right _ hc)
    obtain ⟨w, hw, hall⟩ := exists_normalizeVersion_cons 10 (ds.map digitComponent)
    obtain rfl : 10 :: w = v := by
      rw [List.cons_append, List.singleton_append, shortVersion?_ten hds, hw] at h
      exact Option.some.inj h
    exact ⟨Int.le_refl 10, hothers hall, hten⟩
  · rw [shortVersion?_digits hcs hprefix] at h
    cases cs with
    | nil =>
      obtain rfl : [0, 0] = v := Option.some.inj h
      decide
    | cons c cs =>
      obtain ⟨w, hw, hall⟩ := exists_normalizeVersion_cons (digitComponent c) (cs.map digitComponent)
      obtain rfl : digitComponent c :: w = v := by
        rw [List.map_cons, hw] at h
        exact Option.some.inj h
      exact ⟨Int.le_of_lt (digitComponent_lt c), hothers hall, hten⟩

/-- A version is read back from its digits without points exactly if they say where each component ends. -/
theorem shortVersion?_joinedVersion_iff {v : List Int} (h : IsShortVersion v) :
    shortVersion? (joinedVersion v).toList = some v ↔ IsJoinable v := by
  have hpoint : ∀ w : List Int, '.' ∉ (joinedVersion w).toList := by
    intro w hc
    rcases mem_joinedVersion hc with hc | hc <;> exact absurd hc (by decide)
  constructor
  · intro hread
    refine isJoinable_of_shortVersion? (hpoint v) hread ?_
    rintro ⟨w, rfl⟩
    -- the one and the zero are read as a ten
    have htext : (joinedVersion ([1, 0] ++ w)).toList = '1' :: '0' :: (joinedVersion w).toList := by
      rw [List.cons_append, List.singleton_append, toList_joinedVersion_cons, toList_joinedVersion_cons]
      rfl
    obtain ⟨u, hu, -⟩ := exists_normalizeVersion_cons 10 ((joinedVersion w).toList.map digitComponent)
    rw [htext, shortVersion?_ten (hpoint w), hu] at hread
    exact absurd (List.cons.inj (Option.some.inj hread)).1 (by decide)
  · intro hjoin
    obtain ⟨a, b, w, rfl⟩ := h.exists_cons_cons
    obtain ⟨ha, hrest⟩ := List.forall_mem_cons.1 h.components
    have hothers := map_digitComponent_joinedVersion hrest hjoin.others
    rcases eq_or_ne a 10 with rfl | hne
    · have hten : (joinedVersion (10 :: b :: w)).toList = '1' :: '0' :: (joinedVersion (b :: w)).toList := by
        rw [toList_joinedVersion_cons]
        rfl
      rw [hten, shortVersion?_ten (hpoint _), hothers, h.normal]
    · have hle : a ≤ 10 := hjoin.major
      have hmajor : a < 10 := by omega
      have hall : ∀ n ∈ a :: b :: w, n < 10 := List.forall_mem_cons.2 ⟨hmajor, hjoin.others⟩
      have hdigits := map_digitComponent_joinedVersion h.components hall
      have hprefix : ¬ ['1', '0'] <+: (joinedVersion (a :: b :: w)).toList := by
        rintro ⟨rest, hrest⟩
        refine hjoin.notTen ?_
        rw [← hdigits, ← hrest]
        exact List.prefix_append [1, 0] _
      rw [shortVersion?_digits (hpoint _) hprefix, hdigits, h.normal]

end Moniker
end PackageGraph
