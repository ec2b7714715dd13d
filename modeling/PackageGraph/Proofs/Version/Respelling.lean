import Mathlib.Data.List.Forall2
import Mathlib.Logic.Relation
import PackageGraph.Proofs.Version.Written
/-!
# Texts with one normalized form

White space, missing components, leading zeros, the script of the digits and metadata make no difference to the
normalized form of a version. Nothing else is lost: two texts have one normalized form exactly if the one comes from the
other by such changes.
-/
namespace PackageGraph.Version

open Text

/-- The digits have the same values, in whatever scripts they are written. -/
def SameDigits (cs ds : List Char) : Prop := List.Forall₂ (fun c d => ∃ k, digit? c = some k ∧ digit? d = some k) cs ds

/-- A change to the parts of a text that does not count. -/
inductive Respelling : Written → Written → Prop where
  | blanks (w : Written) (before after : List Char) : Respelling w { w with before, after }
  /-- Components of zeros stand at the end of the numbers or are left out. -/
  | components (w : Written) (zeros : List (List Char)) (hzeros : ∀ n ∈ zeros, ∀ c ∈ n, digit? c = some 0) :
    Respelling w { w with numerals := w.numerals ++ zeros }
  | leadingZeros (w : Written) {front back : List (List Char)} {zeros n : List Char}
    (hw : w.numerals = front ++ n :: back) (hzeros : ∀ c ∈ zeros, digit? c = some 0) :
    Respelling w { w with numerals := front ++ (zeros ++ n) :: back }
  | digits (w : Written) {front back : List (List Char)} {n n' : List Char} (hw : w.numerals = front ++ n :: back)
    (hn : SameDigits n n') : Respelling w { w with numerals := front ++ n' :: back }
  | metadata (w : Written) (metadata : List (List Char)) : Respelling w { w with metadata }

/-- The texts of two versions come from each other by changes that do not count. -/
def Respells (s t : String) : Prop :=
  ∃ w w' : Written, w.WellFormed ∧ w'.WellFormed ∧ s.toList = w.text ∧ t.toList = w'.text ∧
    Relation.EqvGen Respelling w w'

/-! ## What does not count -/

/-- Digits of other scripts with the same values stand for the same number. -/
theorem digitsValue_eq_of_sameDigits {cs ds : List Char} (h : SameDigits cs ds) : digitsValue cs = digitsValue ds := by
  have hfold : ∀ n : Nat, cs.foldl (fun n c => n * 10 + (digit? c).getD 0) n =
      ds.foldl (fun n c => n * 10 + (digit? c).getD 0) n := by
    induction h with
    | nil => exact fun n => rfl
    | cons hcd _ ih =>
      obtain ⟨k, hc, hd⟩ := hcd
      intro n
      rw [List.foldl_cons, List.foldl_cons, hc, hd, ih]
  exact hfold 0

/-- Zeros before a numeral do not change its value. -/
theorem digitsValue_zeros_append {zeros : List Char} (h : ∀ c ∈ zeros, digit? c = some 0) (n : List Char) :
    digitsValue (zeros ++ n) = digitsValue n := by
  have hzeros : digitsValue zeros = 0 := digitsValue_of_zeros h
  rw [digitsValue, List.foldl_append, ← digitsValue, hzeros]
  rfl

namespace Written

/-- The number at a place; a missing one is zero. -/
def number (w : Written) (i : Nat) : Nat := ((w.numerals[i]?).map digitsValue).getD 0

/-- The numbers and the labels say which version it is, but for the metadata. -/
theorem withoutMetadata_version_congr {w w' : Written} (hnumber : ∀ i, w.number i = w'.number i)
    (hlabels : w.labels = w'.labels) : w.version.withoutMetadata = w'.version.withoutMetadata := by
  have hnumbers : ∀ i : Nat, ((w.numerals[i]?).map digitsValue).getD 0 = ((w'.numerals[i]?).map digitsValue).getD 0 :=
    hnumber
  simp only [withoutMetadata, version, ofSpelling, spelling, hnumbers, hlabels]

end Written

/-- Where one numeral is replaced by another of the same value, all numbers stay. -/
theorem number_replace {front back : List (List Char)} {n n' : List Char} (h : digitsValue n = digitsValue n')
    (i : Nat) :
    (((front ++ n :: back)[i]?).map digitsValue).getD 0 = (((front ++ n' :: back)[i]?).map digitsValue).getD 0 := by
  rcases Nat.lt_trichotomy i front.length with hlt | rfl | hgt
  · rw [List.getElem?_append_left hlt, List.getElem?_append_left hlt]
  · simp [h]
  · obtain ⟨j, rfl⟩ := Nat.exists_eq_add_of_lt hgt
    have hplace : front.length + j + 1 - front.length = j + 1 := by omega
    rw [List.getElem?_append_right (by omega), List.getElem?_append_right (by omega), hplace]
    rfl

/-- No change that does not count makes another version, but for the metadata. -/
theorem Respelling.withoutMetadata_version_eq {w w' : Written} (h : Respelling w w') :
    w.version.withoutMetadata = w'.version.withoutMetadata := by
  cases h with
  | blanks before after => rfl
  | metadata metadata => rfl
  | components zeros hzeros =>
    -- a component is looked up by its position, and beyond the last one it is zero
    refine Written.withoutMetadata_version_congr (fun i => ?_) rfl
    show ((w.numerals[i]?).map digitsValue).getD 0 = (((w.numerals ++ zeros)[i]?).map digitsValue).getD 0
    by_cases hi : i < w.numerals.length
    · rw [List.getElem?_append_left hi]
    · rw [List.getElem?_append_right (Nat.le_of_not_lt hi), List.getElem?_eq_none (Nat.le_of_not_lt hi)]
      cases hz : zeros[i - w.numerals.length]? with
      | none => rfl
      | some n => exact (digitsValue_of_zeros (hzeros n (List.mem_of_getElem? hz))).symm
  | leadingZeros hw hzeros =>
    refine Written.withoutMetadata_version_congr (fun i => ?_) rfl
    rw [Written.number, hw]
    exact number_replace (digitsValue_zeros_append hzeros _).symm i
  | digits hw hn =>
    refine Written.withoutMetadata_version_congr (fun i => ?_) rfl
    rw [Written.number, hw]
    exact number_replace (digitsValue_eq_of_sameDigits hn) i

/-- Respelling, as often as one likes and in either direction, leaves the version but for its metadata. -/
theorem withoutMetadata_version_eq_of_eqvGen {w w' : Written} (h : Relation.EqvGen Respelling w w') :
    w.version.withoutMetadata = w'.version.withoutMetadata := by
  induction h with
  | rel _ _ h => exact h.withoutMetadata_version_eq
  | refl _ => rfl
  | symm _ _ _ ih => exact ih.symm
  | trans _ _ _ _ _ ih ih' => exact ih.trans ih'

/-! ## The plainest text -/

/-- The parts of the plainest text of a version: four numbers as they are written down, and the labels. -/
def plainest (v : Version) : Written :=
  ⟨[], [v.major, v.minor, v.patch, v.revision].map (Nat.toDigits 10), v.labels.map String.toList, [], []⟩

/-- The digits in ASCII. -/
def plainDigits (n : List Char) : List Char := n.map fun c => Nat.digitChar ((digit? c).getD 0)

/-- Digits of any script may be respelled in ASCII. -/
theorem sameDigits_plainDigits {n : List Char} (h : ∀ c ∈ n, isDigit c = true) : SameDigits n (plainDigits n) := by
  have hchar : ∀ k < 10, digit? (Nat.digitChar k) = some k := by decide
  rw [SameDigits, plainDigits, List.forall₂_map_right_iff, List.forall₂_same]
  intro c hc
  obtain ⟨k, hk⟩ := Option.isSome_iff_exists.1 (h c hc)
  exact ⟨k, hk, by rw [hk]; exact hchar k (digit?_lt hk)⟩

theorem isDigit_of_mem_plainDigits {n : List Char} (h : ∀ c ∈ n, isDigit c = true) :
    ∀ c ∈ plainDigits n, c.isDigit = true := by
  have hchar : ∀ k < 10, (Nat.digitChar k).isDigit = true := by decide
  intro c hc
  obtain ⟨d, hd, rfl⟩ := List.mem_map.1 hc
  obtain ⟨k, hk⟩ := Option.isSome_iff_exists.1 (h d hd)
  rw [hk]
  exact hchar k (digit?_lt hk)

/-- What is left out of a numeral are zeros before it. -/
theorem exists_zeros_append_dropZeros (cs : List Char) :
    ∃ zeros, (∀ c ∈ zeros, digit? c = some 0) ∧ cs = zeros ++ dropZeros cs := by
  fun_induction dropZeros cs with
  | case1 d ds ih =>
    obtain ⟨zeros, hzeros, heq⟩ := ih
    refine ⟨'0' :: zeros, ?_, by rw [List.cons_append, ← heq]⟩
    intro c hc
    rcases List.mem_cons.1 hc with rfl | hc
    · rfl
    · exact hzeros c hc
  | case2 ds _ => exact ⟨[], by simp, rfl⟩

/-- A numeral may be replaced by the digits that its value is written with. -/
theorem eqvGen_toDigits (w : Written) {front back : List (List Char)} {n : List Char}
    (hw : w.numerals = front ++ n :: back) (hn : n ≠ [] ∧ ∀ c ∈ n, isDigit c = true) :
    Relation.EqvGen Respelling w { w with numerals := front ++ Nat.toDigits 10 (digitsValue n) :: back } := by
  obtain ⟨hne, hdigits⟩ := hn
  have hsame := sameDigits_plainDigits hdigits
  have hplain : plainDigits n ≠ [] := by simpa [plainDigits] using hne
  obtain ⟨zeros, hzeros, heq⟩ := exists_zeros_append_dropZeros (plainDigits n)
  rw [digitsValue_eq_of_sameDigits hsame, toDigits_digitsValue hplain (isDigit_of_mem_plainDigits hdigits)]
  have hscript := Respelling.digits w hw hsame
  have hleading := Respelling.leadingZeros
    { w with numerals := front ++ dropZeros (plainDigits n) :: back } rfl hzeros
  rw [← heq] at hleading
  exact .trans _ _ _ (.rel _ _ hscript) (.symm _ _ (.rel _ _ hleading))

/-- All numerals may be replaced by the digits that their values are written with. -/
theorem eqvGen_map_toDigits (w : Written) {front rest : List (List Char)} (hw : w.numerals = front ++ rest)
    (h : ∀ n ∈ rest, n ≠ [] ∧ ∀ c ∈ n, isDigit c = true) :
    Relation.EqvGen Respelling w
      { w with numerals := front ++ rest.map fun n => Nat.toDigits 10 (digitsValue n) } := by
  induction rest generalizing w front with
  | nil =>
    rw [List.map_nil, ← hw]
    exact .refl w
  | cons n rest ih =>
    obtain ⟨hn, hrest⟩ := List.forall_mem_cons.1 h
    have hfirst := eqvGen_toDigits w hw hn
    have hnext : front ++ Nat.toDigits 10 (digitsValue n) :: rest =
        (front ++ [Nat.toDigits 10 (digitsValue n)]) ++ rest := by simp
    have hothers := ih { w with numerals := front ++ Nat.toDigits 10 (digitsValue n) :: rest } hnext hrest
    rw [List.append_assoc] at hothers
    exact .trans _ _ _ hfirst hothers

/-- Missing numbers are zeros. -/
theorem map_toDigits_padded {ns : List (List Char)} (hne : ns ≠ []) (hlength : ns.length ≤ 4) :
    (ns ++ List.replicate (4 - ns.length) ['0']).map (fun n => Nat.toDigits 10 (digitsValue n)) =
      [0, 1, 2, 3].map fun i => Nat.toDigits 10 (((ns[i]?).map digitsValue).getD 0) := by
  match ns, hne, hlength with
  | [_], _, _ => rfl
  | [_, _], _, _ => rfl
  | [_, _, _], _, _ => rfl
  | [_, _, _, _], _, _ => rfl

/-- Every text of a version comes to the plainest one. -/
theorem eqvGen_plainest {w : Written} (hw : w.WellFormed) : Relation.EqvGen Respelling w (plainest w.version) := by
  have hzeros : ∀ n ∈ List.replicate (4 - w.numerals.length) ['0'], ∀ c ∈ n, digit? c = some 0 := by
    intro n hn c hc
    rw [List.eq_of_mem_replicate hn, List.mem_singleton] at hc
    rw [hc]
    rfl
  have hdigits : ∀ n ∈ w.numerals ++ List.replicate (4 - w.numerals.length) ['0'],
      n ≠ [] ∧ ∀ c ∈ n, isDigit c = true := by
    intro n hn
    rcases List.mem_append.1 hn with hn | hn
    · exact (hw.numerals n hn).1
    · rw [List.eq_of_mem_replicate hn]
      exact ⟨by simp, fun c hc => by rw [List.mem_singleton.1 hc]; rfl⟩
  -- missing components are written out first, then each one in plain digits, and blanks and metadata go last
  have hpadded := Respelling.components w _ hzeros
  have hmap := map_toDigits_padded hw.ne_nil hw.length_le
  generalize w.numerals ++ List.replicate (4 - w.numerals.length) ['0'] = padded at hdigits hpadded hmap
  have hwritten := eqvGen_map_toDigits { w with numerals := padded } (List.nil_append padded).symm hdigits
  rw [hmap, List.nil_append] at hwritten
  have hplainest : plainest w.version =
      ⟨[], [0, 1, 2, 3].map fun i => Nat.toDigits 10 (((w.numerals[i]?).map digitsValue).getD 0), w.labels, [], []⟩ := by
    simp [plainest, Written.version, ofSpelling, Written.spelling, Function.comp_def]
  rw [hplainest]
  refine .trans _ _ _ (.rel _ _ hpadded) (.trans _ _ _ hwritten ?_)
  exact .trans _ _ _ (.rel _ _ (.blanks _ [] [])) (.rel _ _ (.metadata _ []))

/-! ## What the normalized form keeps -/

/-- The normalized form of a version that was read keeps all but the metadata. -/
theorem withoutMetadata_eq_of_normalized_eq {v w : Version} (hv : v.WellFormed) (hw : w.WellFormed)
    (h : w.normalized = v.normalized) : w.withoutMetadata = v.withoutMetadata := by
  have hread := parse_normalized hw
  rw [h, parse_normalized hv] at hread
  exact (Except.ok.inj hread).symm

theorem plainest_withoutMetadata (v : Version) : plainest v.withoutMetadata = plainest v := rfl

/-- Texts come from each other exactly if they have one normalized form. -/
theorem respells_iff {text : String} {v : Version} (h : parse text = .ok v) (t : String) :
    Respells text t ↔ ∃ w, parse t = .ok w ∧ w.normalized = v.normalized := by
  constructor
  · rintro ⟨a, b, ha, hb, htext, ht, hrespelled⟩
    obtain rfl : a.version = v := Except.ok.inj ((Written.parse_text ha htext).symm.trans h)
    have hversion := withoutMetadata_version_eq_of_eqvGen hrespelled
    refine ⟨b.version, Written.parse_text hb ht, ?_⟩
    rw [← normalized_withoutMetadata b.version, ← hversion, normalized_withoutMetadata]
  · rintro ⟨w, hw, hnormalized⟩
    have hversion := withoutMetadata_eq_of_normalized_eq (wellFormed_of_parse h) (wellFormed_of_parse hw) hnormalized
    obtain ⟨a, ha, htext, rfl⟩ := parse_eq_ok_iff.1 h
    obtain ⟨b, hb, ht, rfl⟩ := parse_eq_ok_iff.1 hw
    have hleft := eqvGen_plainest ha
    have hright := eqvGen_plainest hb
    rw [← plainest_withoutMetadata, hversion, plainest_withoutMetadata] at hright
    exact ⟨a, b, ha, hb, htext, ht, .trans _ _ _ hleft (.symm _ _ hright)⟩

/-- What holds of the normalized form of a version that was read. -/
structure IsCanonical (text : String) (v : Version) : Prop where
  /-- It is read as the same numbers and labels without metadata, and that has the same normalized form. -/
  reread : ∃ u, parse v.normalized = .ok u ∧ u.major = v.major ∧ u.minor = v.minor ∧ u.patch = v.patch ∧
    u.revision = v.revision ∧ u.labels = v.labels ∧ u.metadata = none ∧ u.normalized = v.normalized
  /-- The texts that have it are those that come from the text by changes that do not count. -/
  respelled : ∀ t, Respells text t ↔ ∃ w, parse t = .ok w ∧ w.normalized = v.normalized
  /-- The texts that have it are texts of equal versions with the same numbers and labels. -/
  determines : ∀ t w, parse t = .ok w → w.normalized = v.normalized → w.major = v.major ∧ w.minor = v.minor ∧
    w.patch = v.patch ∧ w.revision = v.revision ∧ w.labels = v.labels ∧ (w == v) = true

/-- A version that was read has a canonical normalized form. -/
theorem isCanonical_of_parse {text : String} {v : Version} (h : parse text = .ok v) : IsCanonical text v where
  reread := ⟨v.withoutMetadata, parse_normalized (wellFormed_of_parse h), rfl, rfl, rfl, rfl, rfl, rfl,
    normalized_withoutMetadata v⟩
  respelled := respells_iff h
  determines t w hw hnormalized := by
    have hversion := withoutMetadata_eq_of_normalized_eq (wellFormed_of_parse h) (wellFormed_of_parse hw) hnormalized
    rw [withoutMetadata, withoutMetadata, Version.mk.injEq] at hversion
    obtain ⟨hmajor, hminor, hpatch, hrevision, hlabels, -⟩ := hversion
    refine ⟨hmajor, hminor, hpatch, hrevision, hlabels, beq_iff.2 (compare_eq_eq_iff.2 ?_)⟩
    exact ⟨hmajor, hminor, hpatch, hrevision, by rw [releaseLabels, releaseLabels, hlabels]⟩

/-- A release candidate with a hyphen in a label, written with digits of another script, zeros, blanks and metadata. -/
theorem isCanonical_release_candidate :
    parse " 01.٢-RC.-1+a " = .ok ⟨1, 2, 0, 0, ["RC", "-1"], some "a"⟩ ∧
      IsCanonical " 01.٢-RC.-1+a " ⟨1, 2, 0, 0, ["RC", "-1"], some "a"⟩ ∧
        Respells " 01.٢-RC.-1+a " "1.2.0.0-RC.-1" := by
  have hread : parse " 01.٢-RC.-1+a " = .ok ⟨1, 2, 0, 0, ["RC", "-1"], some "a"⟩ := by rfl
  have hcanonical := isCanonical_of_parse hread
  exact ⟨hread, hcanonical, (hcanonical.respelled _).2 ⟨_, by rfl, by rfl⟩⟩

end PackageGraph.Version
