import PackageGraph.Proofs.Version.Notation
/-!
# The order of versions

Precedence is lexicographic: it goes by the four numbers, then by whether there are labels, then by what the labels
count as. So it orders versions totally. Versions that it does not tell apart are those with equal numbers and with
labels of equal plain spelling, and their hashes are equal.
-/
namespace PackageGraph

/-! ## Lower case within ASCII -/

namespace Text

theorem lowerAfter_of_ascii (before : List Char) {cs : List Char} (h : ∀ c ∈ cs, c.toNat < 128) :
    lowerAfter before cs = cs.map Char.toLower := by
  induction cs generalizing before with
  | nil => rfl
  | cons c cs ih =>
    obtain ⟨hc, hcs⟩ := List.forall_mem_cons.1 h
    have hsigma : c ≠ 'Σ' := by
      rintro rfl
      exact absurd hc (by decide)
    rw [lowerAfter, if_neg hsigma, ih _ hcs, lowerChar, if_pos hc]
    rfl

/-- In ASCII text the case of a letter does not depend on what stands around it. -/
theorem lowerChars_of_ascii {cs : List Char} (h : ∀ c ∈ cs, c.toNat < 128) : lowerChars cs = cs.map Char.toLower :=
  lowerAfter_of_ascii [] h

theorem isDigit_toLower (c : Char) : c.toLower.isDigit = c.isDigit := by
  unfold Char.toLower
  split
  · rename_i hupper
    -- neither a capital letter nor its lower case lies among the digits
    obtain ⟨hlow, hhigh⟩ : 65 ≤ c.val.toNat ∧ c.val.toNat ≤ 90 := hupper
    have hval : (c.val + ('a'.val - 'A'.val)).toNat = c.val.toNat + 32 := by
      rw [UInt32.toNat_add]
      have hstep : ('a'.val - 'A'.val).toNat = 32 := rfl
      omega
    have hdigit : ∀ d : Char, 65 ≤ d.val.toNat → d.isDigit = false := by
      intro d hd
      rw [Bool.eq_false_iff, ne_eq, Char.isDigit_iff_toNat]
      rintro ⟨-, hle⟩
      have hle' : d.val.toNat ≤ 57 := hle
      omega
    rw [hdigit c hlow, hdigit _ (by simp only [hval]; omega)]
  · rfl

end Text

/-! ## Labels -/

namespace ReleaseLabel

/-- Words are compared character by character, and a word comes before its extensions. -/
theorem compareWords_eq_compareLex : compareWords = List.compareLex (compareOn Char.toNat) := by
  funext v w
  induction v generalizing w with
  | nil => cases w <;> rfl
  | cons a v ih =>
    cases w with
    | nil => rfl
    | cons b w =>
      rw [compareWords, List.compareLex_cons_cons, ih]
      rfl

instance : Std.TransCmp compareWords := by
  rw [compareWords_eq_compareLex]
  infer_instance

/-- Numerals are ordered among themselves and so are words, and every numeral comes before every word. -/
instance : Std.TransCmp compare where
  eq_swap {a b} := by
    cases a with
    | numeral m =>
      cases b with
      | numeral n => exact Nat.compare_swap n m |>.symm
      | word w => rfl
    | word v =>
      cases b with
      | numeral n => rfl
      | word w =>
        show compareWords v w = (compareWords w v).swap
        exact Std.OrientedCmp.eq_swap
  isLE_trans {a b c} hab hbc := by
    -- no word comes before a numeral, so what lies between is of the kind of one of the ends
    cases a with
    | numeral m =>
      cases c with
      | word w => rfl
      | numeral k =>
        cases b with
        | numeral n =>
          show (Ord.compare m k).isLE = true
          exact Std.TransCmp.isLE_trans hab hbc
        | word w => cases hbc
    | word u =>
      cases b with
      | numeral n => cases hab
      | word v =>
        cases c with
        | numeral k => cases hbc
        | word w =>
          show (compareWords u w).isLE = true
          exact Std.TransCmp.isLE_trans hab hbc

/-- Lists of labels are compared label by label, and a list comes before its extensions. -/
theorem compareLists_eq_compareLex : compareLists = List.compareLex compare := by
  funext as bs
  induction as generalizing bs with
  | nil => cases bs <;> rfl
  | cons a as ih =>
    cases bs with
    | nil => rfl
    | cons b bs => rw [compareLists, List.compareLex_cons_cons, ih]

instance : Std.TransCmp compareLists := by
  rw [compareLists_eq_compareLex]
  infer_instance

/-- The plain spelling of a label: a numeral without the zeros before it, a word in lower case. -/
def plain (label : String) : String :=
  if isNumeral label.toList then .ofList (Text.dropZeros label.toList) else Text.lower label

theorem isNumeral_iff {l : List Char} : isNumeral l = true ↔ l ≠ [] ∧ ∀ c ∈ l, c.isDigit = true := by
  simp [isNumeral]

theorem text_ofChars (label : String) : (ofChars label.toList).text = plain label := by
  unfold ofChars plain
  split
  · rename_i hnumeral
    obtain ⟨hne, hdigits⟩ := isNumeral_iff.1 hnumeral
    rw [text, natText, toDigits_digitsValue hne hdigits]
  · rfl

/-- A word stays a word in lower case. -/
theorem isNumeral_lowerChars {l : List Char} (h : ∀ c ∈ l, Version.isLabelChar c = true) :
    isNumeral (Text.lowerChars l) = isNumeral l := by
  have hascii : ∀ c ∈ l, c.toNat < 128 := fun c hc => Version.ascii_of_isLabelChar (h c hc)
  simp [isNumeral, Text.lowerChars_of_ascii hascii, List.all_map, Function.comp_def, Text.isDigit_toLower]

theorem isNumeral_toList_natText (n : Nat) : isNumeral (natText n).toList = true := by
  rw [toList_natText, isNumeral_iff]
  exact ⟨Nat.toDigits_ne_nil, fun _ => isDigit_of_mem_toDigits⟩

/-- Different numbers are printed differently. -/
theorem natText_injective {m n : Nat} (h : natText m = natText n) : m = n := by
  rw [← digitsValue_toDigits m, ← digitsValue_toDigits n, ← toList_natText, ← toList_natText, h]

/-- Labels count alike exactly if their plain spellings are equal. -/
theorem ofChars_eq_iff {a b : String} (ha : ∀ c ∈ a.toList, Version.isLabelChar c = true)
    (hb : ∀ c ∈ b.toList, Version.isLabelChar c = true) :
    ofChars a.toList = ofChars b.toList ↔ plain a = plain b := by
  -- no word is spelled like a numeral, not even in lower case
  have hword : ∀ {n : Nat} {l : List Char}, (∀ c ∈ l, Version.isLabelChar c = true) → isNumeral l = false →
      natText n ≠ .ofList (Text.lowerChars l) := by
    intro n l hl hnot heq
    have hnumeral := isNumeral_toList_natText n
    rw [heq, String.toList_ofList, isNumeral_lowerChars hl, hnot] at hnumeral
    cases hnumeral
  rw [← text_ofChars, ← text_ofChars]
  constructor
  · intro h
    rw [h]
  · intro h
    unfold ofChars at h ⊢
    cases hna : isNumeral a.toList <;> cases hnb : isNumeral b.toList <;> simp only [hna, hnb] at h ⊢
    case true.true => exact congrArg numeral (natText_injective h)
    case true.false => exact absurd h (hword hb hnb)
    case false.true => exact absurd h.symm (hword ha hna)
    case false.false => exact congrArg word (String.ofList_injective h)

/-- Lists of labels count alike exactly if their plain spellings are equal. -/
theorem map_ofChars_eq_iff {as bs : List String} (ha : ∀ a ∈ as, ∀ c ∈ a.toList, Version.isLabelChar c = true)
    (hb : ∀ b ∈ bs, ∀ c ∈ b.toList, Version.isLabelChar c = true) :
    (as.map fun l => ofChars l.toList) = (bs.map fun l => ofChars l.toList) ↔ as.map plain = bs.map plain := by
  induction as generalizing bs with
  | nil => cases bs <;> simp
  | cons a as ih =>
    cases bs with
    | nil => simp
    | cons b bs =>
      obtain ⟨hhead, htail⟩ := List.forall_mem_cons.1 ha
      obtain ⟨hhead', htail'⟩ := List.forall_mem_cons.1 hb
      simp only [List.map_cons, List.cons.injEq, ofChars_eq_iff hhead hhead', ih htail htail']

end ReleaseLabel

namespace Version

open Text

/-! ## Precedence -/

/-- Labels are compared only between versions of one stage. -/
theorem compareLabels_eq_then (v w : Version) :
    compareLabels v w =
      (Ord.compare v.stage w.stage).then (ReleaseLabel.compareLists v.releaseLabels w.releaseLabels) := by
  unfold compareLabels stage releaseLabels
  cases v.labels <;> cases w.labels <;> rfl

instance : Std.TransCmp fun v w : Version => ReleaseLabel.compareLists v.releaseLabels w.releaseLabels where
  eq_swap {v w} := by
    show ReleaseLabel.compareLists v.releaseLabels w.releaseLabels =
      (ReleaseLabel.compareLists w.releaseLabels v.releaseLabels).swap
    exact Std.OrientedCmp.eq_swap
  isLE_trans {u v w} huv hvw := by
    show (ReleaseLabel.compareLists u.releaseLabels w.releaseLabels).isLE = true
    exact Std.TransCmp.isLE_trans huv hvw

/-- Precedence is lexicographic. -/
theorem compare_eq_compareLex :
    compare = compareLex (compareOn major) (compareLex (compareOn minor) (compareLex (compareOn patch)
      (compareLex (compareOn revision) (compareLex (compareOn stage)
        fun v w => ReleaseLabel.compareLists v.releaseLabels w.releaseLabels)))) := by
  funext v w
  rw [compare, compareLabels_eq_then]
  rfl

instance : Std.TransCmp compare := by
  rw [compare_eq_compareLex]
  infer_instance

instance : LT Version := ⟨fun v w => v.compare w = .lt⟩

theorem lt_iff {v w : Version} : v < w ↔ v.compare w = .lt := Iff.rfl

theorem gt_iff {v w : Version} : w < v ↔ v.compare w = .gt := by
  rw [Std.OrientedCmp.gt_iff_lt, lt_iff]

theorem lt_trans {u v w : Version} (huv : u < v) (hvw : v < w) : u < w := by
  rw [lt_iff] at *
  exact Std.TransCmp.lt_trans huv hvw

instance : LE Version := ⟨fun v w => v < w ∨ (v == w) = true⟩

theorem le_iff {v w : Version} : v ≤ w ↔ (v.compare w).isLE = true := by
  show v < w ∨ (v == w) = true ↔ _
  rw [lt_iff, beq_iff]
  cases v.compare w <;> simp

theorem lt_irrefl (v : Version) : ¬ v < v := by
  rw [lt_iff, beq_iff.1 (beq_refl v)]
  exact Ordering.noConfusion

theorem not_lt_iff {v w : Version} : ¬ v < w ↔ w ≤ v := by
  rw [le_iff, Ordering.isLE_iff_ne_gt, ← gt_iff]

theorem le_trans {u v w : Version} (huv : u ≤ v) (hvw : v ≤ w) : u ≤ w := by
  rw [le_iff] at *
  exact Std.TransCmp.isLE_trans huv hvw

theorem lt_of_lt_of_le {u v w : Version} (huv : u < v) (hvw : v ≤ w) : u < w :=
  Std.TransCmp.lt_of_lt_of_isLE huv (le_iff.1 hvw)

theorem lt_of_le_of_lt {u v w : Version} (huv : u ≤ v) (hvw : v < w) : u < w :=
  Std.TransCmp.lt_of_isLE_of_lt (le_iff.1 huv) hvw

/-- A prerelease comes before the release with its numbers. -/
theorem lt_of_isPrerelease {v w : Version} (hv : v.isPrerelease = true) (hw : w.isPrerelease = false)
    (hmajor : v.major = w.major) (hminor : v.minor = w.minor) (hpatch : v.patch = w.patch)
    (hrevision : v.revision = w.revision) : v < w := by
  have hlabels : compareLabels v w = .lt := by
    have hvl : v.stage = 0 := by simpa [isPrerelease, stage] using hv
    have hwl : w.stage = 1 := by simpa [isPrerelease, stage] using hw
    rw [compareLabels_eq_then, hvl, hwl]
    rfl
  rw [lt_iff, compare, hmajor, hminor, hpatch, hrevision, hlabels]
  simp

/-! ## Equality and hashes -/

/-- The plain spellings of the labels. -/
def plainLabels (v : Version) : List String := v.labels.map ReleaseLabel.plain

/-- Label lists count alike exactly if their plain spellings are equal. -/
theorem releaseLabels_eq_iff {v w : Version} (hv : v.WellFormed) (hw : w.WellFormed) :
    v.releaseLabels = w.releaseLabels ↔ v.plainLabels = w.plainLabels :=
  ReleaseLabel.map_ofChars_eq_iff (fun l hl => (hv.labels l hl).2) fun l hl => (hw.labels l hl).2

/-- Versions are equal exactly if their numbers and the plain spellings of their labels are. -/
theorem beq_iff_plainLabels {v w : Version} (hv : v.WellFormed) (hw : w.WellFormed) :
    (v == w) = true ↔ v.major = w.major ∧ v.minor = w.minor ∧ v.patch = w.patch ∧ v.revision = w.revision ∧
      v.plainLabels = w.plainLabels := by
  rw [beq_iff, compare_eq_eq_iff, releaseLabels_eq_iff hv hw]

theorem stage_eq_of_releaseLabels_eq {v w : Version} (h : v.releaseLabels = w.releaseLabels) :
    v.stage = w.stage := by
  have hempty : v.labels.isEmpty = w.labels.isEmpty := by
    simpa [releaseLabels] using congrArg List.isEmpty h
  rw [stage, stage, hempty]

/-- Equal versions have one hash, whichever function it is made with. -/
theorem hashKey_eq_of_beq {v w : Version} (h : (v == w) = true) : v.hashKey = w.hashKey := by
  obtain ⟨hmajor, hminor, hpatch, hrevision, hlabels⟩ := compare_eq_eq_iff.1 (beq_iff.1 h)
  rw [hashKey, hashKey, hmajor, hminor, hpatch, hrevision, stage_eq_of_releaseLabels_eq hlabels, hlabels]

instance : LawfulHashable Version where
  hash_eq v w h := by
    show hash v.hashKey = hash w.hashKey
    rw [hashKey_eq_of_beq h]

/-! ## Trailing zeros -/

/-- The second text is the first one with another component of zeros after its numbers. -/
def AddsZero (text longer : String) : Prop :=
  ∃ numbers zeros rest : List Char,
    trimChars text.toList = numbers ++ rest ∧ trimChars longer.toList = (numbers ++ '.' :: zeros) ++ rest ∧
      (∀ c ∈ numbers, c = '.' ∨ isDigit c = true) ∧ (∀ c ∈ rest.head?, endsNumbers c = true) ∧
        (splitOn '.' numbers).length < 4 ∧ zeros ≠ [] ∧ zeros.length ≤ digitLimit ∧ ∀ c ∈ zeros, digit? c = some 0

theorem not_endsNumbers_of_digit {c : Char} (h : c = '.' ∨ isDigit c = true) : endsNumbers c = false := by
  rw [Bool.eq_false_iff, endsNumbers, ne_eq, Bool.or_eq_true, decide_eq_true_eq, decide_eq_true_eq]
  rintro (rfl | rfl) <;> exact absurd h (by decide)

/-- The numbers reach as far as their characters do. -/
theorem takeWhile_numbers {numbers rest : List Char} (hnumbers : ∀ c ∈ numbers, c = '.' ∨ isDigit c = true)
    (hrest : ∀ c ∈ rest.head?, endsNumbers c = true) :
    (numbers ++ rest).takeWhile (!endsNumbers ·) = numbers ∧
      (numbers ++ rest).dropWhile (!endsNumbers ·) = rest := by
  have hnot : ∀ c ∈ numbers, (!endsNumbers c) = true := by
    intro c hc
    rw [not_endsNumbers_of_digit (hnumbers c hc)]
    rfl
  rw [List.takeWhile_append_of_pos hnot, List.dropWhile_append_of_pos hnot]
  cases rest with
  | nil => simp
  | cons c rest =>
    have hc : endsNumbers c = true := hrest c rfl
    simp [hc]

/-- What follows the numbers is taken apart alike after other numbers. -/
theorem spelling?_append {numbers rest : List Char} {s : Spelling}
    (hnumbers : ∀ c ∈ numbers, c = '.' ∨ isDigit c = true) (hrest : ∀ c ∈ rest.head?, endsNumbers c = true)
    (h : spelling? (numbers ++ rest) = some s) :
    numerals? numbers = some s.numerals ∧ ∀ (other : List Char) (numerals : List (List Char)),
      (∀ c ∈ other, c = '.' ∨ isDigit c = true) → numerals? other = some numerals →
        spelling? (other ++ rest) = some { s with numerals } := by
  unfold spelling? at h ⊢
  obtain ⟨htake, hdrop⟩ := takeWhile_numbers hnumbers hrest
  rw [htake, hdrop] at h
  -- the rest begins with a hyphen, and is labels and metadata, or it is metadata alone
  obtain ⟨numerals, hnumerals, h⟩ := Option.bind_eq_some_iff.1 h
  rw [hnumerals]
  split at h
  · obtain ⟨labels, hlabels, h⟩ := Option.bind_eq_some_iff.1 h
    obtain ⟨metadata, hmetadata, h⟩ := Option.bind_eq_some_iff.1 h
    obtain rfl := Option.some.inj h
    refine ⟨rfl, fun other numerals' hother hnumerals' => ?_⟩
    obtain ⟨htake', hdrop'⟩ := takeWhile_numbers hother hrest
    rw [htake', hdrop', hnumerals']
    simp [hlabels, hmetadata]
  · rename_i hhyphen
    obtain ⟨metadata, hmetadata, h⟩ := Option.bind_eq_some_iff.1 h
    obtain rfl := Option.some.inj h
    refine ⟨rfl, fun other numerals' hother hnumerals' => ?_⟩
    obtain ⟨htake', hdrop'⟩ := takeWhile_numbers hother hrest
    rw [htake', hdrop', hnumerals']
    simp [hmetadata]

/-- Zeros of any script stand for zero. -/
theorem digitsValue_of_zeros {cs : List Char} (h : ∀ c ∈ cs, digit? c = some 0) : digitsValue cs = 0 := by
  induction cs using List.reverseRecOn with
  | nil => rfl
  | append_singleton cs c ih =>
    rw [digitsValue_append_singleton, ih fun d hd => h d (List.mem_append_left _ hd), h c (by simp)]
    rfl

/-- A missing number is zero, so that a zero may stand in its place. -/
theorem ofSpelling_append_zeros (numerals labels : List (List Char)) (metadata : Option (List Char))
    {zeros : List Char} (h : ∀ c ∈ zeros, digit? c = some 0) :
    ofSpelling ⟨numerals ++ [zeros], labels, metadata⟩ = ofSpelling ⟨numerals, labels, metadata⟩ := by
  have hnumber : ∀ i : Nat, (((numerals ++ [zeros])[i]?).map digitsValue).getD 0 =
      ((numerals[i]?).map digitsValue).getD 0 := by
    intro i
    rcases Nat.lt_trichotomy i numerals.length with hlt | rfl | hgt
    · rw [List.getElem?_append_left hlt]
    · simp [digitsValue_of_zeros h]
    · rw [List.getElem?_eq_none (by simp; omega), List.getElem?_eq_none (by omega)]
  simp only [ofSpelling, hnumber]

/-- A text with another component of zeros is the same version. -/
theorem parse_of_addsZero {text longer : String} {v : Version} (h : parse text = .ok v)
    (hadds : AddsZero text longer) : parse longer = .ok v := by
  obtain ⟨numbers, zeros, rest, htext, hlonger, hnumbers, hrest, hfew, hne, hshort, hzeros⟩ := hadds
  have hdigit : ∀ c ∈ zeros, isDigit c = true := fun c hc => by rw [isDigit, hzeros c hc]; rfl
  have hpoint : '.' ∉ zeros := fun hc => absurd (hdigit _ hc) (by decide)
  unfold parse at h ⊢
  rw [htext] at h
  rw [hlonger]
  cases hs : spelling? (numbers ++ rest) with
  | none => rw [hs] at h; cases h
  | some s =>
    rw [hs] at h
    obtain ⟨hnumerals, hother⟩ := spelling?_append hnumbers hrest hs
    obtain ⟨hsplit, -, hall⟩ := numerals?_eq_some_iff.1 hnumerals
    -- the longer text has the same numbers and one more, which is zero
    have hlonger' : numerals? (numbers ++ '.' :: zeros) = some (s.numerals ++ [zeros]) := by
      refine numerals?_eq_some_iff.2 ⟨by rw [splitOn_append_cons_of_notMem hpoint, hsplit], ?_, ?_⟩
      · rw [List.length_append, ← hsplit]
        exact hfew
      · intro n hn
        rcases List.mem_append.1 hn with hn | hn
        · exact hall n hn
        · obtain rfl := List.mem_singleton.1 hn
          exact ⟨hne, hdigit⟩
    have hchars : ∀ c ∈ numbers ++ '.' :: zeros, c = '.' ∨ isDigit c = true := by
      intro c hc
      rcases List.mem_append.1 hc with hc | hc
      · exact hnumbers c hc
      · rcases List.mem_cons.1 hc with rfl | hc
        · exact .inl rfl
        · exact .inr (hdigit c hc)
    rw [hother _ _ hchars hlonger']
    simp only [List.all_append, ofSpelling_append_zeros _ _ _ hzeros] at h ⊢
    -- a number is read unless it has too many digits, and the zeros are few enough
    split at h
    · rename_i hlengths
      rw [if_pos (by simpa [hshort] using hlengths)]
      exact h
    · cases h

/-! ## The laws of the order -/

/-- The version with other metadata. -/
def withMetadata (v : Version) (metadata : Option String) : Version := { v with metadata }

/-- What holds of the order, of equality and of hashes for any three versions. -/
structure Laws (u v w : Version) : Prop where
  /-- Exactly one of two versions comes first, unless they are equal. -/
  trichotomy :
    (u < v ∧ (u == v) = false ∧ ¬ v < u) ∨ (¬ u < v ∧ (u == v) = true ∧ ¬ v < u) ∨
      (¬ u < v ∧ (u == v) = false ∧ v < u)
  trans : u < v → v < w → u < w
  beq_refl : (u == u) = true
  beq_symm : (u == v) = true → (v == u) = true
  beq_trans : (u == v) = true → (v == w) = true → (u == w) = true
  /-- Equality goes by the numbers and by the labels in lower case and without leading zeros. -/
  beq_iff : (u == v) = true ↔ u.major = v.major ∧ u.minor = v.minor ∧ u.patch = v.patch ∧
    u.revision = v.revision ∧ u.plainLabels = v.plainLabels
  hash_eq : (u == v) = true → u.hashKey = v.hashKey ∧ hash u = hash v
  /-- A prerelease comes before the release with its numbers. -/
  prerelease_lt : u.isPrerelease = true → v.isPrerelease = false → u.major = v.major → u.minor = v.minor →
    u.patch = v.patch → u.revision = v.revision → u < v
  /-- Metadata does not count. -/
  compare_metadata : ∀ m n : Option String,
    (u.withMetadata m).compare (v.withMetadata n) = u.compare v

/-- Of two versions one is below the other or they are equal, and only one of the three holds. -/
theorem trichotomy (u v : Version) :
    (u < v ∧ (u == v) = false ∧ ¬ v < u) ∨ (¬ u < v ∧ (u == v) = true ∧ ¬ v < u) ∨
      (¬ u < v ∧ (u == v) = false ∧ v < u) := by
  rw [lt_iff, gt_iff, Bool.eq_false_iff, ne_eq, beq_iff]
  cases u.compare v <;> simp

/-- Versions that were read are ordered totally, in keeping with equality and hashes, and neither metadata nor a
trailing component of zeros makes a difference. -/
theorem laws_of_parse {s t : String} {u v : Version} (hu : parse s = .ok u) (hv : parse t = .ok v) (w : Version) :
    Laws u v w ∧ ∀ longer, AddsZero s longer → parse longer = .ok u where
  left := {
    trichotomy := trichotomy u v
    trans := lt_trans
    beq_refl := beq_refl u
    beq_symm := beq_symm
    beq_trans := beq_trans
    beq_iff := beq_iff_plainLabels (wellFormed_of_parse hu) (wellFormed_of_parse hv)
    hash_eq := fun h => ⟨hashKey_eq_of_beq h, LawfulHashable.hash_eq u v h⟩
    prerelease_lt := lt_of_isPrerelease
    compare_metadata := fun _ _ => rfl }
  right _ := parse_of_addsZero hu

/-- Two spellings of a release candidate are one version, which comes before its release. -/
theorem laws_of_release_candidates :
    ∃ u v w, parse "1.0-RC.01+a" = .ok u ∧ parse "1.0.0.0-rc.1" = .ok v ∧ parse "1" = .ok w ∧
      AddsZero "1.0-RC.01+a" " 1.0.00-RC.01+a" ∧ Laws u v w ∧ parse " 1.0.00-RC.01+a" = .ok u ∧
        (u == v) = true ∧ v < w := by
  have hu : parse "1.0-RC.01+a" = .ok ⟨1, 0, 0, 0, ["RC", "01"], some "a"⟩ := by rfl
  have hv : parse "1.0.0.0-rc.1" = .ok ⟨1, 0, 0, 0, ["rc", "1"], none⟩ := by rfl
  have hadds : AddsZero "1.0-RC.01+a" " 1.0.00-RC.01+a" := by
    have hnumbers : ∀ c ∈ ['1', '.', '0'], c = '.' ∨ isDigit c = true := by
      rw [← List.forall_iff_forall_mem]
      decide
    have hzeros : ∀ c ∈ ['0', '0'], digit? c = some 0 := by
      rw [← List.forall_iff_forall_mem]
      decide
    refine ⟨_, _, "-RC.01+a".toList, by rfl, by rfl, hnumbers, ?_, by decide, by decide, by decide, hzeros⟩
    rintro c ⟨⟩
    rfl
  obtain ⟨hlaws, hzeros⟩ := laws_of_parse hu hv ⟨1, 0, 0, 0, [], none⟩
  exact ⟨_, _, _, hu, hv, by rfl, hadds, hlaws, hzeros _ hadds, by rfl, by rfl⟩

end Version
end PackageGraph
