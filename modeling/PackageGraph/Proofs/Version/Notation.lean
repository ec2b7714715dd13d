import PackageGraph.Proofs.Number.Numeral
import PackageGraph.Proofs.Text.Blank
import PackageGraph.Proofs.Text.Split
import PackageGraph.Proofs.Version.Precedence
import PackageGraph.Version.Parser
/-!
# The normalized form of a version

A version that was read is well formed, and the normalized form of a well-formed version is read back as the same
version without its metadata.
-/
namespace PackageGraph.Version

open Text

/-! ## The characters of a version -/

/-- Whether the character may stand in the text of a version. -/
def isTextChar (c : Char) : Bool := isDigit c || isLabelChar c || c == '.' || c == '+'

/-- Names are read off fields between dots that are not empty and hold the characters of labels alone. -/
theorem names?_eq_some_iff {cs : List Char} {names : List (List Char)} :
    names? cs = some names ↔ splitOn '.' cs = names ∧ ∀ n ∈ names, n ≠ [] ∧ ∀ c ∈ n, isLabelChar c = true := by
  simp only [names?, Option.ite_none_right_eq_some, Option.some.injEq]
  constructor
  · rintro ⟨h, rfl⟩
    exact ⟨rfl, by simpa using h⟩
  · rintro ⟨rfl, h⟩
    exact ⟨by simpa using h, rfl⟩

/-- Numerals are read off at most four fields between dots, of digits and not empty. -/
theorem numerals?_eq_some_iff {cs : List Char} {numerals : List (List Char)} :
    numerals? cs = some numerals ↔ splitOn '.' cs = numerals ∧ numerals.length ≤ 4 ∧
      ∀ n ∈ numerals, n ≠ [] ∧ ∀ c ∈ n, isDigit c = true := by
  simp only [numerals?, Option.ite_none_right_eq_some, Option.some.injEq]
  constructor
  · rintro ⟨⟨hlen, h⟩, rfl⟩
    exact ⟨rfl, hlen, by simpa using h⟩
  · rintro ⟨rfl, hlen, h⟩
    exact ⟨⟨hlen, by simpa using h⟩, rfl⟩

theorem isTextChar_of_names? {cs : List Char} {names : List (List Char)} (h : names? cs = some names) :
    ∀ c ∈ cs, isTextChar c = true := by
  intro c hc
  obtain ⟨rfl, hnames⟩ := names?_eq_some_iff.1 h
  rcases mem_splitOn '.' hc with rfl | ⟨n, hn, hcn⟩
  · rfl
  · simp [isTextChar, (hnames n hn).2 c hcn]

theorem isTextChar_of_numerals? {cs : List Char} {numerals : List (List Char)}
    (h : numerals? cs = some numerals) : ∀ c ∈ cs, isTextChar c = true := by
  intro c hc
  obtain ⟨rfl, -, hnumerals⟩ := numerals?_eq_some_iff.1 h
  rcases mem_splitOn '.' hc with rfl | ⟨n, hn, hcn⟩
  · rfl
  · simp [isTextChar, (hnumerals n hn).2 c hcn]

theorem isTextChar_of_metadata? {cs : List Char} {metadata : Option (List Char)}
    (h : metadata? cs = some metadata) : ∀ c ∈ cs, isTextChar c = true := by
  unfold metadata? at h
  split at h
  · simp
  · rename_i rest
    obtain ⟨names, hnames, -⟩ := Option.map_eq_some_iff.1 h
    intro c hc
    rcases List.mem_cons.1 hc with rfl | hc
    · rfl
    · exact isTextChar_of_names? hnames c hc
  · cases h

/-- What a spelling consists of. -/
theorem spelling?_eq_some {cs : List Char} {s : Spelling} (h : spelling? cs = some s) :
    (∀ c ∈ cs, isTextChar c = true) ∧ ∀ l ∈ s.labels, l ≠ [] ∧ ∀ c ∈ l, isLabelChar c = true := by
  unfold spelling? at h
  obtain ⟨numerals, hnumerals, h⟩ := Option.bind_eq_some_iff.1 h
  have hfront := isTextChar_of_numerals? hnumerals
  -- the text is split at the end of its numbers, and each part has its own characters
  have hsplit : ∀ c ∈ cs, c ∈ cs.takeWhile (!endsNumbers ·) ∨ c ∈ cs.dropWhile (!endsNumbers ·) := by
    intro c hc
    rwa [← List.takeWhile_append_dropWhile (p := (!endsNumbers ·)) (l := cs), List.mem_append] at hc
  split at h
  · rename_i rest hrest
    obtain ⟨labels, hlabels, h⟩ := Option.bind_eq_some_iff.1 h
    obtain ⟨metadata, hmetadata, h⟩ := Option.bind_eq_some_iff.1 h
    obtain rfl := Option.some.inj h
    refine ⟨fun c hc => ?_, (names?_eq_some_iff.1 hlabels).2⟩
    rcases hsplit c hc with hc | hc
    · exact hfront c hc
    · rw [hrest] at hc
      rcases List.mem_cons.1 hc with rfl | hc
      · rfl
      · rw [← List.takeWhile_append_dropWhile (p := (!endsLabels ·)) (l := rest), List.mem_append] at hc
        rcases hc with hc | hc
        · exact isTextChar_of_names? hlabels c hc
        · exact isTextChar_of_metadata? hmetadata c hc
  · obtain ⟨metadata, hmetadata, h⟩ := Option.bind_eq_some_iff.1 h
    obtain rfl := Option.some.inj h
    refine ⟨fun c hc => ?_, by simp⟩
    rcases hsplit c hc with hc | hc
    · exact hfront c hc
    · exact isTextChar_of_metadata? hmetadata c hc

/-- A version that is read has the spelling that its text is taken apart into. -/
theorem parse_eq_ok {text : String} {v : Version} (h : parse text = .ok v) :
    ∃ s, spelling? (trimChars text.toList) = some s ∧ (∀ n ∈ s.numerals, n.length ≤ digitLimit) ∧
      ofSpelling s = v := by
  unfold parse at h
  split at h
  · cases h
  · rename_i s hs
    split at h
    · rename_i hshort
      exact ⟨s, hs, by simpa using hshort, Except.ok.inj h⟩
    · cases h

/-- The text of a version holds digits, letters, hyphens, points and plus signs alone. -/
theorem isTextChar_of_parse {text : String} {v : Version} (h : parse text = .ok v) :
    ∀ c ∈ trimChars text.toList, isTextChar c = true := by
  obtain ⟨s, hs, -⟩ := parse_eq_ok h
  exact (spelling?_eq_some hs).1

/-- White space around the text of a version does not count. -/
theorem parse_eq_ok_of_trimChars_eq {text text' : String} {v : Version}
    (htrim : trimChars text.toList = trimChars text'.toList) (h : parse text = .ok v) : parse text' = .ok v := by
  unfold parse at h ⊢
  rw [← htrim]
  split at h
  · cases h
  · exact h

/-! ## Well-formed versions -/

/-- The numbers of the version are short enough to be read, and its labels have the form of labels. -/
structure WellFormed (v : Version) : Prop where
  major : v.major < 10 ^ digitLimit
  minor : v.minor < 10 ^ digitLimit
  patch : v.patch < 10 ^ digitLimit
  revision : v.revision < 10 ^ digitLimit
  labels : ∀ l ∈ v.labels, l.toList ≠ [] ∧ ∀ c ∈ l.toList, isLabelChar c = true

/-- A version that was read is well formed. -/
theorem wellFormed_of_parse {text : String} {v : Version} (h : parse text = .ok v) : v.WellFormed := by
  obtain ⟨s, hs, hshort, rfl⟩ := parse_eq_ok h
  have hnumber : ∀ i : Nat, ((s.numerals[i]?).map digitsValue).getD 0 < 10 ^ digitLimit := by
    intro i
    cases hi : s.numerals[i]? with
    | none => exact Nat.pow_pos (by decide)
    | some n =>
      -- a numeral of so many digits is below the power of ten
      have hlen : n.length ≤ digitLimit := hshort n (List.mem_of_getElem? hi)
      exact Nat.lt_of_lt_of_le (digitsValue_lt n) (Nat.pow_le_pow_right (by decide) hlen)
  refine ⟨hnumber 0, hnumber 1, hnumber 2, hnumber 3, fun l hl => ?_⟩
  obtain ⟨cs, hcs, rfl⟩ := List.mem_map.1 hl
  rw [String.toList_ofList]
  exact (spelling?_eq_some hs).2 cs hcs

/-! ## The normalized form -/

/-- The numbers that the normalized form writes. -/
def numbers (v : Version) : List Nat :=
  [v.major, v.minor, v.patch] ++ if v.revision = 0 then [] else [v.revision]

/-- The numbers of the normalized form, with points between them. -/
def numbersText (v : Version) : List Char := ['.'].intercalate (v.numbers.map (Nat.toDigits 10))

/-- The labels of the normalized form, with the hyphen before them. -/
def labelsText (v : Version) : List Char :=
  if v.labels.isEmpty then [] else '-' :: ['.'].intercalate (v.labels.map String.toList)

theorem toList_normalized (v : Version) : v.normalized.toList = v.numbersText ++ v.labelsText := by
  unfold normalized numbersText numbers labelsText
  by_cases hr : v.revision = 0
  · by_cases hl : v.labels.isEmpty
    · simp [hr, hl, toList_natText, List.intercalate_cons_cons]
    · simp [hr, hl, toList_natText, List.intercalate_cons_cons, toList_join]
  · by_cases hl : v.labels.isEmpty
    · simp [hr, hl, toList_natText, List.intercalate_cons_cons]
    · simp [hr, hl, toList_natText, List.intercalate_cons_cons, toList_join]

theorem toList_normalized_ne_nil (v : Version) : v.normalized.toList ≠ [] := by
  rw [toList_normalized, numbersText, numbers, List.map_append, List.map_cons, List.map_cons, List.cons_append,
    List.cons_append, List.intercalate_cons_cons]
  simp

theorem mem_numbersText {v : Version} {c : Char} (h : c ∈ v.numbersText) : c = '.' ∨ c.isDigit = true := by
  rcases mem_intercalate h with rfl | ⟨f, hf, hc⟩
  · exact .inl rfl
  · obtain ⟨n, -, rfl⟩ := List.mem_map.1 hf
    exact .inr (isDigit_of_mem_toDigits hc)

theorem numerals?_numbersText (v : Version) :
    numerals? v.numbersText = some (v.numbers.map (Nat.toDigits 10)) := by
  -- no numeral holds a point, there are three or four of them, and none is empty
  refine numerals?_eq_some_iff.2 ⟨splitOn_intercalate ?_ ?_, ?_, ?_⟩
  · simp [numbers]
  · intro f hf hdot
    obtain ⟨n, -, rfl⟩ := List.mem_map.1 hf
    exact absurd (isDigit_of_mem_toDigits hdot) (by decide)
  · unfold numbers
    split <;> simp
  · intro f hf
    obtain ⟨n, -, rfl⟩ := List.mem_map.1 hf
    exact ⟨Nat.toDigits_ne_nil, fun c hc => isDigit_of_isDigit (isDigit_of_mem_toDigits hc)⟩

/-- Labels with points between them are read back. -/
theorem names?_intercalate {names : List (List Char)} (hne : names ≠ [])
    (h : ∀ n ∈ names, n ≠ [] ∧ ∀ c ∈ n, isLabelChar c = true) : names? (['.'].intercalate names) = some names :=
  names?_eq_some_iff.2
    ⟨splitOn_intercalate hne fun n hn hdot => absurd ((h n hn).2 _ hdot) (by decide), h⟩

theorem names?_labels {v : Version} (hv : v.WellFormed) (hne : v.labels ≠ []) :
    names? (['.'].intercalate (v.labels.map String.toList)) = some (v.labels.map String.toList) := by
  refine names?_intercalate (by simpa using hne) fun f hf => ?_
  obtain ⟨l, hl, rfl⟩ := List.mem_map.1 hf
  exact hv.labels l hl

theorem not_endsNumbers_of_ne {c : Char} (hhyphen : c ≠ '-') (hplus : c ≠ '+') : (!endsNumbers c) = true := by
  simp [endsNumbers, hhyphen, hplus]

theorem not_endsNumbers_of_isDigit {c : Char} (h : c.isDigit = true) : (!endsNumbers c) = true := by
  refine not_endsNumbers_of_ne ?_ ?_
  · rintro rfl
    exact absurd h (by decide)
  · rintro rfl
    exact absurd h (by decide)

theorem not_endsLabels_of_isLabelChar {c : Char} (h : isLabelChar c = true) : (!endsLabels c) = true := by
  have hplus : c ≠ '+' := by
    rintro rfl
    exact absurd h (by decide)
  simp [endsLabels, hplus]

/-- Labels lie between the hyphen and `z`, which are both no white space. -/
theorem toNat_of_isLabelChar {c : Char} (h : isLabelChar c = true) : 0x2D ≤ c.toNat ∧ c.toNat ≤ 0x7A := by
  have hupper : 'A'.val.toNat = 65 ∧ 'Z'.val.toNat = 90 := ⟨rfl, rfl⟩
  have hlower : 'a'.val.toNat = 97 ∧ 'z'.val.toNat = 122 := ⟨rfl, rfl⟩
  have hdigit : '0'.val.toNat = 48 ∧ '9'.val.toNat = 57 := ⟨rfl, rfl⟩
  have hval : c.toNat = c.val.toNat := rfl
  rcases Bool.or_eq_true_iff.1 h with h | h
  · have hranges : ((decide ('A'.val ≤ c.val ∧ c.val ≤ 'Z'.val) ||
        decide ('a'.val ≤ c.val) && decide (c.val ≤ 'z'.val)) ||
        decide ('0'.val ≤ c.val) && decide (c.val ≤ '9'.val)) = true := h
    simp only [Bool.or_eq_true, Bool.and_eq_true, decide_eq_true_eq, UInt32.le_iff_toNat_le] at hranges
    omega
  · rw [decide_eq_true_eq] at h
    subst h
    decide

theorem ascii_of_isLabelChar {c : Char} (h : isLabelChar c = true) : c.toNat < 128 := by
  have hle := (toNat_of_isLabelChar h).2
  omega

theorem not_isBlank_of_isLabelChar {c : Char} (h : isLabelChar c = true) : isBlank c = false := by
  obtain ⟨hlow, hhigh⟩ := toNat_of_isLabelChar h
  simp only [isBlank, Bool.or_eq_false_iff, Bool.and_eq_false_iff, decide_eq_false_iff_not, beq_eq_false_iff_ne]
  omega

/-- The normalized form is taken apart into what it was put together from. -/
theorem spelling?_normalized {v : Version} (hv : v.WellFormed) :
    spelling? v.normalized.toList =
      some ⟨v.numbers.map (Nat.toDigits 10), v.labels.map String.toList, none⟩ := by
  have hnumbers : ∀ c ∈ v.numbersText, (!endsNumbers c) = true := by
    intro c hc
    rcases mem_numbersText hc with rfl | hdigit
    · rfl
    · exact not_endsNumbers_of_isDigit hdigit
  -- The numbers end where the labels begin, since digits and points end nothing.
  have hlabels : labelsText v = [] ∨ ∃ rest, labelsText v = '-' :: rest := by
    unfold labelsText
    split
    · exact .inl rfl
    · exact .inr ⟨_, rfl⟩
  have htake : v.normalized.toList.takeWhile (!endsNumbers ·) = v.numbersText := by
    rw [toList_normalized, List.takeWhile_append_of_pos hnumbers]
    rcases hlabels with hl | ⟨rest, hl⟩ <;> simp [hl, endsNumbers]
  have hdrop : v.normalized.toList.dropWhile (!endsNumbers ·) = v.labelsText := by
    rw [toList_normalized, List.dropWhile_append_of_pos hnumbers]
    rcases hlabels with hl | ⟨rest, hl⟩ <;> simp [hl, endsNumbers]
  unfold spelling?
  rw [htake, hdrop, numerals?_numbersText]
  by_cases hl : v.labels = []
  · simp [labelsText, hl, metadata?]
  · -- no label holds a plus sign, so that there is no metadata
    have hplus : ∀ c ∈ ['.'].intercalate (v.labels.map String.toList), (!endsLabels c) = true := by
      intro c hc
      rcases mem_intercalate hc with rfl | ⟨f, hf, hcf⟩
      · rfl
      · obtain ⟨l, hl, rfl⟩ := List.mem_map.1 hf
        exact not_endsLabels_of_isLabelChar ((hv.labels l hl).2 c hcf)
    have hempty : v.labels.isEmpty = false := by simpa using hl
    simp only [labelsText, hempty, Bool.false_eq_true, if_false, Option.bind_eq_bind, Option.bind_some]
    rw [List.takeWhile_eq_self_iff.2 hplus, List.dropWhile_eq_nil_iff.2 hplus, names?_labels hv hl]
    rfl

/-- The normalized form holds letters, digits, hyphens and points alone. -/
theorem mem_normalized {v : Version} (hv : v.WellFormed) {c : Char} (h : c ∈ v.normalized.toList) :
    isLabelChar c = true ∨ c = '.' := by
  rw [toList_normalized, List.mem_append] at h
  rcases h with h | h
  · rcases mem_numbersText h with rfl | hdigit
    · exact .inr rfl
    · exact .inl (by simp [isLabelChar, Char.isAlphanum, hdigit])
  · unfold labelsText at h
    split at h
    · cases h
    · rcases List.mem_cons.1 h with rfl | h
      · exact .inl rfl
      · rcases mem_intercalate h with rfl | ⟨f, hf, hc⟩
        · exact .inr rfl
        · obtain ⟨l, hl, rfl⟩ := List.mem_map.1 hf
          exact .inl ((hv.labels l hl).2 c hc)

/-- The normalized text of a well-formed version has no blanks in it. -/
theorem not_isBlank_of_mem_normalized {v : Version} (hv : v.WellFormed) {c : Char}
    (h : c ∈ v.normalized.toList) : isBlank c = false := by
  rcases mem_normalized hv h with hlabel | rfl
  · exact not_isBlank_of_isLabelChar hlabel
  · rfl

/-- Reading the parts of the normalized text gives the version without its metadata. -/
theorem ofSpelling_normalized (v : Version) :
    ofSpelling ⟨v.numbers.map (Nat.toDigits 10), v.labels.map String.toList, none⟩ = v.withoutMetadata := by
  -- a missing fourth number is zero, which is why zero need not be written
  unfold ofSpelling numbers withoutMetadata
  by_cases hr : v.revision = 0
  · simp [hr, digitsValue_toDigits]
  · simp [hr, digitsValue_toDigits]

/-- The normalized form of a well-formed version is read back, without the metadata. -/
theorem parse_normalized {v : Version} (hv : v.WellFormed) : parse v.normalized = .ok v.withoutMetadata := by
  have htrim : trimChars v.normalized.toList = v.normalized.toList :=
    trimChars_eq_self_of_forall fun _ => not_isBlank_of_mem_normalized hv
  -- the numbers were short enough to be read, so their digits are few enough
  have hshort : ∀ n ∈ v.numbers, (Nat.toDigits 10 n).length ≤ digitLimit := by
    intro n hn
    refine length_toDigits_le (by decide) ?_
    unfold numbers at hn
    rcases List.mem_append.1 hn with hn | hn
    · simp only [List.mem_cons, List.not_mem_nil, or_false] at hn
      rcases hn with rfl | rfl | rfl
      · exact hv.major
      · exact hv.minor
      · exact hv.patch
    · split at hn
      · cases hn
      · exact List.mem_singleton.1 hn ▸ hv.revision
  unfold parse
  rw [htrim, spelling?_normalized hv]
  simp only [ofSpelling_normalized]
  exact if_pos (by simpa using hshort)

end PackageGraph.Version
