import PackageGraph.Proofs.Version.Order
/-!
# Texts that go on from a version

Where the text of a version goes on, the last of its numbers goes on or others follow, so that no number gets smaller.
The same holds of labels: a numeral that goes on is a greater numeral or a word, which comes after every numeral, and a
word that goes on comes after the word. Labels that are added come after those that are there.
-/
namespace PackageGraph

namespace ReleaseLabel

open Text

/-! ## Labels that go on -/

/-- A word is not above any word that extends it. -/
theorem isLE_compareWords_append (word more : List Char) : (compareWords word (word ++ more)).isLE = true := by
  induction word with
  | nil => cases more <;> rfl
  | cons c word ih =>
    rw [List.cons_append, compareWords, Nat.compare_eq_eq.2 rfl]
    exact ih

/-- A label that goes on does not come before the label. -/
theorem isLE_compare_append {label more : List Char} (hne : label ≠ [])
    (h : ∀ c ∈ label ++ more, Version.isLabelChar c = true) :
    (compare (ofChars label) (ofChars (label ++ more))).isLE = true := by
  by_cases hlabel : isNumeral label = true
  · by_cases hlonger : isNumeral (label ++ more) = true
    · rw [ofChars, ofChars, if_pos hlabel, if_pos hlonger]
      exact Nat.isLE_compare.2 (digitsValue_le_append label more)
    · rw [ofChars, ofChars, if_pos hlabel, if_neg hlonger]
      rfl
  · -- what is no numeral does not become one
    have hlonger : ¬ isNumeral (label ++ more) = true := fun hlonger =>
      hlabel (isNumeral_iff.2 ⟨hne, fun c hc => (isNumeral_iff.1 hlonger).2 c (List.mem_append_left _ hc)⟩)
    have hascii : ∀ c ∈ label ++ more, c.toNat < 128 := fun c hc => Version.ascii_of_isLabelChar (h c hc)
    rw [ofChars, ofChars, if_neg hlabel, if_neg hlonger, lowerChars_of_ascii hascii, List.map_append,
      lowerChars_of_ascii fun c hc => hascii c (List.mem_append_left _ hc)]
    exact isLE_compareWords_append _ _

/-- The numeral zero comes before every other label. -/
theorem isLE_compare_zero (label : ReleaseLabel) : (compare (.numeral 0) label).isLE = true := by
  cases label with
  | numeral n => exact Nat.isLE_compare.2 (Nat.zero_le n)
  | word letters => rfl

/-- Lists are ordered by the label in which they differ first, and labels may follow it in the greater one. -/
theorem isLE_compareLists_append {a b : ReleaseLabel} (h : (compare a b).isLE = true) (init rest : List ReleaseLabel) :
    (compareLists (init ++ [a]) (init ++ b :: rest)).isLE = true := by
  induction init with
  | nil =>
    rw [List.nil_append, List.nil_append, compareLists]
    cases hab : compare a b with
    | lt => rfl
    | eq => cases rest <;> rfl
    | gt =>
      rw [hab] at h
      cases h
  | cons c init ih =>
    rw [List.cons_append, List.cons_append, compareLists, compare_eq_eq_iff.2 rfl]
    exact ih

end ReleaseLabel

namespace Version

open Text

/-! ## Numbers that go on -/

theorem isLE_compare_then {m n : Nat} {o : Ordering} (h : m ≤ n) (ho : o.isLE = true) :
    ((Ord.compare m n).then o).isLE = true := by
  rcases Nat.lt_or_eq_of_le h with hlt | rfl
  · rw [Nat.compare_eq_lt.2 hlt]
    rfl
  · rw [Nat.compare_eq_eq.2 rfl]
    exact ho

/-- A version with no smaller numbers comes later, as long as its labels do not come before. -/
theorem le_of_numbers_le {u v : Version} (hmajor : u.major ≤ v.major) (hminor : u.minor ≤ v.minor)
    (hpatch : u.patch ≤ v.patch) (hrevision : u.revision ≤ v.revision) (hlabels : (compareLabels u v).isLE = true) :
    u ≤ v :=
  le_iff.2 <| isLE_compare_then hmajor <| isLE_compare_then hminor <| isLE_compare_then hpatch <|
    isLE_compare_then hrevision hlabels

/-- No number of a text that goes on is smaller than it was. -/
theorem number_le_of_prefix {cs ds : List Char} {numerals numerals' : List (List Char)}
    (hcs : numerals? cs = some numerals) (hds : numerals? ds = some numerals') (h : cs <+: ds) (i : Nat) :
    ((numerals[i]?).map digitsValue).getD 0 ≤ ((numerals'[i]?).map digitsValue).getD 0 := by
  obtain ⟨rest, rfl⟩ := h
  obtain ⟨init, last, more, fields, hshort, hlong⟩ := splitWhere_append (· == '.') cs rest
  obtain rfl : numerals = init ++ [last] := (numerals?_eq_some_iff.1 hcs).1.symm.trans hshort
  obtain rfl : numerals' = init ++ (last ++ more) :: fields := (numerals?_eq_some_iff.1 hds).1.symm.trans hlong
  rcases Nat.lt_trichotomy i init.length with hlt | rfl | hgt
  · rw [List.getElem?_append_left hlt, List.getElem?_append_left hlt]
  · simpa using digitsValue_le_append last more
  · rw [List.getElem?_eq_none (by simp; omega)]
    exact Nat.zero_le _

/-! ## The parts of a text -/

/-- The labels with the points between them; nothing when no hyphen comes before the metadata. -/
def labelsPart? (cs : List Char) : Option (List Char) :=
  match cs.dropWhile (!endsNumbers ·) with
  | '-' :: rest => some (rest.takeWhile (!endsLabels ·))
  | _ => none

/-- The numbers and the labels of a version are read from their parts of the text. -/
theorem spelling?_parts {cs : List Char} {s : Spelling} (h : spelling? cs = some s) :
    numerals? (cs.takeWhile (!endsNumbers ·)) = some s.numerals ∧
      (labelsPart? cs).elim (some []) names? = some s.labels := by
  unfold spelling? at h
  obtain ⟨numerals, hnumerals, h⟩ := Option.bind_eq_some_iff.1 h
  -- labels follow a hyphen, and metadata alone follows anything else
  split at h
  · rename_i rest hrest
    obtain ⟨labels, hlabels, h⟩ := Option.bind_eq_some_iff.1 h
    obtain ⟨metadata, -, h⟩ := Option.bind_eq_some_iff.1 h
    obtain rfl := Option.some.inj h
    refine ⟨hnumerals, ?_⟩
    rw [labelsPart?, hrest]
    exact hlabels
  · rename_i hrest
    obtain ⟨metadata, -, h⟩ := Option.bind_eq_some_iff.1 h
    obtain rfl := Option.some.inj h
    refine ⟨hnumerals, ?_⟩
    unfold labelsPart?
    split
    · exact absurd ‹_› (hrest _)
    · rfl

/-- A text without a hyphen is a release. -/
theorem labels_eq_nil_of_notMem {cs : List Char} {s : Spelling} (h : spelling? cs = some s) (hcs : '-' ∉ cs) :
    s.labels = [] := by
  have hpart : labelsPart? cs = none := by
    unfold labelsPart?
    split
    · rename_i rest hrest
      have hhyphen : '-' ∈ cs.dropWhile (!endsNumbers ·) := hrest ▸ List.mem_cons_self
      exact absurd (mem_of_mem_dropWhile hhyphen) hcs
    · rfl
  have hlabels := (spelling?_parts h).2
  rw [hpart] at hlabels
  exact (Option.some.inj hlabels).symm

/-- After the first hyphen there are labels, unless the metadata has begun before it. -/
theorem labelsPart?_append_cons {core : List Char} (hcore : '-' ∉ core) (rest : List Char) :
    labelsPart? (core ++ '-' :: rest) = if '+' ∈ core then none else some (rest.takeWhile (!endsLabels ·)) := by
  have hhyphen : ∀ c ∈ core, c ≠ '-' := fun c hc h => hcore (h ▸ hc)
  -- a plus in the core hides the hyphen, as the metadata begins there
  split
  · rename_i hplus
    obtain ⟨front, back, rfl, hfront⟩ := List.eq_append_cons_of_mem hplus
    have hnumbers : ∀ c ∈ front, (!endsNumbers c) = true := fun c hc =>
      not_endsNumbers_of_ne (hhyphen c (List.mem_append_left _ hc)) fun h => hfront (h ▸ hc)
    have hdrop : (front ++ '+' :: back ++ '-' :: rest).dropWhile (!endsNumbers ·) = '+' :: (back ++ '-' :: rest) := by
      rw [List.append_assoc, List.dropWhile_append_of_pos hnumbers]
      rfl
    rw [labelsPart?, hdrop]
    rfl
  · rename_i hplus
    have hnumbers : ∀ c ∈ core, (!endsNumbers c) = true := fun c hc =>
      not_endsNumbers_of_ne (hhyphen c hc) fun h => hplus (h ▸ hc)
    have hdrop : (core ++ '-' :: rest).dropWhile (!endsNumbers ·) = '-' :: rest := by
      rw [List.dropWhile_append_of_pos hnumbers]
      rfl
    rw [labelsPart?, hdrop]
    rfl

/-- A part that is there has a name in it at least. -/
theorem names?_ne_nil {cs : List Char} {names : List (List Char)} (h : names? cs = some names) : names ≠ [] := by
  obtain ⟨rfl, -⟩ := names?_eq_some_iff.1 h
  exact splitWhere_ne_nil _ cs

/-- The labels of a text that goes on do not come before those of the text, and no labels come before a zero. -/
theorem isLE_compareLists_of_names? {cs ds : List Char} {names names' : List (List Char)}
    (hcs : names? cs = some names) (hds : names? ds = some names') (h : cs <+: ds ∨ cs = ['0']) :
    (ReleaseLabel.compareLists (names.map ReleaseLabel.ofChars) (names'.map ReleaseLabel.ofChars)).isLE = true := by
  obtain ⟨hsplit, hnames⟩ := names?_eq_some_iff.1 hcs
  obtain ⟨hsplit', hnames'⟩ := names?_eq_some_iff.1 hds
  rcases h with ⟨rest, rfl⟩ | rfl
  · obtain ⟨init, last, more, fields, hshort, hlong⟩ := splitWhere_append (· == '.') cs rest
    obtain rfl : names = init ++ [last] := hsplit.symm.trans hshort
    obtain rfl : names' = init ++ (last ++ more) :: fields := hsplit'.symm.trans hlong
    rw [List.map_append, List.map_append, List.map_cons]
    have hlast : last ≠ [] := (hnames last (by simp)).1
    exact ReleaseLabel.isLE_compareLists_append
      (ReleaseLabel.isLE_compare_append hlast (hnames' (last ++ more) (by simp)).2) _ _
  · obtain rfl : names = [['0']] := hsplit.symm
    cases names' with
    | nil => exact absurd rfl (names?_ne_nil hds)
    | cons name names' =>
      exact ReleaseLabel.isLE_compareLists_append (ReleaseLabel.isLE_compare_zero (.ofChars name)) [] _

/-! ## Versions whose texts go on -/

/-- Labels make no difference between releases. -/
theorem isLE_compareLabels_of_releases {s t : Spelling} (hs : s.labels = []) (ht : t.labels = []) :
    (compareLabels (ofSpelling s) (ofSpelling t)).isLE = true := by
  rw [compareLabels, ofSpelling, ofSpelling, hs, ht]
  rfl

theorem compareLabels_ofSpelling {s t : Spelling} (hs : s.labels ≠ []) (ht : t.labels ≠ []) :
    compareLabels (ofSpelling s) (ofSpelling t) =
      ReleaseLabel.compareLists (s.labels.map .ofChars) (t.labels.map .ofChars) := by
  have hsstage : (ofSpelling s).stage = 0 := by simp [stage, ofSpelling, hs]
  have htstage : (ofSpelling t).stage = 0 := by simp [stage, ofSpelling, ht]
  have hlabels : ∀ s : Spelling, (ofSpelling s).releaseLabels = s.labels.map .ofChars := fun s => by
    simp [releaseLabels, ofSpelling, Function.comp_def]
  rw [compareLabels_eq_then, hsstage, htstage, hlabels, hlabels]
  rfl

/-- A text whose numbers go on is no earlier version, as long as its labels do not come before. -/
theorem le_of_numbers_prefix {cs ds : List Char} {s t : Spelling} (hs : spelling? cs = some s)
    (ht : spelling? ds = some t) (h : cs.takeWhile (!endsNumbers ·) <+: ds.takeWhile (!endsNumbers ·))
    (hlabels : (compareLabels (ofSpelling s) (ofSpelling t)).isLE = true) : ofSpelling s ≤ ofSpelling t := by
  have hnumber := number_le_of_prefix (spelling?_parts hs).1 (spelling?_parts ht).1 h
  exact le_of_numbers_le (hnumber 0) (hnumber 1) (hnumber 2) (hnumber 3) hlabels

/-- A release whose text goes on from that of a release is no earlier version. -/
theorem le_of_prefix {cs ds : List Char} {s t : Spelling} (hs : spelling? cs = some s) (ht : spelling? ds = some t)
    (h : cs <+: ds) (hsrelease : s.labels = []) (htrelease : t.labels = []) : ofSpelling s ≤ ofSpelling t :=
  le_of_numbers_prefix hs ht (takeWhile_prefix_takeWhile h) (isLE_compareLabels_of_releases hsrelease htrelease)

/-- After the same numbers, labels that go on do not come before the labels, and no labels come before a zero. -/
theorem isLE_compareLabels_of_append {core as bs : List Char} {s t : Spelling} (hcore : '-' ∉ core)
    (hs : spelling? (core ++ '-' :: as) = some s) (ht : spelling? (core ++ '-' :: bs) = some t)
    (h : as <+: bs ∨ as = ['0']) : (compareLabels (ofSpelling s) (ofSpelling t)).isLE = true := by
  have hslabels := (spelling?_parts hs).2
  have htlabels := (spelling?_parts ht).2
  rw [labelsPart?_append_cons hcore] at hslabels htlabels
  split at hslabels
  · rename_i hplus
    -- both are releases, with a hyphen in their metadata
    rw [if_pos hplus] at htlabels
    have hsrelease : [] = s.labels := Option.some.inj hslabels
    have htrelease : [] = t.labels := Option.some.inj htlabels
    exact isLE_compareLabels_of_releases hsrelease.symm htrelease.symm
  · rename_i hplus
    rw [if_neg hplus] at htlabels
    rw [compareLabels_ofSpelling (names?_ne_nil hslabels) (names?_ne_nil htlabels)]
    refine isLE_compareLists_of_names? hslabels htlabels ?_
    rcases h with hprefix | rfl
    · exact .inl (takeWhile_prefix_takeWhile hprefix)
    · exact .inr rfl

/-- A text that goes on after the labels is no earlier version, and neither is one with any labels in the place of a
zero. -/
theorem le_of_append {core as bs : List Char} {s t : Spelling} (hcore : '-' ∉ core)
    (hs : spelling? (core ++ '-' :: as) = some s) (ht : spelling? (core ++ '-' :: bs) = some t)
    (h : as <+: bs ∨ as = ['0']) : ofSpelling s ≤ ofSpelling t := by
  refine le_of_numbers_prefix hs ht ?_ (isLE_compareLabels_of_append hcore hs ht h)
  -- the numbers have come to their end before the hyphen
  have hnumbers : ∀ rest, (core ++ '-' :: rest).takeWhile (!endsNumbers ·) =
      (core ++ ['-']).takeWhile (!endsNumbers ·) := by
    intro rest
    rw [← List.singleton_append, ← List.append_assoc]
    exact (takeWhile_append_of_mem (c := '-') (by simp) rfl rest).1
  have hsame := (hnumbers as).trans (hnumbers bs).symm
  exact hsame ▸ List.prefix_rfl

section Parse

variable {text longer : String} {u v : Version} (hu : parse text = .ok u) (hv : parse longer = .ok v)

include hu hv

/-- A release that is read from a text that goes on from that of a release is no earlier version. -/
theorem le_of_parse_of_prefix (h : text.toList <+: trimStart longer.toList) (hurelease : '-' ∉ text.toList)
    (hvrelease : v.isPrerelease = false) : u ≤ v := by
  obtain ⟨s, hs, -, rfl⟩ := parse_eq_ok hu
  obtain ⟨t, ht, -, rfl⟩ := parse_eq_ok hv
  have hprefix : trimChars text.toList <+: trimChars longer.toList := by
    rw [← trimChars_trimStart longer.toList]
    exact trimChars_prefix_trimChars h
  have hsrelease : s.labels = [] := labels_eq_nil_of_notMem hs fun hc => hurelease (mem_of_mem_trimChars hc)
  have htrelease : t.labels = [] := by simpa [isPrerelease, ofSpelling] using hvrelease
  exact le_of_prefix hs ht hprefix hsrelease htrelease

/-- A version that is read from a text with labels that go on, or with any labels in the place of a zero, is no
earlier version. -/
theorem le_of_parse_of_append {core as bs : List Char} (hcore : '-' ∉ core) (htext : text.toList = core ++ '-' :: as)
    (hlonger : trimStart longer.toList = core ++ '-' :: bs) (h : as <+: bs ∨ as = ['0']) : u ≤ v := by
  obtain ⟨s, hs, -, rfl⟩ := parse_eq_ok hu
  obtain ⟨t, ht, -, rfl⟩ := parse_eq_ok hv
  rw [htext, trimChars_append_cons rfl] at hs
  rw [← trimChars_trimStart, hlonger, trimChars_append_cons rfl] at ht
  have hcore' : '-' ∉ trimStart core := fun hc => hcore (mem_of_mem_dropWhile hc)
  refine le_of_append hcore' hs ht ?_
  rcases h with hprefix | rfl
  · exact .inl (dropEndWhile_prefix_dropEndWhile hprefix)
  · exact .inr rfl

end Parse

end Version
end PackageGraph
