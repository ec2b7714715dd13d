import PackageGraph.Proofs.Framework.ShortName
import PackageGraph.Proofs.Framework.ShortSpelling
/-!
# Short names that are put together

The letters, the version and the suffix of a framework that was read from a short name make up a text in lower case
without white space around it. Unless the suffix has a comma this text is read as a short name, from the same parts.
With a comma it is read as a full name, and the digits of the version stand in the identifier.
-/
namespace PackageGraph.Moniker

open Text

/-! ## Which reader a name is given to -/

/-- A text without a comma that does not begin with a point is read as a short name. -/
theorem parse?_eq_parseShort {text : String} (hblank : isBlankText text = false) (hcomma : ',' ∉ text.toList)
    (hpoint : ∀ c ∈ (trimChars text.toList).head?, c ≠ '.') : parse? text = some (parseShort text) := by
  have hne : trimChars text.toList ≠ [] := by
    intro hnil
    rw [isBlankText, ← Bool.not_eq_true, List.all_eq_true, ← trimChars_eq_nil_iff] at hblank
    exact hblank hnil
  obtain ⟨c, cs, hcs⟩ := List.exists_cons_of_ne_nil hne
  have htrim : trimChars (c :: cs) = c :: cs := by rw [← hcs, trimChars_trimChars]
  have hfull : ¬ (c = '.' || (c :: cs).contains ',') = true := by
    have hc : c ≠ '.' := hpoint c (by rw [hcs]; rfl)
    have hcomma : ',' ∉ c :: cs := fun hmem => hcomma (mem_of_mem_trimChars (hcs ▸ hmem))
    rw [Bool.or_eq_true, decide_eq_true_eq, List.contains_iff_mem]
    exact not_or.2 ⟨hc, hcomma⟩
  have hsame : parseShort (.ofList (c :: cs)) = parseShort text := by
    unfold parseShort
    simp only [String.toList_ofList, htrim, hcs]
  unfold parse?
  rw [hcs]
  simp only [if_neg hfull, hsame]

/-- A text with a comma is read as a full name. -/
theorem parse?_eq_parseFull {text : String} (hcomma : ',' ∈ text.toList) :
    parse? text = some (parseFull (trim text)) := by
  have hmem : ',' ∈ trimChars text.toList := mem_trimChars hcomma (by decide)
  obtain ⟨c, cs, hcs⟩ := List.exists_cons_of_ne_nil (List.ne_nil_of_mem hmem)
  have hfull : (c = '.' || (c :: cs).contains ',') = true :=
    Bool.or_eq_true_iff.2 (.inr (List.contains_iff_mem.2 (hcs ▸ hmem)))
  unfold parse?
  rw [trim, hcs]
  simp only [if_pos hfull]

/-- The identifier of a full name has every character before the first comma but white space. -/
theorem mem_identifier_parseFull {before rest : List Char} (hbefore : ',' ∉ before) {c : Char} (hc : c ∈ before)
    (hblank : isBlank c = false) : c ∈ (parseFull (.ofList (before ++ ',' :: rest))).identifier.toList := by
  have hkept : c ∈ (verbatim (trim (.ofList (before ++ ',' :: rest)))).identifier.toList := by
    rw [verbatim, trim, String.toList_ofList, String.toList_ofList]
    exact mem_trimChars (List.mem_append_left _ hc) hblank
  unfold parseFull
  rw [String.toList_ofList, splitOn_append_cons hbefore, List.map_cons]
  simp only
  split
  · exact hkept
  · split
    · exact hkept
    · rw [String.toList_ofList]
      exact mem_trimChars hc hblank

/-! ## Names that are put together -/

/-- What holds of every suffix that was read. -/
structure IsReadSuffix (suffix : String) : Prop where
  small : ∀ c ∈ suffix.toList, IsSmall c
  oneLine : '\n' ∉ suffix.toList
  last : ∀ c ∈ suffix.toList.getLast?, isBlank c = false

/-- A suffix that was read is in lower case. -/
theorem IsReadSuffix.lower_eq {suffix : String} (h : IsReadSuffix suffix) : lower suffix = suffix := by
  rw [lower, lowerChars_eq_self h.small, String.ofList_toList]

theorem getLast?_append_hyphenated (cs : List Char) {suffix : String} (h : suffix ≠ "") :
    (cs ++ hyphenated suffix).getLast? = suffix.toList.getLast? := by
  have hne : suffix.toList ≠ [] := by simpa using h
  have hempty : suffix.isEmpty = false := by simpa using h
  rw [hyphenated, hempty, if_neg Bool.false_ne_true, List.getLast?_append_of_ne_nil _ (List.cons_ne_nil _ _),
    ← List.singleton_append, List.getLast?_append_of_ne_nil _ hne]

/-- The characters of a version stand between the hyphen and the letters of ASCII. -/
theorem toNat_of_isVersionChar {c : Char} (h : isVersionChar c = true) : 46 ≤ c.toNat ∧ c.toNat ≤ 57 := by
  rcases Bool.or_eq_true_iff.1 h with hdigit | hpoint
  · have hlow : 48 ≤ c.toNat := (Char.isDigit_iff_toNat.1 hdigit).1
    have hhigh : c.toNat ≤ 57 := (Char.isDigit_iff_toNat.1 hdigit).2
    omega
  · rw [of_decide_eq_true hpoint]
    decide

namespace Abbreviation

/-- What holds of the abbreviation of every framework that was read from a short name. -/
structure IsRead (a : Abbreviation) : Prop where
  short : ∃ identifier, (a.short, identifier) ∈ shortSpellings
  version : IsShortVersion a.version
  suffix : IsReadSuffix a.suffix

/-- The parts that the short name is put together from. -/
def spelling (a : Abbreviation) : ShortSpelling := ⟨a.short.toList, a.versionText.toList, a.suffix.toList⟩

/-- The spelling of an abbreviation has its text. -/
theorem text_spelling (a : Abbreviation) : a.spelling.text = a.text.toList := by
  rw [toList_text, spelling, ShortSpelling.text, String.ofList_toList]

variable {a : Abbreviation}

/-- An abbreviation that was read is well formed if there is no comma in its suffix. -/
theorem IsRead.wellFormed (ha : a.IsRead) (hcomma : ',' ∉ a.suffix.toList) : a.WellFormed where
  short := ha.short
  version := by
    obtain ⟨n, k, v, hv⟩ := ha.version.exists_cons_cons
    simp [hv]
  suffix := hcomma

/-- A component is written in digits. -/
theorem isDigit_of_mem_intText {n : Int} (hn : IsComponent n) {c : Char} (hc : c ∈ (intText n).toList) :
    c.isDigit = true := by
  obtain ⟨k, rfl, -⟩ := hn
  have hnat : ¬ (k : Int) < 0 := by omega
  rw [toList_intText, if_neg hnat, List.nil_append] at hc
  exact isDigit_of_mem_toDigits hc

/-- The version is written in digits and points. -/
theorem IsRead.isVersionChar_of_mem (ha : a.IsRead) : ∀ c ∈ a.versionText.toList, isVersionChar c = true := by
  intro c hc
  unfold versionText at hc
  split at hc
  · rw [pointedVersion, toList_join] at hc
    rcases mem_intercalate hc with rfl | ⟨cs, hcs, hc⟩
    · rfl
    · simp only [List.map_map, List.mem_map, Function.comp_apply] at hcs
      obtain ⟨n, hn, rfl⟩ := hcs
      rw [isVersionChar, isDigit_of_mem_intText (ha.version.components n hn) hc, Bool.true_or]
  · have hnat : ∀ n ∈ a.version, 0 ≤ n := by
      intro n hn
      obtain ⟨k, rfl, -⟩ := ha.version.components n hn
      exact Int.natCast_nonneg k
    rw [isVersionChar, isDigit_of_mem_joinedVersion hnat hc, Bool.true_or]

/-- The version begins with a digit. -/
theorem IsRead.versionText_head (ha : a.IsRead) : ∃ c cs, a.versionText.toList = c :: cs ∧ c.isDigit = true := by
  obtain ⟨n, k, v, hv⟩ := ha.version.exists_cons_cons
  have hn : IsComponent n := ha.version.components n (hv ▸ List.mem_cons_self)
  -- whether or not there are points, the first component is written first
  have hrest : ∃ rest, a.versionText.toList = (intText n).toList ++ rest := by
    unfold versionText
    rw [hv]
    split
    · exact ⟨_, toList_pointedVersion_cons_cons n k v⟩
    · exact ⟨_, toList_joinedVersion_cons n (k :: v)⟩
  obtain ⟨rest, hrest⟩ := hrest
  cases htext : (intText n).toList with
  | nil =>
    obtain ⟨m, rfl, -⟩ := hn
    simp [toList_intText] at htext
  | cons c cs =>
    refine ⟨c, cs ++ rest, by rw [hrest, htext, List.cons_append], ?_⟩
    exact isDigit_of_mem_intText hn (htext ▸ List.mem_cons_self)

/-- The letters of a short spelling. -/
theorem IsRead.letter_of_mem (ha : a.IsRead) :
    ∀ c ∈ a.short.toList, c.isAlpha = true ∧ IsSmall c ∧ isBlank c = false := by
  have hall : shortSpellings.all (fun s => s.1.toList.all fun c => c.isAlpha && lowerChar c == [c] && !isBlank c) =
      true := by decide
  obtain ⟨identifier, hshort⟩ := ha.short
  intro c hc
  have hletter := List.all_eq_true.1 (List.all_eq_true.1 hall _ hshort) c hc
  simp only [Bool.and_eq_true, beq_iff_eq, Bool.not_eq_true'] at hletter
  exact ⟨hletter.1.1, hletter.1.2, hletter.2⟩

/-- The letters are not empty. -/
theorem IsRead.short_head (ha : a.IsRead) : ∃ c cs, a.short.toList = c :: cs := by
  have hall : ∀ s ∈ shortSpellings, s.1.toList ≠ [] := by decide
  obtain ⟨identifier, hshort⟩ := ha.short
  exact List.exists_cons_of_ne_nil (hall _ hshort)

/-- The spelling of an abbreviation that was read is well formed. -/
theorem IsRead.wellFormed_spelling (ha : a.IsRead) : a.spelling.WellFormed where
  letters_ne_nil := by
    obtain ⟨c, cs, hcs⟩ := ha.short_head
    rw [spelling, hcs]
    exact List.cons_ne_nil c cs
  letters c hc := by rw [isShortLetter, (ha.letter_of_mem c hc).1, Bool.true_or]
  version_head := ha.versionText_head
  version := ha.isVersionChar_of_mem
  suffix := ha.suffix.oneLine

/-- There are no capitals in an abbreviation that was read. -/
theorem IsRead.isSmall_of_mem (ha : a.IsRead) : ∀ c ∈ a.text.toList, IsSmall c := by
  intro c hc
  rw [toList_text, List.mem_append, List.mem_append] at hc
  rcases hc with hc | hc | hc
  · exact (ha.letter_of_mem c hc).2.1
  · obtain ⟨hlow, hhigh⟩ := toNat_of_isVersionChar (ha.isVersionChar_of_mem c hc)
    exact isSmall_of_isMark ⟨by omega, by omega⟩
  · rcases mem_hyphenated hc with rfl | hc
    · exact isSmall_of_isMark ⟨by decide, by decide⟩
    · exact ha.suffix.small c hc

/-- The short name neither begins nor ends with white space. -/
theorem IsRead.trimChars_text (ha : a.IsRead) : trimChars a.text.toList = a.text.toList := by
  refine trimChars_eq_self (fun c hc => ?_) fun c hc => ?_
  · obtain ⟨d, ds, hshort⟩ := ha.short_head
    rw [toList_text, hshort] at hc
    obtain rfl : d = c := Option.some.inj hc
    exact (ha.letter_of_mem d (hshort ▸ List.mem_cons_self)).2.2
  -- the last character is one of the suffix, or else of the version
  · obtain ⟨d, ds, hversion, -⟩ := ha.versionText_head
    rw [toList_text, ← List.append_assoc] at hc
    by_cases hsuffix : a.suffix = ""
    · have hnone : hyphenated a.suffix = [] := by rw [hsuffix]; rfl
      have hne : a.versionText.toList ≠ [] := by simp [hversion]
      rw [hnone, List.append_nil, List.getLast?_append_of_ne_nil _ hne] at hc
      obtain ⟨hlow, hhigh⟩ := toNat_of_isVersionChar (ha.isVersionChar_of_mem c (List.mem_of_getLast? hc))
      exact not_isBlank_of_visible (by omega) (by omega)
    · rw [getLast?_append_hyphenated _ hsuffix] at hc
      exact ha.suffix.last c hc

/-- A short name without a comma is read from its parts. -/
theorem IsRead.parse?_text (ha : a.IsRead) (hcomma : ',' ∉ a.suffix.toList) :
    parse? a.text = some ((ofShortSpelling? a.spelling).getD (verbatim a.text)) := by
  obtain ⟨c, cs, hshort⟩ := ha.short_head
  have hletter := ha.letter_of_mem c (hshort ▸ List.mem_cons_self)
  have hhead : a.text.toList.head? = some c := by rw [toList_text, hshort]; rfl
  have hblank : isBlankText a.text = false := by
    rw [isBlankText, ← Bool.not_eq_true, List.all_eq_true]
    intro hall
    rw [hall c (List.mem_of_head? hhead)] at hletter
    cases hletter.2.2
  have hpoint : ∀ d ∈ (trimChars a.text.toList).head?, d ≠ '.' := by
    rw [ha.trimChars_text, hhead]
    rintro d hd rfl
    obtain rfl : c = '.' := Option.some.inj hd
    cases hletter.1
  have hread := parseShort_text ha.wellFormed_spelling
  rw [text_spelling, String.ofList_toList] at hread
  rw [parse?_eq_parseShort hblank (ha.wellFormed hcomma).comma_notMem_text hpoint,
    hread ha.isSmall_of_mem ha.trimChars_text]

/-- A short name without a comma names the framework if its parts do. -/
theorem IsRead.parse?_text_eq_iff (ha : a.IsRead) (hcomma : ',' ∉ a.suffix.toList) {m : Moniker} (hm : m.version ≠ []) :
    parse? a.text = some m ↔ ∃ identifier, (a.short, identifier) ∈ shortSpellings ∧
      shortVersion? a.versionText.toList = some m.version ∧ ofParts identifier m.version a.suffix = m := by
  have hparts : ofShortSpelling? a.spelling = some m ↔ ∃ identifier, (a.short, identifier) ∈ shortSpellings ∧
      shortVersion? a.versionText.toList = some m.version ∧ ofParts identifier m.version a.suffix = m := by
    rw [ofShortSpelling?_eq_some_iff]
    simp only [spelling, String.ofList_toList]
    constructor
    · rintro ⟨identifier, version, hidentifier, hversion, rfl⟩
      refine ⟨identifier, hidentifier, ?_, ?_⟩ <;> rw [version_ofParts]
      exact hversion
    · rintro ⟨identifier, hidentifier, hversion, hm⟩
      exact ⟨identifier, m.version, hidentifier, hversion, hm⟩
  rw [ha.parse?_text hcomma, ← hparts]
  constructor
  · intro h
    cases hread : ofShortSpelling? a.spelling with
    | some f =>
      rw [hread] at h
      exact h
    | none =>
      -- a name that is kept has no version
      rw [hread] at h
      obtain rfl : verbatim a.text = m := Option.some.inj h
      exact absurd rfl hm
  · intro h
    rw [h, Option.getD_some]

/-- A short name with a comma is read as a full name, whose identifier has a digit. -/
theorem IsRead.exists_digit_of_comma (ha : a.IsRead) (hcomma : ',' ∈ a.suffix.toList) :
    ∃ m, parse? a.text = some m ∧ ∃ c ∈ m.identifier.toList, c.isDigit = true := by
  obtain ⟨before, rest, hsuffix, hbefore⟩ := List.eq_append_cons_of_mem hcomma
  obtain ⟨d, ds, hversion, hdigit⟩ := ha.versionText_head
  have hne : a.suffix ≠ "" := by
    rintro hnil
    rw [hnil] at hcomma
    cases hcomma
  have hempty : a.suffix.isEmpty = false := by simpa using hne
  have htext : a.text.toList =
      (a.short.toList ++ (a.versionText.toList ++ '-' :: before)) ++ ',' :: rest := by
    rw [toList_text, hyphenated, hempty, if_neg Bool.false_ne_true, hsuffix]
    simp
  -- neither the letters nor the version have a comma in them
  have hfirst : ',' ∉ a.short.toList ++ (a.versionText.toList ++ '-' :: before) := by
    rw [List.mem_append, List.mem_append, List.mem_cons]
    rintro (hc | hc | hc | hc)
    · cases (ha.letter_of_mem ',' hc).1
    · cases ha.isVersionChar_of_mem ',' hc
    · cases hc
    · exact hbefore hc
  have hmem : d ∈ a.short.toList ++ (a.versionText.toList ++ '-' :: before) := by simp [hversion]
  have hin : ',' ∈ a.text.toList := by simp [htext]
  have htrim : trim a.text = .ofList (a.short.toList ++ (a.versionText.toList ++ '-' :: before) ++ ',' :: rest) := by
    rw [trim, ha.trimChars_text, htext]
  refine ⟨_, parse?_eq_parseFull hin, d, ?_, hdigit⟩
  obtain ⟨hlow, hhigh⟩ := toNat_of_isVersionChar (ha.isVersionChar_of_mem d (by simp [hversion]))
  rw [htrim]
  exact mem_identifier_parseFull hfirst hmem (not_isBlank_of_visible (by omega) (by omega))

end Abbreviation

end PackageGraph.Moniker
