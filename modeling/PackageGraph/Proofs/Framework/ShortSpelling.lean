import PackageGraph.Proofs.Framework.Identity
import PackageGraph.Proofs.Framework.ShortVersion
import PackageGraph.Proofs.Text.SmallLetters
/-!
# Reading short names

A short name is letters, a version that begins with a digit, and a suffix after a hyphen or none. It names a framework
if the letters are a short spelling and the numbers of the version can be read, and so does every text that begins as
a portable profile does; nothing else is recognised. A short name that is put together from such parts is taken apart
at the same places.
-/
namespace PackageGraph.Moniker

open Text

/-! ## Taking short names apart -/

namespace ShortSpelling

/-- The text that the parts make up. -/
def text (s : ShortSpelling) : List Char := s.letters ++ (s.version ++ hyphenated (.ofList s.suffix))

/-- What may stand in each part. -/
structure WellFormed (s : ShortSpelling) : Prop where
  letters_ne_nil : s.letters ≠ []
  letters : ∀ c ∈ s.letters, isShortLetter c = true
  version_head : ∃ c cs, s.version = c :: cs ∧ c.isDigit = true
  version : ∀ c ∈ s.version, isVersionChar c = true
  suffix : '\n' ∉ s.suffix

end ShortSpelling

/-- A suffix is what follows a hyphen, on one line, or nothing. -/
theorem suffix?_eq_some_iff {cs suffix : List Char} :
    suffix? cs = some suffix ↔ '\n' ∉ suffix ∧ hyphenated (.ofList suffix) = cs := by
  constructor
  · intro h
    unfold suffix? at h
    split at h
    · obtain rfl := Option.some.inj h
      exact ⟨List.not_mem_nil, rfl⟩
    · split at h
      · cases h
      · rename_i hcs
        obtain rfl := Option.some.inj h
        obtain ⟨hne, hline⟩ : _ ≠ [] ∧ '\n' ∉ _ := by simpa using hcs
        exact ⟨hline, by simp [hyphenated, hne]⟩
    · cases h
  · rintro ⟨hline, rfl⟩
    cases suffix with
    | nil => rfl
    | cons c suffix =>
      simpa [hyphenated, suffix?] using hline

/-- The letters of a short name end before a digit. -/
theorem isShortLetter_eq_false_of_isDigit {c : Char} (h : c.isDigit = true) : isShortLetter c = false := by
  have hpoint : c ≠ '.' := by
    rintro rfl
    cases h
  simp [isShortLetter, Abbreviation.not_isAlpha_of_isDigit h, hpoint]

/-- The version of a short name ends before a hyphen. -/
theorem isVersionChar_eq_false_of_head?_hyphenated (suffix : String) :
    ∀ c ∈ (hyphenated suffix).head?, isVersionChar c = false := by
  intro c hc
  rw [eq_hyphen_of_head?_hyphenated suffix c hc]
  rfl

/-- A text is taken apart exactly if it is made up of parts, and into these. -/
theorem shortSpelling?_eq_some_iff {cs : List Char} {s : ShortSpelling} :
    shortSpelling? cs = some s ↔ s.WellFormed ∧ s.text = cs := by
  constructor
  · intro h
    simp only [shortSpelling?] at h
    split at h
    · cases h
    · rename_i hne
      obtain ⟨hletters, hversion⟩ : cs.takeWhile isShortLetter ≠ [] ∧
          (cs.dropWhile isShortLetter).takeWhile isVersionChar ≠ [] := by simpa using hne
      obtain ⟨suffix, hsuffix, rfl⟩ := Option.map_eq_some_iff.1 h
      obtain ⟨hline, htext⟩ := suffix?_eq_some_iff.1 hsuffix
      refine ⟨⟨hletters, fun _ => List.mem_takeWhile_imp, ?_, fun _ => List.mem_takeWhile_imp, hline⟩, ?_⟩
      · -- the version begins where the letters and points end, so not with a point
        obtain ⟨c, version, hcons⟩ := List.exists_cons_of_ne_nil hversion
        have hhead : (cs.dropWhile isShortLetter).head? = some c := by
          rw [← List.takeWhile_append_dropWhile (p := isVersionChar) (l := cs.dropWhile isShortLetter), hcons]
          rfl
        have hletter : isShortLetter c = false := by
          have hnot := List.head?_dropWhile_not isShortLetter cs
          rw [hhead] at hnot
          simpa using hnot
        have hchar : isVersionChar c = true := List.mem_takeWhile_imp (hcons ▸ List.mem_cons_self)
        refine ⟨c, version, hcons, ?_⟩
        have hpoint : c ≠ '.' := by
          rintro rfl
          cases hletter
        simpa [isVersionChar, hpoint] using hchar
      · rw [ShortSpelling.text, htext, List.takeWhile_append_dropWhile, List.takeWhile_append_dropWhile]
  · rintro ⟨hs, rfl⟩
    -- letters, version and suffix are cut off where they were put together
    obtain ⟨c, version, hversion, hdigit⟩ := hs.version_head
    have hrest : ∀ d ∈ (s.version ++ hyphenated (.ofList s.suffix)).head?, isShortLetter d = false := by
      intro d hd
      rw [hversion] at hd
      obtain rfl : c = d := Option.some.inj hd
      exact isShortLetter_eq_false_of_isDigit hdigit
    have hhyphen := isVersionChar_eq_false_of_head?_hyphenated (.ofList s.suffix)
    have hne : ¬ (s.letters.isEmpty || s.version.isEmpty) = true := by simp [hs.letters_ne_nil, hversion]
    simp only [shortSpelling?, ShortSpelling.text, takeWhile_run hs.letters hrest, dropWhile_run hs.letters hrest,
      takeWhile_run hs.version hhyphen, dropWhile_run hs.version hhyphen]
    rw [if_neg hne, suffix?_eq_some_iff.2 ⟨hs.suffix, rfl⟩]
    rfl

/-- The version of a short name stands where a portable profile has its hyphen. -/
theorem ShortSpelling.WellFormed.not_portable {s : ShortSpelling} (hs : s.WellFormed) : ¬ portableMark <+: s.text := by
  rintro ⟨rest, hrest⟩
  have hmark : portableMark = "portable".toList ++ ['-'] := by decide
  have hletters : "portable".toList.all isShortLetter = true := by decide
  obtain ⟨c, version, hversion, hdigit⟩ := hs.version_head
  rw [hmark, ShortSpelling.text, List.append_assoc, hversion] at hrest
  obtain ⟨-, htail⟩ := run_append_inj (List.all_eq_true.1 hletters) hs.letters
    (by simp [isShortLetter]) (by simpa using isShortLetter_eq_false_of_isDigit hdigit) hrest
  obtain rfl : '-' = c := (List.cons.inj htail).1
  cases hdigit

/-! ## What short names name -/

/-- The letters are a short spelling, and every number of the version is short enough to be read. -/
structure ShortSpelling.IsKnown (s : ShortSpelling) : Prop where
  letters : ∃ identifier, (String.ofList s.letters, identifier) ∈ shortSpellings
  numbers : '.' ∈ s.version → ∀ p ∈ splitOn '.' s.version, p.length ≤ digitLimit

/-- The text in lower case names a framework. -/
def IsRecognized (cs : List Char) : Prop :=
  portableMark <+: cs ∨ ∃ s : ShortSpelling, s.WellFormed ∧ s.IsKnown ∧ s.text = cs

/-- An identifier is found beside its short spelling. -/
theorem mem_shortSpellings_of_identifierOf? {short identifier : String} (h : identifierOf? short = some identifier) :
    (short, identifier) ∈ shortSpellings := by
  obtain ⟨⟨s, full⟩, hs, rfl⟩ := Option.map_eq_some_iff.1 h
  obtain rfl : s = short := by simpa using List.find?_some hs
  exact List.mem_of_find?_eq_some hs

/-- Short spellings and identifiers stand for each other. -/
theorem identifierOf?_shortOf?_of_mem {short identifier : String} (h : (short, identifier) ∈ shortSpellings) :
    identifierOf? short = some identifier ∧ shortOf? identifier = some short := by
  have hall : ∀ s ∈ shortSpellings, identifierOf? s.1 = some s.2 ∧ shortOf? s.2 = some s.1 := by decide
  exact hall _ h

/-- The framework that an identifier, a version and a suffix name. -/
def ofParts (identifier : String) (version : List Int) (suffix : String) : Moniker :=
  if identifier = netFramework ∧ 5 ≤ version.headD 0 then ⟨netCoreApp, version, "", suffix⟩
  else ⟨identifier, version, suffix, ""⟩

/-- The version is kept, whatever the identifier becomes. -/
theorem version_ofParts (identifier : String) (version : List Int) (suffix : String) :
    (ofParts identifier version suffix).version = version := by
  unfold ofParts
  split <;> rfl

/-- A short name is read by its letters, which stand in the table, its version and its suffix. -/
theorem ofShortSpelling?_eq_some_iff {s : ShortSpelling} {m : Moniker} : ofShortSpelling? s = some m ↔
    ∃ identifier version, (String.ofList s.letters, identifier) ∈ shortSpellings ∧
      shortVersion? s.version = some version ∧ ofParts identifier version (.ofList s.suffix) = m := by
  simp only [ofShortSpelling?, Option.bind_eq_bind, Option.bind_eq_some_iff, Option.pure_def]
  constructor
  · rintro ⟨identifier, hidentifier, version, hversion, h⟩
    refine ⟨identifier, version, mem_shortSpellings_of_identifierOf? hidentifier, hversion, ?_⟩
    split at h
    · rename_i hmodern
      exact (if_pos hmodern).trans (Option.some.inj h)
    · rename_i hmodern
      exact (if_neg hmodern).trans (Option.some.inj h)
  · rintro ⟨identifier, version, hidentifier, hversion, rfl⟩
    refine ⟨identifier, (identifierOf?_shortOf?_of_mem hidentifier).1, version, hversion, ?_⟩
    unfold ofParts
    split <;> rfl

/-- It is read exactly if it is known. -/
theorem exists_ofShortSpelling?_iff {s : ShortSpelling} (hs : s.WellFormed) :
    (∃ m, ofShortSpelling? s = some m) ↔ s.IsKnown := by
  have hversion := exists_shortVersion?_iff hs.version
  constructor
  · rintro ⟨m, hm⟩
    obtain ⟨identifier, version, hidentifier, hread, -⟩ := ofShortSpelling?_eq_some_iff.1 hm
    exact ⟨⟨identifier, hidentifier⟩, hversion.1 ⟨version, hread⟩⟩
  · rintro ⟨⟨identifier, hidentifier⟩, hnumbers⟩
    obtain ⟨version, hread⟩ := hversion.2 hnumbers
    exact ⟨_, ofShortSpelling?_eq_some_iff.2 ⟨identifier, version, hidentifier, hread, rfl⟩⟩

/-- A text is a portable profile, a short name of a framework, or not recognised and kept. -/
theorem parseShort_cases (text : String) :
    (portableMark <+: lowerChars (trimChars text.toList) ∧
      parseShort text = ⟨netPortable, [], .ofList ((trimChars text.toList).drop portableMark.length), ""⟩) ∨
    (∃ s : ShortSpelling, s.WellFormed ∧ s.text = lowerChars (trimChars text.toList) ∧
      ofShortSpelling? s = some (parseShort text)) ∨
    (¬ IsRecognized (lowerChars (trimChars text.toList)) ∧ parseShort text = verbatim (trim text)) := by
  unfold parseShort
  by_cases hportable : portableMark.isPrefixOf (lowerChars (trimChars text.toList)) = true
  · exact .inl ⟨List.isPrefixOf_iff_prefix.1 hportable, if_pos hportable⟩
  -- of the other texts those are read that are taken apart and known
  · simp only [if_neg hportable]
    right
    cases hm : (shortSpelling? (lowerChars (trimChars text.toList))).bind ofShortSpelling? with
    | some m =>
      obtain ⟨s, hs, hm⟩ := Option.bind_eq_some_iff.1 hm
      obtain ⟨hs, htext⟩ := shortSpelling?_eq_some_iff.1 hs
      exact .inl ⟨s, hs, htext, hm⟩
    | none =>
      refine .inr ⟨?_, rfl⟩
      rintro (hbegins | ⟨s, hs, hknown, htext⟩)
      · exact hportable (List.isPrefixOf_iff_prefix.2 hbegins)
      · obtain ⟨m, hread⟩ := (exists_ofShortSpelling?_iff hs).2 hknown
        rw [shortSpelling?_eq_some_iff.2 ⟨hs, htext⟩, Option.bind_some, hread] at hm
        cases hm

/-- A text in lower case that is put together from parts is read from these. -/
theorem parseShort_text {s : ShortSpelling} (hs : s.WellFormed) (hsmall : ∀ c ∈ s.text, IsSmall c)
    (htrim : trimChars s.text = s.text) :
    parseShort (.ofList s.text) = (ofShortSpelling? s).getD (verbatim (.ofList s.text)) := by
  have hportable : ¬ portableMark.isPrefixOf s.text = true := fun h => hs.not_portable (List.isPrefixOf_iff_prefix.1 h)
  simp only [parseShort, String.toList_ofList, htrim, lowerChars_eq_self hsmall]
  rw [if_neg hportable, shortSpelling?_eq_some_iff.2 ⟨hs, rfl⟩, Option.bind_some]

end PackageGraph.Moniker
