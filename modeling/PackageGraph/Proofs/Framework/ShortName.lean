import PackageGraph.Framework.Parser
import PackageGraph.Proofs.Text.Blank
/-!
# Short names name frameworks

A framework that was read has an identifier, so its short name is not blank and can be read again.
-/
namespace PackageGraph.Moniker

open Text

/-! ## Texts that are not blank -/

/-- Two texts are blank together if each of them is. -/
theorem isBlankText_append (s t : String) : isBlankText (s ++ t) = (isBlankText s && isBlankText t) := by
  simp [isBlankText]

theorem not_isBlankText_append {s : String} (h : isBlankText s = false) (t : String) :
    isBlankText (s ++ t) = false := by
  rw [isBlankText_append, h, Bool.false_and]

/-- A name with a suffix is not blank if the name is not. -/
theorem not_isBlankText_withSuffix {name : String} (h : isBlankText name = false) (suffix : String) :
    isBlankText (withSuffix name suffix) = false := by
  unfold withSuffix
  split
  · exact h
  · exact not_isBlankText_append (not_isBlankText_append h _) _

theorem not_isBlankText_trimmed {cs : List Char} (h : trimChars cs ≠ []) :
    isBlankText (.ofList (trimChars cs)) = false := by
  rw [isBlankText, String.toList_ofList, ← Bool.not_eq_true, List.all_eq_true]
  intro hblank
  exact h (by rw [← trimChars_trimChars, trimChars_eq_nil_iff.2 hblank])

/-! ## Identifiers -/

/-- The moniker has an identifier. -/
def IsNamed (m : Moniker) : Prop := isBlankText m.identifier = false

/-- No identifier of the table is blank. -/
theorem not_isBlankText_of_identifierOf? {short identifier : String} (h : identifierOf? short = some identifier) :
    isBlankText identifier = false := by
  have hall : shortSpellings.all (fun s => !isBlankText s.2) = true := rfl
  obtain ⟨s, hs, rfl⟩ := Option.map_eq_some_iff.1 h
  simpa using List.all_eq_true.1 hall s (List.mem_of_find?_eq_some hs)

/-- No short spelling of the table is blank. -/
theorem not_isBlankText_of_shortOf? {identifier short : String} (h : shortOf? identifier = some short) :
    isBlankText short = false := by
  have hall : shortSpellings.all (fun s => !isBlankText s.1) = true := rfl
  obtain ⟨s, hs, rfl⟩ := Option.map_eq_some_iff.1 h
  simpa using List.all_eq_true.1 hall s (List.mem_of_find?_eq_some hs)

theorem isNamed_of_ofShortSpelling? {s : ShortSpelling} {m : Moniker} (h : ofShortSpelling? s = some m) :
    m.IsNamed := by
  unfold ofShortSpelling? at h
  obtain ⟨identifier, hidentifier, h⟩ := Option.bind_eq_some_iff.1 h
  obtain ⟨version, -, h⟩ := Option.bind_eq_some_iff.1 h
  split at h
  · obtain rfl := Option.some.inj h
    show isBlankText netCoreApp = false
    rfl
  · obtain rfl := Option.some.inj h
    exact not_isBlankText_of_identifierOf? hidentifier

/-- A short name that is read has an identifier. -/
theorem isNamed_parseShort {text : String} (h : trimChars text.toList ≠ []) : (parseShort text).IsNamed := by
  simp only [parseShort]
  split
  · show isBlankText netPortable = false
    rfl
  · cases hm : (shortSpelling? (lowerChars (trimChars text.toList))).bind ofShortSpelling? with
    | none => exact not_isBlankText_trimmed h
    | some m =>
      obtain ⟨s, -, hs⟩ := Option.bind_eq_some_iff.1 hm
      exact isNamed_of_ofShortSpelling? hs

/-- A full name that is read has an identifier. -/
theorem isNamed_parseFull {text : String} (h : trimChars text.toList ≠ []) : (parseFull text).IsNamed := by
  have hkept : (verbatim (trim text)).IsNamed := not_isBlankText_trimmed h
  unfold parseFull
  split
  · exact hkept
  · rename_i identifier parts hfields
    split
    · exact hkept
    · split
      · exact hkept
      · rename_i hidentifier
        have hmem : identifier ∈ (splitOn ',' text.toList).map trimChars := hfields ▸ List.mem_cons_self
        obtain ⟨field, -, rfl⟩ := List.mem_map.1 hmem
        exact not_isBlankText_trimmed (by simpa using hidentifier)

/-- A framework that was read has an identifier. -/
theorem isNamed_of_parse? {text : String} {m : Moniker} (h : parse? text = some m) : m.IsNamed := by
  unfold parse? at h
  split at h
  · cases h
  · rename_i c cs hcs
    -- both readers are given the trimmed text, which is not empty here
    have htrim : trimChars (String.ofList (c :: cs)).toList ≠ [] := by
      rw [String.toList_ofList, ← hcs, trimChars_trimChars, hcs]
      exact List.cons_ne_nil c cs
    split at h
    · exact Option.some.inj h ▸ isNamed_parseFull htrim
    · exact Option.some.inj h ▸ isNamed_parseShort htrim

/-! ## Short names -/

/-- A framework with an identifier has a short name. -/
theorem not_isBlankText_shortName {m : Moniker} (h : m.IsNamed) : isBlankText m.shortName = false := by
  unfold shortName
  split
  · exact not_isBlankText_withSuffix rfl _
  · split
    · exact h
    · split
      · exact not_isBlankText_withSuffix (not_isBlankText_append rfl _) _
      · split
        · unfold fullName
          split
          · exact h
          · exact not_isBlankText_append (not_isBlankText_append (not_isBlankText_append h _) _) _
        · rename_i short hshort
          have hname := not_isBlankText_of_shortOf? hshort
          exact not_isBlankText_withSuffix (not_isBlankText_append hname _) _

/-- Every text but a blank one names a framework. -/
theorem parse?_eq_none_iff {text : String} : parse? text = none ↔ isBlankText text = true := by
  rw [isBlankText, List.all_eq_true, ← trimChars_eq_nil_iff, parse?]
  cases trimChars text.toList with
  | nil => simp
  | cons c cs =>
    simp only [reduceCtorEq, iff_false]
    split <;> simp

/-- Exactly the texts that are not blank name a framework. -/
theorem exists_parse?_iff {text : String} : (∃ m, parse? text = some m) ↔ isBlankText text = false := by
  rw [← Option.isSome_iff_exists, ← Option.ne_none_iff_isSome, Ne, parse?_eq_none_iff, Bool.not_eq_true]

theorem exists_parse? {text : String} (h : isBlankText text = false) : ∃ m, parse? text = some m :=
  exists_parse?_iff.2 h

end PackageGraph.Moniker
