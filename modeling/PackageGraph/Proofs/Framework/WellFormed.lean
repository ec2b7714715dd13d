import PackageGraph.Framework.Parser
import PackageGraph.Proofs.Text.Blank
import PackageGraph.Proofs.Text.LowerCase
import PackageGraph.Proofs.Text.Split
/-!
# What is read of a framework

A framework that was read has a version of two components or more, or none at all. A comma divides full names, so none
stands in the identifier of a framework with a version, in a profile or in a platform, and only the modern framework
has a platform.
-/
namespace PackageGraph

open Text

namespace Moniker

/-- A comma is a mark, which letter case leaves alone. -/
theorem isMark_comma : IsMark ',' := by
  unfold IsMark
  decide

/-! ## Versions -/

/-- A normal version has two components at least. -/
theorem two_le_length_normalizeVersion (components : List Int) : 2 ≤ (normalizeVersion components).length := by
  simp only [normalizeVersion, List.length_append, List.length_take, List.length_replicate]
  omega

theorem two_le_length_of_shortVersion? {cs : List Char} {version : List Int} (h : shortVersion? cs = some version) :
    2 ≤ version.length := by
  unfold shortVersion? at h
  split at h
  · obtain ⟨components, -, rfl⟩ := Option.map_eq_some_iff.1 h
    exact two_le_length_normalizeVersion components
  · split at h
    · obtain rfl := Option.some.inj h
      exact two_le_length_normalizeVersion _
    · obtain rfl := Option.some.inj h
      exact two_le_length_normalizeVersion _

theorem two_le_length_of_fullVersion? {cs : List Char} {version : List Int} (h : fullVersion? cs = some version) :
    2 ≤ version.length := by
  obtain ⟨components, -, rfl⟩ := Option.map_eq_some_iff.1 h
  exact two_le_length_normalizeVersion components

/-! ## Both spellings -/

/-- What holds of every framework that was read. -/
structure WellFormed (m : Moniker) : Prop where
  version : m.version = [] ∨ 2 ≤ m.version.length
  identifier : m.version ≠ [] → ',' ∉ m.identifier.toList
  profile : ',' ∉ m.profile.toList
  platform : ',' ∉ m.platform.toList
  platform_eq : m.isModern = false → m.platform = ""

/-- A text that is kept as it is written is well formed. -/
theorem wellFormed_verbatim (text : String) : (verbatim text).WellFormed where
  version := .inl rfl
  identifier hversion := absurd rfl hversion
  profile := List.not_mem_nil
  platform := List.not_mem_nil
  platform_eq _ := rfl

/-- A version and a profile that the parts of a full name may give. -/
structure WellFormedParts (state : List Int × String) : Prop where
  version : state.1 = [] ∨ 2 ≤ state.1.length
  profile : ',' ∉ state.2.toList

/-- Every part of a full name keeps a version and a profile well-formed, when no name of a profile has a comma. -/
theorem WellFormedParts.readParts? {parts : List FullPart} {state final : List Int × String}
    (hstate : WellFormedParts state) (hparts : ∀ name, .profile name ∈ parts → ',' ∉ name)
    (h : Moniker.readParts? parts state = some final) : WellFormedParts final := by
  induction parts generalizing state with
  | nil =>
    obtain rfl := Option.some.inj h
    exact hstate
  | cons part parts ih =>
    have hrest : ∀ name, .profile name ∈ parts → ',' ∉ name :=
      fun name hname => hparts name (List.mem_cons_of_mem _ hname)
    cases part with
    | version digits =>
      obtain ⟨version, hversion, h⟩ := Option.bind_eq_some_iff.1 h
      have hnext : WellFormedParts (version, state.2) :=
        ⟨.inr (two_le_length_of_fullVersion? hversion), hstate.profile⟩
      exact ih hnext hrest h
    | profile name =>
      have hname : ',' ∉ (String.ofList name).toList := by
        rw [String.toList_ofList]
        exact hparts name List.mem_cons_self
      have hnext : WellFormedParts (state.1, .ofList name) := ⟨hstate.version, hname⟩
      exact ih hnext hrest h
    | other => exact ih hstate hrest h

/-- The name of a profile stands in the part that gives it. -/
theorem mem_of_ofChars_eq_profile {cs name : List Char} (h : FullPart.ofChars cs = .profile name) {c : Char}
    (hc : c ∈ name) : c ∈ cs := by
  simp only [FullPart.ofChars] at h
  split at h
  · cases h
  · split at h
    · obtain rfl := FullPart.profile.inj h
      exact mem_of_mem_cut (mem_of_mem_trimChars hc)
    · cases h

/-- A full name is read as a well-formed framework, since it is divided at its commas. -/
theorem wellFormed_parseFull (text : String) : (parseFull text).WellFormed := by
  unfold parseFull
  split
  · exact wellFormed_verbatim _
  · rename_i identifier parts hfields
    have hcomma : ∀ field ∈ identifier :: parts, ',' ∉ field := by
      intro field hfield hc
      rw [← hfields, List.mem_map] at hfield
      obtain ⟨raw, hraw, rfl⟩ := hfield
      exact notMem_of_mem_splitOn hraw (mem_of_mem_trimChars hc)
    split
    · exact wellFormed_verbatim _
    · rename_i version profile hparts
      split
      · exact wellFormed_verbatim _
      · have hstart : WellFormedParts ([], "") := ⟨.inl rfl, List.not_mem_nil⟩
        -- the parts have no commas in them, and so the profile has none
        have hread : WellFormedParts (version, profile) := by
          refine hstart.readParts? (fun name hname hc => ?_) hparts
          obtain ⟨part, hpart, hprofile⟩ := List.mem_map.1 hname
          exact hcomma part (List.mem_cons_of_mem _ hpart) (mem_of_ofChars_eq_profile hprofile hc)
        exact
          { version := hread.version
            identifier := fun _ => by
              rw [String.toList_ofList]
              exact hcomma identifier List.mem_cons_self
            profile := hread.profile
            platform := List.not_mem_nil
            platform_eq := fun _ => rfl }

/-- There is no comma in an identifier of the table. -/
theorem comma_notMem_of_identifierOf? {short identifier : String} (h : identifierOf? short = some identifier) :
    ',' ∉ identifier.toList := by
  have hall : shortSpellings.all (fun s => !s.2.toList.contains ',') = true := by decide
  obtain ⟨s, hs, rfl⟩ := Option.map_eq_some_iff.1 h
  simpa using List.all_eq_true.1 hall s (List.mem_of_find?_eq_some hs)

/-- The suffix of a short name stands in it. -/
theorem mem_of_shortSpelling? {cs : List Char} {s : ShortSpelling} (h : shortSpelling? cs = some s) {c : Char}
    (hc : c ∈ s.suffix) : c ∈ cs := by
  simp only [shortSpelling?] at h
  split at h
  · cases h
  · obtain ⟨suffix, hsuffix, rfl⟩ := Option.map_eq_some_iff.1 h
    -- the suffix is what is left behind letters and version
    refine mem_of_mem_dropWhile (p := isShortLetter) (mem_of_mem_dropWhile (p := isVersionChar) ?_)
    unfold suffix? at hsuffix
    split at hsuffix
    · obtain rfl := Option.some.inj hsuffix
      cases hc
    · rename_i rest hrest
      split at hsuffix
      · cases hsuffix
      · obtain rfl := Option.some.inj hsuffix
        rw [hrest]
        exact List.mem_cons_of_mem _ hc
    · cases hsuffix

/-- A short name without a comma in its suffix is read as a well-formed framework. -/
theorem wellFormed_of_ofShortSpelling? {s : ShortSpelling} {m : Moniker} (h : ofShortSpelling? s = some m)
    (hs : ',' ∉ s.suffix) : m.WellFormed := by
  unfold ofShortSpelling? at h
  obtain ⟨identifier, hidentifier, h⟩ := Option.bind_eq_some_iff.1 h
  obtain ⟨version, hversion, h⟩ := Option.bind_eq_some_iff.1 h
  have hlength : version = [] ∨ 2 ≤ version.length := .inr (two_le_length_of_shortVersion? hversion)
  have hsuffix : ',' ∉ (String.ofList s.suffix).toList := by rwa [String.toList_ofList]
  split at h
  · rename_i hmodern
    obtain rfl := Option.some.inj h
    have hidentifier : ',' ∉ netCoreApp.toList := by decide
    refine ⟨hlength, fun _ => hidentifier, List.not_mem_nil, hsuffix, fun hnot => ?_⟩
    have hmajor : 5 ≤ version.headD 0 := hmodern.2
    rw [isModern, decide_eq_true hmajor] at hnot
    cases hnot
  · obtain rfl := Option.some.inj h
    exact ⟨hlength, fun _ => comma_notMem_of_identifierOf? hidentifier, hsuffix, List.not_mem_nil, fun _ => rfl⟩

/-- So is a text without a comma. -/
theorem wellFormed_parseShort {text : String} (h : ',' ∉ text.toList) : (parseShort text).WellFormed := by
  have htrimmed : ',' ∉ trimChars text.toList := fun hc => h (mem_of_mem_trimChars hc)
  have hlowered : ',' ∉ lowerChars (trimChars text.toList) :=
    fun hc => htrimmed (mem_of_mem_lowerChars isMark_comma hc)
  simp only [parseShort]
  split
  · have hprofile : ',' ∉ (String.ofList ((trimChars text.toList).drop portableMark.length)).toList := by
      rw [String.toList_ofList]
      exact fun hc => htrimmed (List.mem_of_mem_drop hc)
    exact ⟨.inl rfl, fun hversion => absurd rfl hversion, hprofile, List.not_mem_nil, fun _ => rfl⟩
  · cases hm : (shortSpelling? (lowerChars (trimChars text.toList))).bind ofShortSpelling? with
    | none => exact wellFormed_verbatim _
    | some m =>
      obtain ⟨s, hs, hm⟩ := Option.bind_eq_some_iff.1 hm
      exact wellFormed_of_ofShortSpelling? hm fun hc => hlowered (mem_of_shortSpelling? hs hc)

/-- Every framework that was read is well-formed. -/
theorem wellFormed_of_parse? {text : String} {m : Moniker} (h : parse? text = some m) : m.WellFormed := by
  unfold parse? at h
  split at h
  · cases h
  · rename_i c cs hcs
    split at h
    · exact Option.some.inj h ▸ wellFormed_parseFull _
    · rename_i hfull
      rw [← Option.some.inj h]
      refine wellFormed_parseShort ?_
      rw [String.toList_ofList]
      intro hc
      exact hfull (Bool.or_eq_true_iff.2 (.inr (List.contains_iff_mem.2 hc)))

end Moniker
end PackageGraph
