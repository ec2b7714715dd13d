import PackageGraph.Proofs.Framework.ComposedName
/-!
# Frameworks that are read again

The short name of a framework that was read from a short name is made of parts that are read at the same places. With
points the version comes back, and so does the framework, unless it is modern and has a profile, which its short name
leaves out. Without points it comes back exactly if the digits say where each component ends. A name that is not
recognised is its own short name.
-/
namespace PackageGraph.Moniker

open Text

/-! ## Frameworks that were read from short names -/

/-- The suffix of a text in lower case, which may not end with white space. -/
theorem ShortSpelling.isReadSuffix {s : ShortSpelling} (hs : s.WellFormed) {text : String}
    (htext : s.text = lowerChars (trimChars text.toList)) : IsReadSuffix (.ofList s.suffix) where
  small c hc := by
    rw [String.toList_ofList] at hc
    have hmem : c ∈ s.text := by
      have hne : s.suffix ≠ [] := List.ne_nil_of_mem hc
      simp [ShortSpelling.text, hyphenated, hne, hc]
    exact isSmall_of_mem_lowerChars (htext ▸ hmem)
  oneLine := by
    rw [String.toList_ofList]
    exact hs.suffix
  last c hc := by
    have hne : String.ofList s.suffix ≠ "" := by
      intro hnil
      rw [hnil] at hc
      cases hc
    have htrimmed : ∀ d ∈ (trimChars text.toList).getLast?, isBlank d = false :=
      fun _ => not_isBlank_of_getLast?_trimChars
    refine not_isBlank_of_getLast?_lowerChars htrimmed c ?_
    rwa [← htext, ShortSpelling.text, ← List.append_assoc, getLast?_append_hyphenated _ hne]

section Parts

variable {short identifier suffix : String} {version : List Int}

/-- The short name without points of a framework that was read. -/
theorem shortName_of_losesPoints (hmem : (short, identifier) ∈ shortSpellings) (hversion : IsShortVersion version)
    (hsuffix : IsReadSuffix suffix) (hpoints : keepsPoints identifier = false) :
    shortName ⟨identifier, version, suffix, ""⟩ = Abbreviation.text ⟨short, false, version, suffix⟩ := by
  have hname := shortName_of_shortOf? (m := ⟨identifier, version, suffix, ""⟩) hversion.ne_nil
    (isModern_eq_false_of_losesPoints hpoints) (identifierOf?_shortOf?_of_mem hmem).2
  rw [hname]
  simp only [hpoints, hsuffix.lower_eq]

/-- The modern framework keeps its points. -/
theorem not_modern_of_losesPoints (h : keepsPoints (ofParts identifier version suffix).identifier = false) :
    ¬ (identifier = netFramework ∧ 5 ≤ version.headD 0) := by
  intro hmodern
  rw [ofParts, if_pos hmodern] at h
  cases h

/-- Without points a framework is read again exactly if the digits say where each component of its version ends, and
no comma makes the short name look like a full one. -/
theorem parse?_shortName_iff_of_losesPoints (hmem : (short, identifier) ∈ shortSpellings)
    (hversion : IsShortVersion version) (hsuffix : IsReadSuffix suffix) (hpoints : keepsPoints identifier = false)
    (hmajor : ¬ (identifier = netFramework ∧ 5 ≤ version.headD 0)) :
    parse? (shortName ⟨identifier, version, suffix, ""⟩) = some ⟨identifier, version, suffix, ""⟩ ↔
      IsJoinable version ∧ ',' ∉ suffix.toList := by
  have ha : Abbreviation.IsRead ⟨short, false, version, suffix⟩ := ⟨⟨identifier, hmem⟩, hversion, hsuffix⟩
  rw [shortName_of_losesPoints hmem hversion hsuffix hpoints]
  by_cases hcomma : ',' ∈ suffix.toList
  · refine iff_of_false (fun h => ?_) fun h => h.2 hcomma
    obtain ⟨m, hm, c, hc, hdigit⟩ := ha.exists_digit_of_comma hcomma
    have hletters : shortSpellings.all (fun s => s.2.toList.all fun c => !c.isDigit) = true := by decide
    rw [hm] at h
    obtain rfl := Option.some.inj h
    have hnot := List.all_eq_true.1 (List.all_eq_true.1 hletters _ hmem) c hc
    rw [hdigit] at hnot
    cases hnot
  · rw [ha.parse?_text_eq_iff hcomma hversion.ne_nil]
    constructor
    · rintro ⟨-, -, hread, -⟩
      exact ⟨(shortVersion?_joinedVersion_iff hversion).1 hread, hcomma⟩
    · rintro ⟨hjoinable, -⟩
      exact ⟨identifier, hmem, (shortVersion?_joinedVersion_iff hversion).2 hjoinable, if_neg hmajor⟩

theorem isReadSuffix_empty : IsReadSuffix "" where
  small _ hc := absurd hc List.not_mem_nil
  oneLine := List.not_mem_nil
  last _ hc := absurd hc (Option.not_mem_none _)

/-- A framework with points is read again from the short spelling that stands for it. -/
theorem parse?_pointed_iff (hmem : (short, identifier) ∈ shortSpellings) (hversion : IsShortVersion version)
    (hsuffix : IsReadSuffix suffix) (hcomma : ',' ∉ suffix.toList) {m : Moniker} (hm : m.version = version) :
    parse? (Abbreviation.text ⟨short, true, version, suffix⟩) = some m ↔ ofParts identifier version suffix = m := by
  have ha : Abbreviation.IsRead ⟨short, true, version, suffix⟩ := ⟨⟨identifier, hmem⟩, hversion, hsuffix⟩
  have hunique : ∀ s ∈ shortSpellings, ∀ t ∈ shortSpellings, s.1 = t.1 → s.2 = t.2 := by decide
  subst hm
  rw [ha.parse?_text_eq_iff hcomma hversion.ne_nil]
  constructor
  · rintro ⟨identifier', hmem', -, hparts⟩
    obtain rfl : identifier' = identifier := hunique _ hmem' _ hmem rfl
    exact hparts
  · intro hparts
    exact ⟨identifier, hmem, shortVersion?_pointedVersion hversion, hparts⟩

/-- With points a framework is read again, unless it is modern and has a profile. -/
theorem parse?_shortName_iff_of_keepsPoints (hmem : (short, identifier) ∈ shortSpellings)
    (hversion : IsShortVersion version) (hsuffix : IsReadSuffix suffix) (hcomma : ',' ∉ suffix.toList)
    (hpoints : keepsPoints (ofParts identifier version suffix).identifier = true) :
    parse? (ofParts identifier version suffix).shortName = some (ofParts identifier version suffix) ↔
      ¬ (identifier = netCoreApp ∧ 5 ≤ version.headD 0 ∧ suffix ≠ "") := by
  have hnet : ("net", netFramework) ∈ shortSpellings := List.mem_cons_self
  by_cases hmodern : identifier = netFramework ∧ 5 ≤ version.headD 0
  · -- the suffix of the modern spelling is the platform
    obtain ⟨rfl, hmajor⟩ := hmodern
    have hparts : ofParts netFramework version suffix = ⟨netCoreApp, version, "", suffix⟩ := if_pos ⟨rfl, hmajor⟩
    have hname := shortName_of_isModern (m := ⟨netCoreApp, version, "", suffix⟩) (by simpa [isModern] using hmajor)
    rw [hparts, hname, parse?_pointed_iff hnet hversion hsuffix hcomma rfl]
    refine iff_of_true hparts ?_
    rintro ⟨hidentifier, -⟩
    exact absurd hidentifier (by decide)
  · have hparts : ofParts identifier version suffix = ⟨identifier, version, suffix, ""⟩ := if_neg hmodern
    rw [hparts] at hpoints ⊢
    by_cases hcore : identifier = netCoreApp ∧ 5 ≤ version.headD 0
    · -- the older spelling of the modern framework has a profile where the short name has a platform
      obtain ⟨rfl, hmajor⟩ := hcore
      have hname := shortName_of_isModern (m := ⟨netCoreApp, version, suffix, ""⟩) (by simpa [isModern] using hmajor)
      rw [hname, parse?_pointed_iff hnet hversion isReadSuffix_empty List.not_mem_nil rfl]
      have hmodern : ofParts netFramework version "" = ⟨netCoreApp, version, "", ""⟩ := if_pos ⟨rfl, hmajor⟩
      rw [hmodern, Moniker.mk.injEq]
      constructor
      · rintro ⟨-, -, hprofile, -⟩ ⟨-, -, hne⟩
        exact hne hprofile.symm
      · intro h
        refine ⟨rfl, rfl, ?_, rfl⟩
        by_contra hne
        exact h ⟨rfl, hmajor, Ne.symm hne⟩
    · have hold : isModern ⟨identifier, version, suffix, ""⟩ = false := by
        simpa [isModern] using hcore
      have hname := shortName_of_shortOf? (m := ⟨identifier, version, suffix, ""⟩) hversion.ne_nil hold
        (identifierOf?_shortOf?_of_mem hmem).2
      simp only [hpoints, hsuffix.lower_eq] at hname
      rw [hname, parse?_pointed_iff hmem hversion hsuffix hcomma rfl]
      refine iff_of_true hparts ?_
      rintro ⟨hidentifier, hmajor, -⟩
      exact hcore ⟨hidentifier, hmajor⟩

end Parts

/-! ## Versions without points -/

/-- A framework without points in its short name that was read from a short name is read again exactly if it has no
version, or the digits say where each component of the version ends and the profile has no comma. -/
theorem rereads_joined_iff {text : String} (hshort : ∃ short, (short, (parseShort text).identifier) ∈ shortSpellings)
    (hpoints : keepsPoints (parseShort text).identifier = false) :
    parse? (parseShort text).shortName = some (parseShort text) ↔
      (parseShort text).version = [] ∨
        (IsJoinable (parseShort text).version ∧ ',' ∉ (parseShort text).profile.toList) := by
  obtain ⟨short, hshort⟩ := hshort
  rcases parseShort_cases text with ⟨-, hm⟩ | ⟨s, hs, htext, hm⟩ | ⟨-, hm⟩
  · have hnone : ∀ s ∈ shortSpellings, s.2 ≠ netPortable := by decide
    rw [hm] at hshort
    exact absurd rfl (hnone _ hshort)
  -- a name that was abbreviated is read again by the parts of its abbreviation
  · obtain ⟨identifier, version, hmem, hread, hparts⟩ := ofShortSpelling?_eq_some_iff.1 hm
    have hversion := isShortVersion_of_shortVersion? hs.version hread
    have hsuffix := ShortSpelling.isReadSuffix hs htext
    have hmajor := not_modern_of_losesPoints (hparts ▸ hpoints)
    rw [ofParts, if_neg hmajor] at hparts
    rw [← hparts] at hpoints ⊢
    rw [parse?_shortName_iff_of_losesPoints hmem hversion hsuffix hpoints hmajor]
    simp only [hversion.ne_nil, false_or]
  · -- the name is an identifier, which is its own short name
    have hall : ∀ s ∈ shortSpellings, parse? (verbatim s.2).shortName = some (verbatim s.2) := by decide
    rw [hm] at hshort ⊢
    have hkept := hall (short, trim text) hshort
    exact iff_of_true hkept (.inl rfl)

/-- A short name with points of its own may be read again without them. -/
theorem rereads_joined_windows_client :
    (∃ short, (short, (parseShort "WIN8.1-Client").identifier) ∈ shortSpellings) ∧
      keepsPoints (parseShort "WIN8.1-Client").identifier = false ∧
      parse? (parseShort "WIN8.1-Client").shortName = some (parseShort "WIN8.1-Client") := by
  have hread : parseShort "WIN8.1-Client" = ⟨"Windows", [8, 1], "client", ""⟩ := by decide
  have hshort : ∃ short, (short, (parseShort "WIN8.1-Client").identifier) ∈ shortSpellings := by
    rw [hread]
    exact ⟨"win", by decide⟩
  have hpoints : keepsPoints (parseShort "WIN8.1-Client").identifier = false := by
    rw [hread]
    decide
  refine ⟨hshort, hpoints, (rereads_joined_iff hshort hpoints).2 (.inr ?_)⟩
  rw [hread]
  decide

/-- The short name of version 1 is read as version 10. -/
theorem not_rereads_joined : ¬ ∀ text : String,
    (∃ short, (short, (parseShort text).identifier) ∈ shortSpellings) →
      keepsPoints (parseShort text).identifier = false →
      parse? (parseShort text).shortName = some (parseShort text) := by
  intro h
  have hread : parseShort "net1" = ⟨netFramework, [1, 0], "", ""⟩ := by decide
  have hagain := h "net1"
  rw [hread] at hagain
  exact absurd (hagain ⟨"net", by decide⟩ (by decide)) (by decide)

/-! ## Versions with points, and names that are kept -/

/-- The older spelling of the modern framework with a suffix. -/
structure ShortSpelling.IsSuffixedModern (s : ShortSpelling) : Prop where
  letters : String.ofList s.letters = "netcoreapp"
  version : ∃ version, shortVersion? s.version = some version ∧ 5 ≤ version.headD 0
  suffix : s.suffix ≠ []

theorem ShortSpelling.IsSuffixedModern.isKnown {s : ShortSpelling} (hs : s.WellFormed) (h : s.IsSuffixedModern) :
    s.IsKnown where
  letters := ⟨netCoreApp, by rw [h.letters]; decide⟩
  numbers := by
    obtain ⟨version, hread, -⟩ := h.version
    exact (exists_shortVersion?_iff hs.version).1 ⟨version, hread⟩

/-- A text is taken apart in one way. -/
theorem ShortSpelling.WellFormed.unique {s t : ShortSpelling} (hs : s.WellFormed) (ht : t.WellFormed)
    (h : s.text = t.text) : s = t := by
  have hread : shortSpelling? t.text = some s := shortSpelling?_eq_some_iff.2 ⟨hs, h⟩
  rw [shortSpelling?_eq_some_iff.2 ⟨ht, rfl⟩] at hread
  exact (Option.some.inj hread).symm

/-- The parts of a text in the older spelling of the modern framework with a suffix. -/
theorem exists_isSuffixedModern_iff {s : ShortSpelling} (hs : s.WellFormed) {identifier : String} {version : List Int}
    (hmem : (String.ofList s.letters, identifier) ∈ shortSpellings) (hread : shortVersion? s.version = some version) :
    (∃ t : ShortSpelling, t.WellFormed ∧ t.text = s.text ∧ t.IsSuffixedModern) ↔
      identifier = netCoreApp ∧ 5 ≤ version.headD 0 ∧ String.ofList s.suffix ≠ "" := by
  have hspelling : ∀ s ∈ shortSpellings, s.1 = "netcoreapp" ↔ s.2 = netCoreApp := by decide
  constructor
  · rintro ⟨t, ht, htext, hmodern⟩
    obtain rfl := ht.unique hs htext
    obtain ⟨version', hread', hmajor⟩ := hmodern.version
    rw [hread] at hread'
    obtain rfl := Option.some.inj hread'
    exact ⟨(hspelling _ hmem).1 hmodern.letters, hmajor, by simpa using hmodern.suffix⟩
  · rintro ⟨hidentifier, hmajor, hsuffix⟩
    exact ⟨s, hs, rfl, (hspelling _ hmem).2 hidentifier, ⟨version, hread, hmajor⟩, by simpa using hsuffix⟩

/-- The identifier of a portable profile begins with a point. -/
theorem trim_ne_netPortable {text : String} (hpoint : ∀ c ∈ (trimChars text.toList).head?, c ≠ '.') :
    trim text ≠ netPortable := by
  intro heq
  have hlist : trimChars text.toList = netPortable.toList := by rw [← heq, trim, String.toList_ofList]
  have hhead : (trimChars text.toList).head? = some '.' := by
    rw [hlist]
    rfl
  exact hpoint '.' hhead rfl

/-- A text that is kept is its own short name and is read again. -/
theorem rereads_of_eq_verbatim {text : String} (hblank : isBlankText text = false) (hcomma : ',' ∉ text.toList)
    (hpoint : ∀ c ∈ (trimChars text.toList).head?, c ≠ '.') (hm : parseShort text = verbatim (trim text)) :
    (parseShort text).shortName = trim text ∧ parse? (parseShort text).shortName = some (parseShort text) := by
  have hname : (parseShort text).shortName = trim text := by
    rw [hm]
    exact shortName_of_unversioned ⟨trim_ne_netPortable hpoint, rfl⟩
  have hsame : parse? (trim text) = parse? text := by
    unfold parse?
    rw [trim, String.toList_ofList, trimChars_trimChars]
  refine ⟨hname, ?_⟩
  rw [hname, hsame, parse?_eq_parseShort hblank hcomma hpoint]

/-- A text that neither has a comma nor begins with a point names a framework. One that keeps the points of its version
is read again from its short name, unless it was written in the older spelling of the modern framework with a suffix.
A text that is not recognised is kept, is its own short name and is read again. -/
theorem rereads_pointed_or_kept {text : String} (hblank : isBlankText text = false) (hcomma : ',' ∉ text.toList)
    (hpoint : ∀ c ∈ (trimChars text.toList).head?, c ≠ '.') : ∃ m, parse? text = some m ∧
      (keepsPoints m.identifier = true → (parse? m.shortName = some m ↔
        ¬ ∃ s : ShortSpelling, s.WellFormed ∧ s.text = lowerChars (trimChars text.toList) ∧ s.IsSuffixedModern)) ∧
      (¬ IsRecognized (lowerChars (trimChars text.toList)) ↔ m = verbatim (trim text)) ∧
      (m = verbatim (trim text) → m.shortName = trim text ∧ parse? m.shortName = some m) := by
  have hkept := rereads_of_eq_verbatim hblank hcomma hpoint
  refine ⟨parseShort text, parse?_eq_parseShort hblank hcomma hpoint, ?_⟩
  rcases parseShort_cases text with ⟨hmark, hm⟩ | ⟨s, hs, htext, hm⟩ | ⟨hnot, hm⟩
  · have hverbatim : parseShort text ≠ verbatim (trim text) := by
      intro heq
      rw [hm] at heq
      exact trim_ne_netPortable hpoint (congrArg Moniker.identifier heq).symm
    refine ⟨fun hpoints => ?_, iff_of_false (not_not.2 (.inl hmark)) hverbatim, fun h => absurd h hverbatim⟩
    rw [hm] at hpoints
    cases hpoints
  · obtain ⟨identifier, version, hmem, hread, hparts⟩ := ofShortSpelling?_eq_some_iff.1 hm
    have hversion := isShortVersion_of_shortVersion? hs.version hread
    have hsuffix := ShortSpelling.isReadSuffix hs htext
    -- the suffix was cut from a text without a comma
    have hnoComma : ',' ∉ (String.ofList s.suffix).toList := by
      rw [String.toList_ofList]
      intro hc
      have hlowered := mem_of_shortSpelling? (shortSpelling?_eq_some_iff.2 ⟨hs, htext⟩) hc
      exact hcomma (mem_of_mem_trimChars (mem_of_mem_lowerChars isMark_comma hlowered))
    have hverbatim : parseShort text ≠ verbatim (trim text) := by
      intro heq
      have hnone : version = [] := by
        rw [← version_ofParts identifier version (.ofList s.suffix), hparts, heq]
        rfl
      exact hversion.ne_nil hnone
    have hknown : s.IsKnown := (exists_ofShortSpelling?_iff hs).1 ⟨_, hm⟩
    refine ⟨fun hpoints => ?_, iff_of_false (not_not.2 (.inr ⟨s, hs, hknown, htext⟩)) hverbatim,
      fun h => absurd h hverbatim⟩
    rw [← htext, exists_isSuffixedModern_iff hs hmem hread]
    rw [← hparts] at hpoints ⊢
    exact parse?_shortName_iff_of_keepsPoints hmem hversion hsuffix hnoComma hpoints
  -- a text that is not recognized is kept, and it is no spelling of the modern framework
  · refine ⟨fun _ => iff_of_true (hkept hm).2 ?_, iff_of_true hnot hm, hkept⟩
    rintro ⟨s, hs, htext, hmodern⟩
    exact hnot (.inr ⟨s, hs, hmodern.isKnown hs, htext⟩)

/-- Numbers of several digits and a suffix are read again. -/
theorem rereads_netstandard_beta : ∃ text : String, isBlankText text = false ∧ ',' ∉ text.toList ∧
    (∀ c ∈ (trimChars text.toList).head?, c ≠ '.') ∧
    ∃ m, parse? text = some m ∧ m = ⟨netStandard, [1, 10], "beta", ""⟩ ∧ parse? m.shortName = some m := by
  have hblank : isBlankText " NETStandard1.10.0-Beta" = false := by decide
  have hcomma : ',' ∉ " NETStandard1.10.0-Beta".toList := by decide
  have hhead : (trimChars " NETStandard1.10.0-Beta".toList).head? = some 'N' := by decide
  have hpoint : ∀ c ∈ (trimChars " NETStandard1.10.0-Beta".toList).head?, c ≠ '.' := by
    rw [hhead]
    rintro c hc rfl
    cases hc
  have hread : parse? " NETStandard1.10.0-Beta" = some ⟨netStandard, [1, 10], "beta", ""⟩ := by decide
  obtain ⟨m, hm, hagain, -⟩ := rereads_pointed_or_kept hblank hcomma hpoint
  obtain rfl : ⟨netStandard, [1, 10], "beta", ""⟩ = m := by
    rw [hread] at hm
    exact Option.some.inj hm
  refine ⟨_, hblank, hcomma, hpoint, _, hm, rfl, (hagain (by decide)).2 ?_⟩
  rintro ⟨s, -, htext, hmodern⟩
  have hletters : s.letters = "netcoreapp".toList := by
    rw [← hmodern.letters, String.toList_ofList]
  rw [ShortSpelling.text, hletters] at htext
  have hbegins : "netc".toList = "nets".toList := congrArg (List.take 4) htext
  exact absurd hbegins (by decide)

end PackageGraph.Moniker
