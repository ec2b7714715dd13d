import PackageGraph.Proofs.Framework.Abbreviation
/-!
# Frameworks with one short name

A short name does not keep everything of a framework. A portable one keeps the profile alone, one without version the
identifier, a modern one version and platform; an identifier with a short spelling loses its letter case, as does the
profile, and most versions lose their points. A negative component of such a version even looks like a profile.
`SharesShortName` lists what may come together in one name, and nothing else does.
-/
namespace PackageGraph.Moniker

open Text

/-! ## What a short name keeps -/

/-- The short name of the framework is its identifier. -/
structure IsUnversioned (m : Moniker) : Prop where
  notPortable : m.identifier ≠ netPortable
  version : m.version = []

/-- The short name of the framework keeps the points of the version. -/
structure IsPointed (m : Moniker) : Prop where
  version : m.version ≠ []
  notModern : m.isModern = false
  keepsPoints : keepsPoints m.identifier = true

/-- The short name of the framework has a short spelling and a version without points. -/
structure IsJoined (m : Moniker) : Prop where
  version : m.version ≠ []
  losesPoints : keepsPoints m.identifier = false
  short : (shortOf? m.identifier).isSome = true

/-- The ways in which two frameworks come to one short name. -/
inductive SharesShortName (f g : Moniker) : Prop where
  | same (h : f = g)
  | portable (hf : f.identifier = netPortable) (hg : g.identifier = netPortable) (profile : f.profile = g.profile)
  | unversioned (hf : f.IsUnversioned) (identifier : f.identifier = g.shortName)
  | ofUnversioned (hg : g.IsUnversioned) (identifier : f.shortName = g.identifier)
  | modern (hf : f.isModern = true) (hg : g.isModern = true) (version : f.version = g.version)
      (platform : f.platform = g.platform)
  | pointed (hf : f.IsPointed) (hg : g.IsPointed) (identifier : f.identifier = g.identifier)
      (version : f.version = g.version) (profile : lower f.profile = lower g.profile)
  | joined (hf : f.IsJoined) (hg : g.IsJoined) (identifier : lower f.identifier = lower g.identifier)
      (digits : joinedVersion f.version = joinedVersion g.version) (profile : lower f.profile = lower g.profile)
  /-- The sign of a negative component stands where the hyphen before a profile would. -/
  | signed (hf : f.IsJoined) (hg : g.IsJoined) (identifier : lower f.identifier = lower g.identifier)
      (negative : ∃ n ∈ f.version ++ g.version, n < 0)
      (text : withSuffix (joinedVersion f.version) (lower f.profile) =
        withSuffix (joinedVersion g.version) (lower g.profile))

variable {f g m : Moniker}

/-! ## Frameworks that share a short name -/

/-- A portable framework is named by its profile alone. -/
theorem shortName_of_portable (hm : m.identifier = netPortable) : m.shortName = withSuffix "portable" m.profile := by
  rw [shortName, beq_iff_eq.2 hm, if_pos rfl]

/-- Without a version a framework is named by its identifier. -/
theorem shortName_of_unversioned (hm : m.IsUnversioned) : m.shortName = m.identifier := by
  rw [shortName, beq_eq_false_iff_ne.2 hm.notPortable, hm.version]
  rfl

theorem identifier_of_isModern (hm : m.isModern = true) : m.identifier = netCoreApp :=
  beq_iff_eq.1 (Bool.and_eq_true_iff.1 hm).1

theorem version_of_isModern (hm : m.isModern = true) : m.version ≠ [] := by
  intro hnil
  have hmajor := (Bool.and_eq_true_iff.1 hm).2
  rw [hnil] at hmajor
  cases hmajor

/-- The short name of a modern framework leaves its profile out. -/
theorem shortName_of_isModern (hm : m.isModern = true) :
    m.shortName = Abbreviation.text ⟨"net", true, m.version, m.platform⟩ := by
  have hportable : m.identifier ≠ netPortable := by
    rw [identifier_of_isModern hm]
    decide
  rw [shortName_of_versioned hportable (version_of_isModern hm), abbreviation?, if_pos hm]
  rfl

/-- The identifiers whose short names keep the points. -/
theorem keepsPoints_iff {identifier : String} :
    keepsPoints identifier = true ↔ identifier = netCoreApp ∨ identifier = netStandard ∨ identifier = uap := by
  simp [keepsPoints, or_assoc]

theorem notPortable_of_shortOf? (hm : (shortOf? m.identifier).isSome = true) : m.identifier ≠ netPortable := by
  intro hportable
  have hnone : shortOf? netPortable = none := by decide
  rw [hportable, hnone] at hm
  cases hm

/-- The modern framework keeps the points of its version. -/
theorem isModern_eq_false_of_losesPoints (hm : keepsPoints m.identifier = false) : m.isModern = false := by
  rw [Bool.eq_false_iff]
  intro hmodern
  rw [identifier_of_isModern hmodern] at hm
  cases hm

/-- Every identifier that keeps points has a short spelling. -/
theorem exists_shortOf?_of_keepsPoints {identifier : String} (h : keepsPoints identifier = true) :
    ∃ short, shortOf? identifier = some short := by
  rcases keepsPoints_iff.1 h with rfl | rfl | rfl
  · exact ⟨"netcoreapp", by decide⟩
  · exact ⟨"netstandard", by decide⟩
  · exact ⟨"uap", by decide⟩

/-- Identifiers that keep the points are told apart without regard to letter case. -/
theorem eq_of_lower_eq_of_keepsPoints {i j : String} (hi : keepsPoints i = true) (hj : keepsPoints j = true)
    (h : lower i = lower j) : i = j := by
  have hall : ∀ i ∈ [netCoreApp, netStandard, uap], ∀ j ∈ [netCoreApp, netStandard, uap],
      lower i = lower j → i = j := by decide
  exact hall i (by simpa using keepsPoints_iff.1 hi) j (by simpa using keepsPoints_iff.1 hj) h

/-- Identifiers with one short spelling differ in letter case at most. -/
theorem lower_eq_of_shortOf? {i j short : String} (hi : shortOf? i = some short) (hj : shortOf? j = some short) :
    lower i = lower j := by
  have hall : ∀ s ∈ shortSpellings, ∀ t ∈ shortSpellings, s.1 = t.1 → s.2 = t.2 := by decide
  obtain ⟨full, hfull, hi⟩ := mem_shortSpellings_of_shortOf? hi
  obtain ⟨full', hfull', hj⟩ := mem_shortSpellings_of_shortOf? hj
  have heq : full = full' := hall _ hfull _ hfull' rfl
  rw [← hi, ← hj, heq]

/-- The short name of a framework with a short spelling that is not modern. -/
theorem shortName_of_shortOf? {short : String} (hv : m.version ≠ []) (hmodern : m.isModern = false)
    (hshort : shortOf? m.identifier = some short) :
    m.shortName = Abbreviation.text ⟨short, keepsPoints m.identifier, m.version, lower m.profile⟩ := by
  have hportable : m.identifier ≠ netPortable := notPortable_of_shortOf? (by rw [hshort]; rfl)
  rw [shortName_of_versioned hportable hv, abbreviation?, hmodern, if_neg Bool.false_ne_true, hshort]
  rfl

/-- The modern framework has an abbreviation. -/
theorem isModern_of_abbreviation? (h : m.abbreviation? = none) : m.isModern = false := by
  rw [Bool.eq_false_iff]
  intro hmodern
  rw [abbreviation?, if_pos hmodern] at h
  cases h

/-- The modern short name is that of no other framework, since `net` is short for an identifier without points. -/
theorem not_agrees_of_isModern {a b : Abbreviation} (hf : f.isModern = true) (hg : g.isModern = false)
    (ha : f.abbreviation? = some a) (hb : g.abbreviation? = some b) : ¬ a.Agrees b := by
  intro h
  rw [abbreviation?, if_pos hf] at ha
  rw [abbreviation?, hg, if_neg Bool.false_ne_true] at hb
  obtain rfl := Option.some.inj ha
  obtain ⟨short, hshort, rfl⟩ := Option.map_eq_some_iff.1 hb
  obtain rfl : "net" = short := h.short
  have hpoints : keepsPoints g.identifier = true := h.isPointed.symm
  rcases keepsPoints_iff.1 hpoints with hidentifier | hidentifier | hidentifier <;>
    exact absurd (hidentifier ▸ hshort) (by decide)

/-- Short spellings are found without regard to letter case. -/
theorem shortOf?_congr {i j : String} (h : lower i = lower j) : shortOf? i = shortOf? j := by
  rw [shortOf?, shortOf?, h]

theorem shortName_eq_of_isJoined (hf : f.IsJoined) (hg : g.IsJoined)
    (hidentifier : lower f.identifier = lower g.identifier)
    (htext : withSuffix (joinedVersion f.version) (lower f.profile) =
      withSuffix (joinedVersion g.version) (lower g.profile)) : f.shortName = g.shortName := by
  obtain ⟨short, hshort⟩ := Option.isSome_iff_exists.1 hf.short
  have hshort' : shortOf? g.identifier = some short := by rw [← shortOf?_congr hidentifier, hshort]
  rw [shortName_of_shortOf? hf.version (isModern_eq_false_of_losesPoints hf.losesPoints) hshort,
    shortName_of_shortOf? hg.version (isModern_eq_false_of_losesPoints hg.losesPoints) hshort',
    Abbreviation.text_of_joined hf.losesPoints, Abbreviation.text_of_joined hg.losesPoints, htext]

/-- Frameworks that come together in one of the ways have one short name. -/
theorem SharesShortName.shortName_eq (h : f.SharesShortName g) : f.shortName = g.shortName := by
  cases h with
  | same h => rw [h]
  | portable hf hg hprofile => rw [shortName_of_portable hf, shortName_of_portable hg, hprofile]
  | unversioned hf hidentifier => rw [shortName_of_unversioned hf, hidentifier]
  | ofUnversioned hg hidentifier => rw [shortName_of_unversioned hg, hidentifier]
  | modern hf hg hversion hplatform =>
    rw [shortName_of_isModern hf, shortName_of_isModern hg, hversion, hplatform]
  | pointed hf hg hidentifier hversion hprofile =>
    obtain ⟨short, hshort⟩ := exists_shortOf?_of_keepsPoints hf.keepsPoints
    -- identifiers that keep points are equal, and so are their short spellings
    rw [shortName_of_shortOf? hf.version hf.notModern hshort,
      shortName_of_shortOf? hg.version hg.notModern (hidentifier ▸ hshort), hidentifier, hversion, hprofile]
  | joined hf hg hidentifier hdigits hprofile =>
    exact shortName_eq_of_isJoined hf hg hidentifier (by rw [hdigits, hprofile])
  | signed hf hg hidentifier _ htext => exact shortName_eq_of_isJoined hf hg hidentifier htext

/-! ## Nothing else shares a short name -/

/-- Equal abbreviations are those of frameworks that come together in one of the ways. -/
theorem sharesShortName_of_agrees {a b : Abbreviation} (hfv : f.version ≠ []) (hgv : g.version ≠ [])
    (ha : f.abbreviation? = some a) (hb : g.abbreviation? = some b) (h : a.Agrees b) : f.SharesShortName g := by
  cases hf : f.isModern with
  | true =>
    cases hg : g.isModern with
    | true =>
      rw [abbreviation?, if_pos hf] at ha
      rw [abbreviation?, if_pos hg] at hb
      obtain rfl := Option.some.inj ha
      obtain rfl := Option.some.inj hb
      obtain ⟨hversion, hplatform⟩ := h.pointed rfl
      exact .modern hf hg hversion hplatform
    | false => exact absurd h (not_agrees_of_isModern hf hg ha hb)
  | false =>
    cases hg : g.isModern with
    | true => exact absurd h.symm (not_agrees_of_isModern hg hf hb ha)
    | false =>
      rw [abbreviation?, hf, if_neg Bool.false_ne_true] at ha
      rw [abbreviation?, hg, if_neg Bool.false_ne_true] at hb
      obtain ⟨short, hshort, rfl⟩ := Option.map_eq_some_iff.1 ha
      obtain ⟨short', hshort', rfl⟩ := Option.map_eq_some_iff.1 hb
      obtain rfl : short = short' := h.short
      have hidentifier := lower_eq_of_shortOf? hshort hshort'
      have hpoints : keepsPoints f.identifier = keepsPoints g.identifier := h.isPointed
      cases hp : keepsPoints f.identifier with
      | true =>
        obtain ⟨hversion, hprofile⟩ := h.pointed hp
        have hgp : keepsPoints g.identifier = true := by rw [← hpoints, hp]
        have hidentifier := eq_of_lower_eq_of_keepsPoints hp hgp hidentifier
        exact .pointed ⟨hfv, hf, hp⟩ ⟨hgv, hg, hgp⟩ hidentifier hversion hprofile
      | false =>
        have hgp : keepsPoints g.identifier = false := by rw [← hpoints, hp]
        have hfj : f.IsJoined := ⟨hfv, hp, by rw [hshort]; rfl⟩
        have hgj : g.IsJoined := ⟨hgv, hgp, by rw [hshort']; rfl⟩
        have htext := h.joined hp
        -- a hyphen in the version may be a sign, and then the digits do not tell where the suffix begins
        by_cases hneg : ∃ n ∈ f.version ++ g.version, n < 0
        · exact .signed hfj hgj hidentifier hneg htext
        · have hnat : ∀ n ∈ f.version ++ g.version, 0 ≤ n :=
            fun n hn => Int.not_lt.1 fun hlt => hneg ⟨n, hn, hlt⟩
          obtain ⟨hdigits, hprofile⟩ := withSuffix_joinedVersion_inj
            (fun n hn => hnat n (List.mem_append_left _ hn)) (fun n hn => hnat n (List.mem_append_right _ hn)) htext
          exact .joined hfj hgj hidentifier hdigits hprofile

/-- A portable framework shares its short name with none that has a version of its own. -/
theorem shortName_ne_of_portable (hf : f.WellFormed) (hg : g.WellFormed) (hportable : f.identifier = netPortable)
    (hgp : g.identifier ≠ netPortable) (hgv : g.version ≠ []) : f.shortName ≠ g.shortName := by
  intro h
  rw [shortName_of_portable hportable, shortName_of_versioned hgp hgv] at h
  cases hb : g.abbreviation? with
  | some b =>
    rw [hb] at h
    exact (wellFormed_abbreviation? hg hgv hb).text_ne_portable f.profile h.symm
  | none =>
    -- the full name has a comma, the profile has none
    rw [hb] at h
    have hcomma : ',' ∈ (withSuffix "portable" f.profile).toList := h ▸ comma_mem_fullName hgv
    rw [toList_withSuffix, List.mem_append] at hcomma
    rcases hcomma with hcomma | hcomma
    · exact absurd hcomma (by decide)
    · rcases mem_hyphenated hcomma with hcomma | hcomma
      · exact absurd hcomma (by decide)
      · exact hf.profile hcomma

/-- Frameworks with versions share a short name if it is written alike: as an abbreviation, or in full. -/
theorem sharesShortName_of_versioned (hf : f.WellFormed) (hg : g.WellFormed) (hfp : f.identifier ≠ netPortable)
    (hgp : g.identifier ≠ netPortable) (hfv : f.version ≠ []) (hgv : g.version ≠ []) (h : f.shortName = g.shortName) :
    f.SharesShortName g := by
  rw [shortName_of_versioned hfp hfv, shortName_of_versioned hgp hgv] at h
  cases ha : f.abbreviation? with
  | some a =>
    have hwa := wellFormed_abbreviation? hf hfv ha
    cases hb : g.abbreviation? with
    | some b =>
      rw [ha, hb] at h
      have hwb := wellFormed_abbreviation? hg hgv hb
      exact sharesShortName_of_agrees hfv hgv ha hb (Abbreviation.agrees_of_text_eq hwa hwb h)
    | none =>
      rw [ha, hb] at h
      have htext : a.text = g.fullName := h
      -- a full name has a comma in it, which no abbreviation has
      exact absurd (htext ▸ comma_mem_fullName hgv) hwa.comma_notMem_text
  | none =>
    cases hb : g.abbreviation? with
    | some b =>
      rw [ha, hb] at h
      have htext : f.fullName = b.text := h
      have hwb := wellFormed_abbreviation? hg hgv hb
      exact absurd (htext ▸ comma_mem_fullName hfv) hwb.comma_notMem_text
    | none =>
      rw [ha, hb] at h
      obtain ⟨hidentifier, hversion, hprofile⟩ := fullName_inj hf hg hfv hgv h
      have hplatform : f.platform = g.platform := by
        rw [hf.platform_eq (isModern_of_abbreviation? ha), hg.platform_eq (isModern_of_abbreviation? hb)]
      refine .same ?_
      cases f
      cases g
      rw [Moniker.mk.injEq]
      exact ⟨hidentifier, hversion, hprofile, hplatform⟩

/-- Frameworks that were read have one short name exactly if they come together in one of the ways. -/
theorem shortName_eq_iff (hf : f.WellFormed) (hg : g.WellFormed) :
    f.shortName = g.shortName ↔ f.SharesShortName g := by
  refine ⟨fun h => ?_, SharesShortName.shortName_eq⟩
  by_cases hfp : f.identifier = netPortable
  · by_cases hgp : g.identifier = netPortable
    · rw [shortName_of_portable hfp, shortName_of_portable hgp] at h
      exact .portable hfp hgp (withSuffix_inj h)
    · by_cases hgv : g.version = []
      · exact .ofUnversioned ⟨hgp, hgv⟩ (by rw [h, shortName_of_unversioned ⟨hgp, hgv⟩])
      · exact absurd h (shortName_ne_of_portable hf hg hfp hgp hgv)
  · by_cases hfv : f.version = []
    · exact .unversioned ⟨hfp, hfv⟩ (by rw [← h, shortName_of_unversioned ⟨hfp, hfv⟩])
    · by_cases hgp : g.identifier = netPortable
      · exact absurd h.symm (shortName_ne_of_portable hg hf hgp hfp hfv)
      · by_cases hgv : g.version = []
        · exact .ofUnversioned ⟨hgp, hgv⟩ (by rw [h, shortName_of_unversioned ⟨hgp, hgv⟩])
        · exact sharesShortName_of_versioned hf hg hfp hgp hfv hgv h

/-- Digits without points do not say where a component ends. -/
example : shortName ⟨netFramework, [4, 7, 2], "", ""⟩ = shortName ⟨netFramework, [4, 72], "", ""⟩ := by decide

end PackageGraph.Moniker
