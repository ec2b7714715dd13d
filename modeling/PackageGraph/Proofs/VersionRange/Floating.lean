import PackageGraph.Proofs.Version.Extension
import PackageGraph.Proofs.VersionRange.Membership
/-!
# What a floating range admits

The lower bound of a floating range is the reading of its pattern without the wildcard and without the points before
it, or with a zero in the place of the wildcard when nothing else would stand after the hyphen. A text that goes on
where the wildcard stands is no earlier version. So the bound excludes none of the versions that the pattern stands
for, but the prereleases that begin like a release.
-/
namespace PackageGraph.VersionRange

open Text

variable {stem : List Char} {text version : String} {r : VersionRange} {u v : Version}

/-- A text that ends with the wildcard stands between no brackets. -/
theorem parseFloating_of_parseTrimmed {cs : List Char} (h : parseTrimmed text (cs ++ ['*']) = .ok r) :
    parseFloating (cs ++ ['*']) = .ok r := by
  cases cs with
  | nil => exact h
  | cons c cs =>
    rw [List.cons_append, parseTrimmed] at h
    split at h
    · rwa [if_pos (by simp)] at h
    · -- the wildcard would be the closing bracket
      rw [List.reverse_append, List.reverse_singleton, List.singleton_append] at h
      cases h

/-- The range of a pattern is read from the pattern without the white space before it. -/
theorem parseFloating_of_parse (h : parse text = .ok r)
    (hpattern : text.toList = stem ++ ['*'] ∨ r.floating = some (.ofList (stem ++ ['*']))) :
    parseFloating (trimStart stem ++ ['*']) = .ok r := by
  have htrim : trimChars (stem ++ ['*']) = trimStart stem ++ ['*'] := trimChars_append_cons rfl stem []
  rcases hpattern with htext | hfloating
  · rw [parse, htext, htrim] at h
    exact parseFloating_of_parseTrimmed h
  · rcases wellFormed_of_parse h with hplain | ⟨pattern, hr⟩
    · rw [hplain.floating] at hfloating
      cases hfloating
    · obtain rfl : pattern = stem ++ ['*'] :=
        String.ofList_injective (Option.some.inj (hr.floating.symm.trans hfloating))
      rw [← htrim, hr.trimmed]
      exact hr.reading

theorem satisfies_floatingFrom {pattern : List Char} (h : u ≤ v) : (floatingFrom u pattern).satisfies v = true :=
  satisfies_iff.2 ⟨(admitsFromBelow_of_min rfl).2 (h.imp id fun hequal => ⟨rfl, hequal⟩), rfl⟩

/-- The lower bound of a floating range does not exclude a text that goes on where the wildcard stands. -/
theorem satisfies_of_parseFloating (h : parseFloating (stem ++ ['*']) = .ok r) (hv : Version.parse version = .ok v)
    (hextends : stem <+: trimStart version.toList) (hstage : '-' ∈ stem ∨ v.isPrerelease = false) :
    r.satisfies v = true := by
  rcases parseFloating_eq_ok h with ⟨-, rfl⟩ | ⟨low, u, hlow, hu, rfl⟩
  · rfl
  · refine satisfies_floatingFrom ?_
    -- the pattern floats in its labels, after a hyphen, or in its numbers, after a dot
    rcases lowestText?_eq_some hlow with ⟨core, before, hcore, hstem, rfl⟩ | ⟨hcore, hstem⟩
    · have hstem' : stem ++ ['*'] = (core ++ '-' :: before) ++ ['*'] := by
        rw [hstem, List.append_assoc, List.cons_append]
      obtain rfl := List.append_cancel_right hstem'
      obtain ⟨rest, hrest⟩ := hextends
      rw [List.append_assoc, List.cons_append] at hrest
      refine Version.le_of_parse_of_append hu hv hcore String.toList_ofList hrest.symm ?_
      split
      · exact .inr rfl
      · exact .inl ((prefix_dropEndWhile _ before).trans (List.prefix_append before rest))
    · have hstem' : stem ++ ['*'] = (low ++ ['.']) ++ ['*'] := by
        rw [hstem, List.append_assoc, List.singleton_append]
      obtain rfl := List.append_cancel_right hstem'
      have hlow : '-' ∉ low := fun hc => hcore (by simp [hc])
      have hrelease : v.isPrerelease = false := hstage.resolve_left (by simpa using hlow)
      refine Version.le_of_parse_of_prefix hu hv ?_ (by simpa using hlow) hrelease
      rw [String.toList_ofList]
      exact (List.prefix_append low _).trans hextends

/-- A floating range admits every text that goes on where its wildcard stands, unless the text is a prerelease and the
pattern has no labels. -/
theorem floating_admits_extensions (h : parse text = .ok r)
    (hpattern : text.toList = stem ++ ['*'] ∨ r.floating = some (.ofList (stem ++ ['*'])))
    (hv : Version.parse version = .ok v) (hextends : stem <+: version.toList)
    (hstage : '-' ∈ stem ∨ v.isPrerelease = false) : r.satisfies v = true := by
  refine satisfies_of_parseFloating (parseFloating_of_parse h hpattern) hv (trimStart_prefix_trimStart hextends) ?_
  exact hstage.imp_left fun hlabels => mem_dropWhile hlabels rfl

/-- A label that floats between brackets goes on with a longer numeral, with a word and with metadata. -/
theorem floating_admits_extensions_of_beta :
    ∃ r v, parse "[1.0-beta.1*, )" = .ok r ∧ Version.parse "1.0-beta.10.RC+b" = .ok v ∧
      r.floating = some (.ofList ("1.0-beta.1".toList ++ ['*'])) ∧ "1.0-beta.1".toList <+: "1.0-beta.10.RC+b".toList ∧
        ('-' ∈ "1.0-beta.1".toList ∨ v.isPrerelease = false) ∧ r.satisfies v = true := by
  have hread : parse "[1.0-beta.1*, )" =
      .ok ⟨some ⟨1, 0, 0, 0, ["beta", "1"], none⟩, true, none, false, some "1.0-beta.1*", some "1.0-beta.1*"⟩ := by rfl
  have hversion : Version.parse "1.0-beta.10.RC+b" = .ok ⟨1, 0, 0, 0, ["beta", "10", "RC"], some "b"⟩ := by rfl
  have hextends : "1.0-beta.1".toList <+: "1.0-beta.10.RC+b".toList := by decide
  have hlabels : '-' ∈ "1.0-beta.1".toList := by decide
  exact ⟨_, _, hread, hversion, rfl, hextends, .inl hlabels,
    floating_admits_extensions hread (.inr rfl) hversion hextends (.inl hlabels)⟩

-- the beta of a release goes on from the pattern `1.0.*` but comes before `1.0`
example : (parseOrAll "1.0.*").satisfies ⟨1, 0, 0, 0, ["beta"], none⟩ = false := by rfl

end PackageGraph.VersionRange
