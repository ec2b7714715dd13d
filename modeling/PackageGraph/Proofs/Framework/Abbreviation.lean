import PackageGraph.Proofs.Framework.VersionText
import PackageGraph.Proofs.Framework.WellFormed
/-!
# The parts of a short name

A short name with a short spelling is made of letters, a version and a suffix after a hyphen, and each can be told from
it, but for the components that digits without points stand for. A full name is the only one with a comma, and says
everything but the platform.
-/
namespace PackageGraph.Moniker

open Text

/-! ## Suffixes -/

/-- What a suffix adds to a name. -/
def hyphenated (suffix : String) : List Char := if suffix.isEmpty then [] else '-' :: suffix.toList

theorem toList_withSuffix (name suffix : String) :
    (withSuffix name suffix).toList = name.toList ++ hyphenated suffix := by
  unfold withSuffix hyphenated
  split <;> simp

/-- A suffix is known by its hyphenated form. -/
theorem hyphenated_inj {s t : String} (h : hyphenated s = hyphenated t) : s = t := by
  unfold hyphenated at h
  split at h
  · rename_i hs
    split at h
    · rename_i ht
      rw [String.isEmpty_iff.1 hs, String.isEmpty_iff.1 ht]
    · cases h
  · split at h
    · cases h
    · exact String.toList_inj.1 (List.cons.inj h).2

/-- A name with a suffix tells which suffix it is. -/
theorem withSuffix_inj {name s t : String} (h : withSuffix name s = withSuffix name t) : s = t := by
  have hlist := congrArg String.toList h
  rw [toList_withSuffix, toList_withSuffix] at hlist
  exact hyphenated_inj (List.append_cancel_left hlist)

/-- A suffix that is there begins with a hyphen. -/
theorem eq_hyphen_of_head?_hyphenated (suffix : String) : ∀ c ∈ (hyphenated suffix).head?, c = '-' := by
  unfold hyphenated
  split <;> simp

theorem mem_hyphenated {suffix : String} {c : Char} (h : c ∈ hyphenated suffix) : c = '-' ∨ c ∈ suffix.toList := by
  unfold hyphenated at h
  split at h
  · cases h
  · exact List.mem_cons.1 h

/-- Without negative components, the hyphen after the digits of a version can only be that of the suffix. -/
theorem withSuffix_joinedVersion_inj {v w : List Int} {s t : String} (hv : ∀ n ∈ v, 0 ≤ n) (hw : ∀ n ∈ w, 0 ≤ n)
    (h : withSuffix (joinedVersion v) s = withSuffix (joinedVersion w) t) :
    joinedVersion v = joinedVersion w ∧ s = t := by
  have hlist := congrArg String.toList h
  rw [toList_withSuffix, toList_withSuffix] at hlist
  have hhyphen : ∀ suffix : String, ∀ c ∈ (hyphenated suffix).head?, c.isDigit = false := by
    intro suffix c hc
    rw [eq_hyphen_of_head?_hyphenated suffix c hc]
    rfl
  obtain ⟨hdigits, hsuffix⟩ := run_append_inj (fun _ => isDigit_of_mem_joinedVersion hv)
    (fun _ => isDigit_of_mem_joinedVersion hw) (hhyphen s) (hhyphen t) hlist
  exact ⟨String.toList_inj.1 hdigits, hyphenated_inj hsuffix⟩

/-! ## Abbreviations -/

/-- What a short name consists of when it begins with a short spelling. -/
structure Abbreviation where
  short : String
  isPointed : Bool
  version : List Int
  suffix : String

namespace Abbreviation

/-- The text of the version, with points or without. -/
def versionText (a : Abbreviation) : String :=
  if a.isPointed then pointedVersion a.version else joinedVersion a.version

/-- The short name. -/
def text (a : Abbreviation) : String := withSuffix (a.short ++ a.versionText) a.suffix

/-- What holds of every abbreviation of a framework that was read. -/
structure WellFormed (a : Abbreviation) : Prop where
  short : ∃ identifier, (a.short, identifier) ∈ shortSpellings
  version : 2 ≤ a.version.length
  suffix : ',' ∉ a.suffix.toList

/-- The abbreviations are equal, but for the components that digits without points may stand for. -/
structure Agrees (a b : Abbreviation) : Prop where
  short : a.short = b.short
  isPointed : a.isPointed = b.isPointed
  pointed : a.isPointed = true → a.version = b.version ∧ a.suffix = b.suffix
  joined : a.isPointed = false →
    withSuffix (joinedVersion a.version) a.suffix = withSuffix (joinedVersion b.version) b.suffix

variable {a b : Abbreviation}

/-- An abbreviation is written as letters, version and suffix. -/
theorem toList_text (a : Abbreviation) :
    a.text.toList = a.short.toList ++ (a.versionText.toList ++ hyphenated a.suffix) := by
  rw [text, toList_withSuffix, String.toList_append, List.append_assoc]

/-- A joined version and its suffix follow the letters. -/
theorem text_of_joined (h : a.isPointed = false) :
    a.text = a.short ++ withSuffix (joinedVersion a.version) a.suffix := by
  rw [text, versionText, h, if_neg Bool.false_ne_true]
  unfold withSuffix
  split
  · rfl
  · simp only [String.append_assoc]

theorem Agrees.symm (h : a.Agrees b) : b.Agrees a where
  short := h.short.symm
  isPointed := h.isPointed.symm
  pointed hb := ⟨(h.pointed (h.isPointed.trans hb)).1.symm, (h.pointed (h.isPointed.trans hb)).2.symm⟩
  joined hb := (h.joined (h.isPointed.trans hb)).symm

/-- A short spelling is made of letters and is not the beginning of `portable`. -/
theorem WellFormed.isAlpha_of_mem (ha : a.WellFormed) : ∀ c ∈ a.short.toList, c.isAlpha = true := by
  have hall : shortSpellings.all (fun s => s.1.toList.all Char.isAlpha) = true := by decide
  obtain ⟨identifier, hshort⟩ := ha.short
  exact List.all_eq_true.1 (List.all_eq_true.1 hall _ hshort)

theorem WellFormed.head?_ne (ha : a.WellFormed) : ∃ c cs, a.short.toList = c :: cs ∧ c ≠ 'p' := by
  have hall : shortSpellings.all (fun s => s.1.toList.head?.any (· != 'p')) = true := by decide
  obtain ⟨identifier, hshort⟩ := ha.short
  have hhead := List.all_eq_true.1 hall _ hshort
  cases hcs : a.short.toList with
  | nil => simp [hcs] at hhead
  | cons c cs => exact ⟨c, cs, rfl, by simpa [hcs] using hhead⟩

/-- The characters of a version are no letters and no commas. -/
theorem mem_versionText {c : Char} (h : c ∈ a.versionText.toList) : c = '.' ∨ c = '-' ∨ c.isDigit = true := by
  unfold versionText at h
  split at h
  · exact mem_pointedVersion h
  · exact .inr (mem_joinedVersion h)

/-- No digit is a letter. -/
theorem not_isAlpha_of_isDigit {c : Char} (h : c.isDigit = true) : c.isAlpha = false := by
  have hhigh : c.toNat ≤ 57 := (Char.isDigit_iff_toNat.1 h).2
  rw [Bool.eq_false_iff]
  intro halpha
  have hlow : 65 ≤ c.toNat := by
    have hletter : (c.val ≥ 'A'.val ∧ c.val ≤ 'Z'.val) ∨ (c.val ≥ 'a'.val ∧ c.val ≤ 'z'.val) := by
      have hcases : (decide (c.val ≥ 'A'.val ∧ c.val ≤ 'Z'.val) ||
          (decide (c.val ≥ 'a'.val) && decide (c.val ≤ 'z'.val))) = true := halpha
      simpa using hcases
    simp only [ge_iff_le, UInt32.le_iff_toNat_le] at hletter
    rcases hletter with ⟨hletter, -⟩ | ⟨hletter, -⟩
    · exact hletter
    · exact le_trans (by decide) hletter
  omega

/-- The letters of a short name end where its version begins. -/
theorem not_isAlpha_of_head? (a : Abbreviation) :
    ∀ c ∈ (a.versionText.toList ++ hyphenated a.suffix).head?, c.isAlpha = false := by
  intro c hc
  cases hversion : a.versionText.toList with
  | nil =>
    rw [hversion, List.nil_append] at hc
    rw [eq_hyphen_of_head?_hyphenated a.suffix c hc]
    rfl
  | cons d cs =>
    rw [hversion] at hc
    obtain rfl : d = c := Option.some.inj hc
    rcases mem_versionText (hversion ▸ List.mem_cons_self : d ∈ a.versionText.toList) with rfl | rfl | hdigit
    · rfl
    · rfl
    · exact not_isAlpha_of_isDigit hdigit

/-- What a short name consists of can be told from it. -/
theorem agrees_of_text_eq (ha : a.WellFormed) (hb : b.WellFormed) (h : a.text = b.text) : a.Agrees b := by
  have hlist := congrArg String.toList h
  rw [toList_text, toList_text] at hlist
  obtain ⟨hshort, hrest⟩ := run_append_inj ha.isAlpha_of_mem hb.isAlpha_of_mem a.not_isAlpha_of_head?
    b.not_isAlpha_of_head? hlist
  -- a version has two components at least
  have hneVersion : ∀ {a : Abbreviation}, a.WellFormed → a.version ≠ [] := by
    intro a ha hnil
    have hlength := ha.version
    simp [hnil] at hlength
  have hhyphen : ∀ suffix : String, ∀ c ∈ (hyphenated suffix).head?, isVersionChar c = false := by
    intro suffix c hc
    rw [eq_hyphen_of_head?_hyphenated suffix c hc]
    rfl
  unfold versionText at hrest
  cases hpa : a.isPointed with
  | true =>
    cases hpb : b.isPointed with
    | true =>
      rw [hpa, hpb, if_pos rfl, if_pos rfl] at hrest
      obtain ⟨hversion, hsuffix⟩ := pointedVersion_append_inj (hneVersion ha) (hneVersion hb)
        (hhyphen a.suffix) (hhyphen b.suffix) hrest
      refine ⟨String.toList_inj.1 hshort, hpa.trans hpb.symm, fun _ => ⟨hversion, hyphenated_inj hsuffix⟩, ?_⟩
      intro hnot
      rw [hpa] at hnot
      cases hnot
    | false =>
      rw [hpa, hpb, if_pos rfl, if_neg Bool.false_ne_true] at hrest
      -- a version with points and one without cannot be written alike
      exact absurd hrest (pointedVersion_append_ne_joinedVersion_append ha.version (hneVersion hb)
        (eq_hyphen_of_head?_hyphenated b.suffix))
  | false =>
    cases hpb : b.isPointed with
    | true =>
      rw [hpa, hpb, if_neg Bool.false_ne_true, if_pos rfl] at hrest
      exact absurd hrest.symm (pointedVersion_append_ne_joinedVersion_append hb.version (hneVersion ha)
        (eq_hyphen_of_head?_hyphenated a.suffix))
    | false =>
      rw [hpa, hpb, if_neg Bool.false_ne_true, if_neg Bool.false_ne_true] at hrest
      refine ⟨String.toList_inj.1 hshort, hpa.trans hpb.symm, fun hyes => ?_, fun _ => ?_⟩
      · rw [hpa] at hyes
        cases hyes
      · apply String.toList_inj.1
        rw [toList_withSuffix, toList_withSuffix, hrest]

/-- There is no comma in a well-formed abbreviation. -/
theorem WellFormed.comma_notMem_text (ha : a.WellFormed) : ',' ∉ a.text.toList := by
  rw [toList_text, List.mem_append, List.mem_append]
  rintro (hc | hc | hc)
  · exact absurd (ha.isAlpha_of_mem ',' hc) (by decide)
  · rcases mem_versionText hc with hc | hc | hc <;> exact absurd hc (by decide)
  · rcases mem_hyphenated hc with hc | hc
    · exact absurd hc (by decide)
    · exact ha.suffix hc

/-- A short name with a short spelling is none of a portable framework. -/
theorem WellFormed.text_ne_portable (ha : a.WellFormed) (profile : String) :
    a.text ≠ withSuffix "portable" profile := by
  intro h
  obtain ⟨c, cs, hshort, hc⟩ := ha.head?_ne
  have hlist := congrArg String.toList h
  rw [toList_text, toList_withSuffix, hshort] at hlist
  exact hc (List.cons.inj hlist).1

end Abbreviation

/-- The abbreviation of a framework with a version; none for an identifier without a short spelling. -/
def abbreviation? (m : Moniker) : Option Abbreviation :=
  if m.isModern then some ⟨"net", true, m.version, m.platform⟩
  else (shortOf? m.identifier).map fun short => ⟨short, keepsPoints m.identifier, m.version, lower m.profile⟩

/-- The short name of a framework with a version is an abbreviation or the full name. -/
theorem shortName_of_versioned {m : Moniker} (hm : m.identifier ≠ netPortable) (hv : m.version ≠ []) :
    m.shortName = (m.abbreviation?.map Abbreviation.text).getD m.fullName := by
  have hversion : m.version.isEmpty = false := by simpa using hv
  have hportable : (m.identifier == netPortable) = false := beq_eq_false_iff_ne.2 hm
  rw [shortName, hportable, hversion, abbreviation?]
  cases hmodern : m.isModern with
  | true => rfl
  | false =>
    cases hshort : shortOf? m.identifier with
    | none => simp
    | some short =>
      cases hpoints : keepsPoints m.identifier <;>
        simp [Abbreviation.text, Abbreviation.versionText, joinedVersion]

/-- A short spelling stands in the table beside an identifier that differs in letter case at most. -/
theorem mem_shortSpellings_of_shortOf? {identifier short : String} (h : shortOf? identifier = some short) :
    ∃ full, (short, full) ∈ shortSpellings ∧ lower full = lower identifier := by
  obtain ⟨⟨s, full⟩, hs, rfl⟩ := Option.map_eq_some_iff.1 h
  exact ⟨full, List.mem_of_find?_eq_some hs, by simpa using List.find?_some hs⟩

/-- The abbreviation of a well-formed name with a version is well formed. -/
theorem wellFormed_abbreviation? {m : Moniker} (hm : m.WellFormed) (hv : m.version ≠ []) {a : Abbreviation}
    (h : m.abbreviation? = some a) : a.WellFormed := by
  have hlength : 2 ≤ m.version.length := by
    rcases hm.version with hnil | hlength
    · exact absurd hnil hv
    · exact hlength
  unfold abbreviation? at h
  split at h
  · obtain rfl := Option.some.inj h
    exact ⟨⟨netFramework, List.mem_cons_self⟩, hlength, hm.platform⟩
  · obtain ⟨short, hshort, rfl⟩ := Option.map_eq_some_iff.1 h
    obtain ⟨full, hmem, -⟩ := mem_shortSpellings_of_shortOf? hshort
    refine ⟨⟨full, hmem⟩, hlength, ?_⟩
    show ',' ∉ (String.ofList (lowerChars m.profile.toList)).toList
    rw [String.toList_ofList]
    exact fun hc => hm.profile (mem_of_mem_lowerChars isMark_comma hc)

/-! ## Full names -/

/-- What the profile adds to a full name. -/
def profileText (profile : String) : List Char := if profile.isEmpty then [] else (",Profile=" ++ profile).toList

/-- A full name is the identifier, the version and the profile, each with its mark. -/
theorem toList_fullName {m : Moniker} (hv : m.version ≠ []) :
    m.fullName.toList = m.identifier.toList ++
      (",Version=v".toList ++ ((pointedVersion m.version).toList ++ profileText m.profile)) := by
  have hversion : m.version.isEmpty = false := by simpa using hv
  rw [fullName, hversion, profileText]
  cases hprofile : m.profile.isEmpty <;> simp

/-- There is a comma in every full name with a version. -/
theorem comma_mem_fullName {m : Moniker} (hv : m.version ≠ []) : ',' ∈ m.fullName.toList := by
  rw [toList_fullName hv]
  exact List.mem_append_right _ (List.mem_append_left _ (by decide))

/-- A profile is known by its text. -/
theorem profileText_inj {s t : String} (h : profileText s = profileText t) : s = t := by
  unfold profileText at h
  split at h
  · rename_i hs
    split at h
    · rename_i ht
      rw [String.isEmpty_iff.1 hs, String.isEmpty_iff.1 ht]
    · simp at h
  · split at h
    · simp at h
    · exact String.toList_inj.1 (by simpa using h)

/-- A full name says everything of a framework with a version but its platform. -/
theorem fullName_inj {f g : Moniker} (hf : f.WellFormed) (hg : g.WellFormed) (hfv : f.version ≠ [])
    (hgv : g.version ≠ []) (h : f.fullName = g.fullName) :
    f.identifier = g.identifier ∧ f.version = g.version ∧ f.profile = g.profile := by
  have hlist := congrArg String.toList h
  rw [toList_fullName hfv, toList_fullName hgv] at hlist
  have hnotComma : ∀ {cs : List Char}, ',' ∉ cs → ∀ c ∈ cs, (c != ',') = true := by
    intro cs hcs c hc
    exact bne_iff_ne.2 fun heq => hcs (heq ▸ hc)
  have hprofile : ∀ profile : String, ∀ c ∈ (profileText profile).head?, isVersionChar c = false := by
    intro profile c hc
    unfold profileText at hc
    split at hc
    · cases hc
    · obtain rfl : ',' = c := by simpa using hc
      rfl
  -- the identifier ends at the first comma, and the version where its digits and points do
  obtain ⟨hidentifier, hrest⟩ :=
    run_append_inj (hnotComma (hf.identifier hfv)) (hnotComma (hg.identifier hgv)) (by simp) (by simp) hlist
  obtain ⟨hversion, hrest⟩ := pointedVersion_append_inj hfv hgv (hprofile f.profile) (hprofile g.profile)
    (List.append_cancel_left hrest)
  exact ⟨String.toList_inj.1 hidentifier, hversion, profileText_inj hrest⟩

end PackageGraph.Moniker
