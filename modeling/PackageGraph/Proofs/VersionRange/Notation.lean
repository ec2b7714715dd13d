import PackageGraph.Proofs.Except
import PackageGraph.Proofs.Version.Notation
import PackageGraph.VersionRange.Parser
/-!
# The normalized form of a range

A range that was read either is the reading of its pattern or has bounds that were checked against each other. In
both cases its normalized form is read back as an equal range. Bounds are written without their metadata, and a
range that singles out a version is written with the lower bound alone.
-/
namespace PackageGraph.VersionRange

open Text

/-! ## Patterns -/

/-- The star is the last character of a pattern. -/
theorem eq_append_of_beforeStar? {cs before : List Char} (h : beforeStar? cs = some before) :
    cs = before ++ ['*'] := by
  unfold beforeStar? at h
  split at h
  · rename_i rest hrest
    split at h
    · cases h
    · obtain rfl := Option.some.inj h
      rw [← List.reverse_reverse cs, hrest, List.reverse_cons]
  · cases h

/-- The lowest version of a pattern: its labels without the wildcard and points before it, or a zero in their place; or
its numbers without the one that floats. -/
theorem lowestText?_eq_some {pattern low : List Char} (h : lowestText? pattern = some low) :
    (∃ core before, '-' ∉ core ∧ pattern = core ++ '-' :: (before ++ ['*']) ∧ low = core ++ '-' ::
        if (dropEndWhile (· == '.') before).isEmpty then ['0'] else dropEndWhile (· == '.') before) ∨
      ('-' ∉ pattern ∧ pattern = low ++ ['.', '*']) := by
  unfold lowestText? at h
  split at h
  · rename_i core label hcut
    obtain ⟨rfl, hcore⟩ := eq_append_of_cut_eq_some hcut
    split at h
    · cases h
    · obtain ⟨before, hbefore, rfl⟩ := Option.map_eq_some_iff.1 h
      obtain rfl := eq_append_of_beforeStar? hbefore
      exact .inl ⟨core, before, hcore, rfl, rfl⟩
  · rename_i hcut
    split at h
    · cases h
    · rename_i before hbefore
      obtain rfl := eq_append_of_beforeStar? hbefore
      split at h
      · rename_i rest hrest
        obtain rfl := Option.some.inj h
        obtain rfl : before = rest.reverse ++ ['.'] := by
          rw [← List.reverse_reverse before, hrest, List.reverse_cons]
        exact .inr ⟨notMem_of_cut_eq_none hcut, List.append_assoc _ _ _⟩
      · cases h

/-- A pattern has a wildcard, and its lowest version loses nothing else than the wildcard and points before it. -/
theorem of_lowestText? {pattern low : List Char} (h : lowestText? pattern = some low) :
    '*' ∈ pattern ∧ ∀ c ∈ pattern, c ∈ low ∨ c = '*' ∨ c = '.' := by
  rcases lowestText?_eq_some h with ⟨core, before, -, rfl, rfl⟩ | ⟨-, rfl⟩
  · refine ⟨by simp, fun c hc => ?_⟩
    simp only [List.mem_append, List.mem_cons, List.not_mem_nil, or_false] at hc ⊢
    rcases hc with hc | hc | hc | hc
    · exact .inl (.inl hc)
    · exact .inl (.inr (.inl hc))
    · -- points at the end of a label are dropped with the wildcard
      by_cases hdot : c = '.'
      · exact .inr (.inr hdot)
      · have hkept : c ∈ dropEndWhile (· == '.') before :=
          mem_dropEndWhile hc (beq_eq_false_iff_ne.2 hdot)
        rw [if_neg (by simpa using List.ne_nil_of_mem hkept)]
        exact .inl (.inr (.inr hkept))
    · exact .inr (.inl hc)
  · refine ⟨by simp, fun c hc => ?_⟩
    simp only [List.mem_append, List.mem_cons, List.not_mem_nil, or_false] at hc
    exact hc.imp_right Or.symm

/-- A floating range admits every version, or what is not below the lowest version of its pattern. -/
theorem parseFloating_eq_ok {pattern : List Char} {r : VersionRange} (h : parseFloating pattern = .ok r) :
    (pattern = ['*'] ∧ r = { all with written := some "*" }) ∨
      ∃ low v, lowestText? pattern = some low ∧ Version.parse (.ofList low) = .ok v ∧ r = floatingFrom v pattern := by
  unfold parseFloating at h
  split at h
  · exact .inl ⟨‹_›, (Except.ok.inj h).symm⟩
  · split at h
    · cases h
    · rename_i low hlow
      obtain ⟨v, hv, rfl⟩ := Except.map_eq_ok_iff.1 h
      exact .inr ⟨low, v, hlow, hv, rfl⟩

/-! ## Ranges that were read -/

/-- The range has no pattern, bounds that can be written, and an interval that is not refused. -/
structure Plain (r : VersionRange) : Prop where
  floating : r.floating = none
  min : ∀ v, r.min = some v → v.WellFormed
  max : ∀ v, r.max = some v → v.WellFormed
  minInclusive : r.minInclusive = true → r.min.isSome = true
  maxInclusive : r.maxInclusive = true → r.max.isSome = true
  bounds : r.isComparable = true →
    ∀ text, checkBounds text (r.minInclusive && r.maxInclusive) r.min r.max = .ok ()

/-- The range is the reading of its pattern, which can be put between brackets. -/
structure Patterned (r : VersionRange) (pattern : List Char) : Prop where
  floating : r.floating = some (.ofList pattern)
  reading : parseFloating pattern = .ok r
  trimmed : trimChars pattern = pattern
  wildcard : '*' ∈ pattern
  noComma : ',' ∉ pattern

/-- The range has one of the forms of ranges that were read. -/
def WellFormed (r : VersionRange) : Prop := Plain r ∨ ∃ pattern, Patterned r pattern

theorem plain_all (written : Option String) : Plain { all with written := written } where
  floating := rfl
  min := by simp [all]
  max := by simp [all]
  minInclusive := by simp [all]
  maxInclusive := by simp [all]
  bounds _ _ := rfl

theorem plain_atLeast {v : Version} (hv : v.WellFormed) (written : Option String) : Plain (atLeast v written) where
  floating := rfl
  min w hw := Option.some.inj hw ▸ hv
  max := by simp [atLeast]
  minInclusive _ := rfl
  maxInclusive := by simp [atLeast]
  bounds _ _ := rfl

theorem plain_exactly {v : Version} (hv : v.WellFormed) (written : Option String) : Plain (exactly v written) where
  floating := rfl
  min w hw := Option.some.inj hw ▸ hv
  max w hw := Option.some.inj hw ▸ hv
  minInclusive _ := rfl
  maxInclusive _ := rfl
  bounds hc text := by
    have hcomparable : v.isComparable = true := by simpa [isComparable, exactly] using hc
    have hequal : v.compare v = .eq := Version.beq_iff.1 (Version.beq_refl v)
    simp [exactly, checkBounds, hcomparable, hequal]

/-- A pattern that is read floats from a well-formed version. -/
theorem wellFormed_of_parseFloating {pattern : List Char} {r : VersionRange} (htrim : trimChars pattern = pattern)
    (h : parseFloating pattern = .ok r) : WellFormed r := by
  rcases parseFloating_eq_ok h with ⟨-, rfl⟩ | ⟨low, v, hlow, hv, rfl⟩
  · exact .inl (plain_all _)
  · obtain ⟨hstar, hmem⟩ := of_lowestText? hlow
    refine .inr ⟨pattern, rfl, h, htrim, hstar, fun hcomma => ?_⟩
    -- The lowest version would hold the comma too, and no version does.
    rcases hmem _ hcomma with hcomma | hcomma | hcomma
    · have hchar := Version.isTextChar_of_parse hv ',' (mem_trimChars (by simpa using hcomma) rfl)
      exact absurd hchar (by decide)
    · cases hcomma
    · cases hcomma

theorem wellFormed_of_parseBound {cs : List Char} {bound : Option Version} (h : parseBound cs = .ok bound) :
    ∀ v, bound = some v → v.WellFormed := by
  rintro v rfl
  unfold parseBound at h
  split at h
  · cases h
  · obtain ⟨w, hw, hv⟩ := Except.map_eq_ok_iff.1 h
    exact Option.some.inj hv ▸ Version.wellFormed_of_parse hw

/-- The check of the bounds depends on the text in its message alone. -/
theorem checkBounds_eq_ok {text : String} {inclusive : Bool} {low high : Option Version}
    (h : checkBounds text inclusive low high = .ok ()) (text' : String) :
    checkBounds text' inclusive low high = .ok () := by
  unfold checkBounds at h ⊢
  split
  · split
    · split <;> simp_all
    · simp_all
  · rfl

/-- An interval that is read has well-formed bounds and no pattern. -/
theorem plain_of_parseInterval {text : String} {written left right : List Char} {low high : Bool}
    {r : VersionRange} (h : parseInterval text written low high left right = .ok r) : Plain r := by
  unfold parseInterval at h
  obtain ⟨min, hmin, h⟩ := Except.bind_eq_ok_iff.1 h
  obtain ⟨max, hmax, h⟩ := Except.bind_eq_ok_iff.1 h
  obtain ⟨⟨⟩, hcheck, h⟩ := Except.bind_eq_ok_iff.1 h
  obtain rfl := Except.pure_eq_ok_iff.1 h
  refine ⟨rfl, wellFormed_of_parseBound hmin, wellFormed_of_parseBound hmax, ?_, ?_, fun _ text' => ?_⟩
  · simp
  · simp
  · have hcheck' := checkBounds_eq_ok hcheck text'
    cases min with
    | none => rfl
    | some min =>
      cases max with
      | none => rfl
      | some max => simpa using hcheck'

theorem wellFormed_of_parseBracketed {text : String} {written inner : List Char} {low high : Bool}
    {r : VersionRange} (h : parseBracketed text written low high inner = .ok r) : WellFormed r := by
  unfold parseBracketed at h
  split at h
  · split at h
    · obtain ⟨v, hv, rfl⟩ := Except.map_eq_ok_iff.1 h
      exact .inl (plain_exactly (Version.wellFormed_of_parse hv) _)
    · cases h
  · split at h
    · cases h
    · split at h
      · exact wellFormed_of_parseFloating (trimChars_trimChars _) h
      · exact .inl (plain_of_parseInterval h)

/-- A range that was read has one of the two forms. -/
theorem wellFormed_of_parse {text : String} {r : VersionRange} (h : parse text = .ok r) : WellFormed r := by
  -- only that the text is trimmed counts from here on
  have htrim := trimChars_trimChars text.toList
  unfold parse at h
  generalize trimChars text.toList = cs at h htrim
  unfold parseTrimmed at h
  split at h
  · obtain rfl := Except.ok.inj h
    exact .inl (plain_all none)
  · rename_i c cs
    split at h
    · split at h
      · exact wellFormed_of_parseFloating htrim h
      · obtain ⟨v, hv, rfl⟩ := Except.map_eq_ok_iff.1 h
        exact .inl (plain_atLeast (Version.wellFormed_of_parse hv) _)
    · split at h
      · split at h
        · split at h
          · cases h
          · exact wellFormed_of_parseBracketed h
        · cases h
      · cases h

/-! ## White space around a range -/

/-- The text that is read is passed on for messages alone. -/
theorem toOption_checkBounds (text text' : String) (inclusive : Bool) (low high : Option Version) :
    (checkBounds text inclusive low high).toOption = (checkBounds text' inclusive low high).toOption := by
  unfold checkBounds
  split
  · split
    · split
      · rfl
      · cases inclusive <;> rfl
      · rfl
    · rfl
  · rfl

theorem toOption_parseInterval (text text' : String) (written left right : List Char) (low high : Bool) :
    (parseInterval text written low high left right).toOption =
      (parseInterval text' written low high left right).toOption := by
  simp only [parseInterval, Except.toOption_bind, toOption_checkBounds text text']

theorem toOption_parseBracketed (text text' : String) (written inner : List Char) (low high : Bool) :
    (parseBracketed text written low high inner).toOption = (parseBracketed text' written low high inner).toOption := by
  unfold parseBracketed
  split
  · split <;> rfl
  · split
    · rfl
    · split
      · rfl
      · exact toOption_parseInterval ..

theorem toOption_parseTrimmed (text text' : String) (cs : List Char) :
    (parseTrimmed text cs).toOption = (parseTrimmed text' cs).toOption := by
  unfold parseTrimmed
  split
  · rfl
  · split
    · rfl
    · split
      · split
        · split
          · rfl
          · exact toOption_parseBracketed ..
        · rfl
      · rfl

/-- White space around a range has no influence. -/
theorem parseOrAll_trim (text : String) : parseOrAll (trim text) = parseOrAll text := by
  have htrim : trimChars (trim text).toList = trimChars text.toList := by
    rw [trim, String.toList_ofList, trimChars_trimChars]
  rw [parseOrAll, parseOrAll, parse, parse, htrim, toOption_parseTrimmed (trim text) text]

/-! ## Reading what stands between brackets -/

theorem not_isBlank_of_opening? {c : Char} {included : Bool} (h : opening? c = some included) :
    isBlank c = false := by
  unfold opening? at h
  split at h
  · subst c
    rfl
  · split at h
    · subst c
      rfl
    · cases h

theorem not_isBlank_of_closing? {c : Char} {included : Bool} (h : closing? c = some included) :
    isBlank c = false := by
  unfold closing? at h
  split at h
  · subst c
    rfl
  · split at h
    · subst c
      rfl
    · cases h

section Bracketed

variable {text : String} {opening closing : Char} {low high : Bool}

/-- A text between brackets is read as what stands between them. -/
theorem parse_eq_parseBracketed {inner : List Char} (htext : text.toList = opening :: (inner ++ [closing]))
    (hopening : opening? opening = some low) (hclosing : closing? closing = some high) (hinner : inner ≠ []) :
    parse text = parseBracketed text text.toList low high inner := by
  have htrim : trimChars text.toList = opening :: (inner ++ [closing]) := by
    rw [htext]
    -- the brackets at both ends are no white space, whatever stands between them
    refine trimChars_eq_self (fun c hc => ?_) fun c hc => ?_
    · exact Option.some.inj hc ▸ not_isBlank_of_opening? hopening
    · rw [← List.cons_append, List.getLast?_concat] at hc
      exact Option.some.inj hc ▸ not_isBlank_of_closing? hclosing
  have hreverse : (inner ++ [closing]).reverse = closing :: inner.reverse := by simp
  rw [parse, htrim, parseTrimmed]
  simp only [hopening, hreverse, hclosing]
  rw [if_neg (by simpa using hinner), List.reverse_reverse, htext]

/-- A single version between brackets that both include it. -/
theorem parse_single {inner : List Char} (htext : text.toList = '[' :: (inner ++ [']'])) (hinner : inner ≠ [])
    (hcomma : ',' ∉ inner) :
    parse text = (Version.parse (.ofList inner)).map (exactly · (some (.ofList text.toList))) := by
  rw [parse_eq_parseBracketed htext rfl rfl hinner, parseBracketed]
  simp [cut_of_notMem hcomma]

/-- Two bounds between brackets, with a comma between them. -/
theorem parse_interval {left right : List Char}
    (htext : text.toList = opening :: ((left ++ ',' :: right) ++ [closing]))
    (hopening : opening? opening = some low) (hclosing : closing? closing = some high)
    (hstar : '*' ∉ left) (hleft : ',' ∉ left) (hright : ',' ∉ right) :
    parse text = parseInterval text text.toList low high left right := by
  rw [parse_eq_parseBracketed htext hopening hclosing (by simp), parseBracketed, cut_append_cons hleft]
  simp [hright, hstar]

/-- A pattern between brackets, with a comma and no upper bound after it. -/
theorem parse_pattern {pattern : List Char} (htext : text.toList = '[' :: ((pattern ++ [',', ' ']) ++ [')']))
    (htrim : trimChars pattern = pattern) (hstar : '*' ∈ pattern) (hcomma : ',' ∉ pattern) :
    parse text = parseFloating pattern := by
  have hblank : isBlank ' ' = true := rfl
  rw [parse_eq_parseBracketed htext rfl rfl (by simp), parseBracketed, cut_append_cons hcomma]
  simp [hstar, htrim, hblank]

end Bracketed

/-! ## Reading the normalized form -/

section Bound

variable {bound : Option Version} (hbound : ∀ v, bound = some v → v.WellFormed)

include hbound

/-- A bound is printed in dots, hyphens and the characters of labels. -/
theorem notMem_boundText {c : Char} (hlabel : Version.isLabelChar c = false) (hdot : c ≠ '.') :
    c ∉ (boundText bound).toList := by
  intro hc
  cases bound with
  | none => simp [boundText] at hc
  | some v =>
    rcases Version.mem_normalized (hbound v rfl) hc with h | h
    · rw [hlabel] at h
      cases h
    · exact hdot h

/-- A bound is read back from its normalized form, with or without white space before it. -/
theorem parseBound_boundText : parseBound (boundText bound).toList = .ok (bound.map Version.withoutMetadata) ∧
    parseBound (' ' :: (boundText bound).toList) = .ok (bound.map Version.withoutMetadata) := by
  cases bound with
  | none => exact ⟨rfl, rfl⟩
  | some v =>
    have hv := hbound v rfl
    have hread := Version.parse_normalized hv
    have hnotBlank : v.normalized.toList.all isBlank = false := by
      obtain ⟨c, hc⟩ := List.exists_mem_of_ne_nil _ (Version.toList_normalized_ne_nil v)
      exact List.all_eq_false.2 ⟨c, hc, by simp [Version.not_isBlank_of_mem_normalized hv hc]⟩
    have htrim : trimChars v.normalized.toList = trimChars (String.ofList (' ' :: v.normalized.toList)).toList := by
      rw [String.toList_ofList, trimChars_cons_of_isBlank rfl]
    have hread' := Version.parse_eq_ok_of_trimChars_eq htrim hread
    constructor
    · simp [parseBound, boundText, hnotBlank, hread, Except.map]
    · show parseBound (' ' :: v.normalized.toList) = .ok (some v.withoutMetadata)
      rw [parseBound, if_neg (by simp [hnotBlank]), hread']
      rfl

end Bound

theorem map_withoutMetadata_beq (bound : Option Version) :
    (bound.map Version.withoutMetadata == bound) = true := by
  cases bound with
  | none => rfl
  | some v => exact v.withoutMetadata_beq

theorem boundText_withoutMetadata (bound : Option Version) :
    boundText (bound.map Version.withoutMetadata) = boundText bound := by
  cases bound with
  | none => rfl
  | some v => exact v.normalized_withoutMetadata

/-- The check of the bounds does not look at metadata. -/
theorem checkBounds_withoutMetadata (text : String) (inclusive : Bool) (low high : Option Version) :
    checkBounds text inclusive (low.map Version.withoutMetadata) (high.map Version.withoutMetadata) =
      checkBounds text inclusive low high := by
  cases low <;> cases high <;> rfl

theorem beq_refl (r : VersionRange) : (r == r) = true := by
  show r.same r = true
  simp [same]

theorem beq_iff {r s : VersionRange} : (r == s) = true ↔
    (r.min == s.min) = true ∧ r.minInclusive = s.minInclusive ∧ (r.max == s.max) = true ∧
      r.maxInclusive = s.maxInclusive ∧ r.floating = s.floating := by
  show r.same s = true ↔ _
  simp [same, and_assoc]

theorem bound_beq_symm {a b : Option Version} (h : (a == b) = true) : (b == a) = true := by
  cases a with
  | none => cases b <;> simp_all
  | some v =>
    cases b with
    | none => simp at h
    | some w => exact Version.beq_symm h

theorem bound_beq_trans {a b c : Option Version} (hab : (a == b) = true) (hbc : (b == c) = true) :
    (a == c) = true := by
  cases a with
  | none => cases b <;> simp_all
  | some u =>
    cases b with
    | none => simp at hab
    | some v =>
      cases c with
      | none => simp at hbc
      | some w => exact Version.beq_trans hab hbc

instance : EquivBEq VersionRange where
  rfl := beq_refl _
  symm h := by
    obtain ⟨hmin, hminInclusive, hmax, hmaxInclusive, hfloating⟩ := beq_iff.1 h
    exact beq_iff.2 ⟨bound_beq_symm hmin, hminInclusive.symm, bound_beq_symm hmax, hmaxInclusive.symm, hfloating.symm⟩
  trans h h' := by
    obtain ⟨hmin, hminInclusive, hmax, hmaxInclusive, hfloating⟩ := beq_iff.1 h
    obtain ⟨hmin', hminInclusive', hmax', hmaxInclusive', hfloating'⟩ := beq_iff.1 h'
    exact beq_iff.2 ⟨bound_beq_trans hmin hmin', hminInclusive.trans hminInclusive', bound_beq_trans hmax hmax',
      hmaxInclusive.trans hmaxInclusive', hfloating.trans hfloating'⟩

/-- The range with bounds that have no metadata, read from another text. -/
def rewritten (r : VersionRange) (written : Option String) : VersionRange :=
  { r with min := r.min.map Version.withoutMetadata, max := r.max.map Version.withoutMetadata, written := written }

/-- How a range was written does not count in comparison. -/
theorem rewritten_beq (r : VersionRange) (written : Option String) : (r.rewritten written == r) = true := by
  show (r.rewritten written).same r = true
  simp [same, rewritten, map_withoutMetadata_beq]

/-- How a range was written does not show in its normalized text. -/
theorem normalized_rewritten (r : VersionRange) (written : Option String) :
    (r.rewritten written).normalized = r.normalized := by
  have hsingle : (r.rewritten written).singleVersion? = r.singleVersion?.map Version.withoutMetadata := by
    unfold singleVersion? rewritten
    cases r.min with
    | none => rfl
    | some low =>
      cases r.max with
      | none => rfl
      | some high =>
        have hbeq : (low.withoutMetadata == high.withoutMetadata) = (low == high) := rfl
        simp only [Option.map_some, hbeq]
        split <;> rfl
  have hinterval : (r.rewritten written).intervalText = r.intervalText := by
    simp [intervalText, rewritten, boundText_withoutMetadata]
  unfold normalized
  rw [hsingle, hinterval]
  cases r.singleVersion? <;> rfl

theorem isComparable_rewritten (r : VersionRange) (written : Option String) :
    (r.rewritten written).isComparable = r.isComparable := by
  unfold isComparable rewritten
  cases r.min <;> cases r.max <;> rfl

theorem toList_intervalText (r : VersionRange) : r.intervalText.toList =
    (if r.minInclusive && r.min.isSome then '[' else '(') ::
      (((boundText r.min).toList ++ ',' :: ' ' :: (boundText r.max).toList) ++
        [if r.maxInclusive && r.max.isSome then ']' else ')']) := by
  unfold intervalText
  split <;> split <;> simp

/-- An interval is read back from its bounds if these are not refused. -/
theorem parse_intervalText {r : VersionRange} (hr : Plain r)
    (hbounds : ∀ text, checkBounds text (r.minInclusive && r.maxInclusive) r.min r.max = .ok ()) :
    parse r.intervalText = .ok (r.rewritten (some r.intervalText)) := by
  have hmin : r.minInclusive = true → r.min.isSome = true := hr.minInclusive
  have hmax : r.maxInclusive = true → r.max.isSome = true := hr.maxInclusive
  -- A missing bound is never included, so the brackets say what the flags say.
  have hlow : (r.minInclusive && r.min.isSome) = r.minInclusive := by
    cases hi : r.minInclusive <;> simp_all
  have hhigh : (r.maxInclusive && r.max.isSome) = r.maxInclusive := by
    cases hi : r.maxInclusive <;> simp_all
  have hopening : opening? (if r.minInclusive && r.min.isSome then '[' else '(') = some r.minInclusive := by
    rw [hlow]
    cases r.minInclusive <;> rfl
  have hclosing : closing? (if r.maxInclusive && r.max.isSome then ']' else ')') = some r.maxInclusive := by
    rw [hhigh]
    cases r.maxInclusive <;> rfl
  have hright : ',' ∉ ' ' :: (boundText r.max).toList := by
    simpa using notMem_boundText hr.max rfl (by decide)
  rw [parse_interval (toList_intervalText r) hopening hclosing (notMem_boundText hr.min rfl (by decide))
    (notMem_boundText hr.min rfl (by decide)) hright, parseInterval, (parseBound_boundText hr.min).1,
    (parseBound_boundText hr.max).2]
  simp only [bind, Except.bind, checkBounds_withoutMetadata, hbounds, Option.isSome_map, hlow, hhigh,
    String.ofList_toList]
  rw [← hr.floating]
  rfl

/-- The bounds of a range that singles out a version include it and are equal to it. -/
theorem of_singleVersion? {r : VersionRange} {v : Version} (h : r.singleVersion? = some v) :
    r.min = some v ∧ r.minInclusive = true ∧ r.maxInclusive = true ∧
      ∃ high, r.max = some high ∧ (v == high) = true := by
  unfold singleVersion? at h
  split at h
  · rename_i low high hlow hhigh
    rw [Option.ite_none_right_eq_some] at h
    obtain ⟨hbounds, rfl⟩ : _ ∧ low = v := by simpa using h
    exact ⟨hlow, hbounds.1.1, hbounds.1.2, high, hhigh, hbounds.2⟩
  · cases h

/-- The normalized form is read back as an equal range, which is written in the same way. -/
def ReadsBack (r : VersionRange) : Prop :=
  ∃ s, parse r.normalized = .ok s ∧ (s == r) = true ∧ s.normalized = r.normalized ∧ s.isComparable = true

/-- A range that singles out a version is written with its lower bound alone, and read back with that as both
bounds. -/
theorem parse_normalized_of_singleVersion? {r : VersionRange} {v : Version} (hr : Plain r)
    (hsingle : r.singleVersion? = some v) :
    parse r.normalized = .ok (exactly v.withoutMetadata (some r.normalized)) := by
  have hv : v.WellFormed := hr.min v (of_singleVersion? hsingle).1
  have htext : r.normalized = "[" ++ v.normalized ++ "]" := by simp [normalized, hr.floating, hsingle]
  have hcomma : ',' ∉ v.normalized.toList := by
    intro h
    rcases Version.mem_normalized hv h with h | h
    · exact absurd h (by decide)
    · exact absurd h (by decide)
  rw [parse_single (by simp [htext]) (Version.toList_normalized_ne_nil v) hcomma, String.ofList_toList,
    String.ofList_toList, Version.parse_normalized hv]
  rfl

theorem readsBack_of_singleVersion? {r : VersionRange} {v : Version} (hr : Plain r) (hc : r.isComparable = true)
    (hsingle : r.singleVersion? = some v) : ReadsBack r := by
  obtain ⟨hmin, hminInclusive, hmaxInclusive, high, hmax, hequal⟩ := of_singleVersion? hsingle
  have htext : r.normalized = "[" ++ v.normalized ++ "]" := by simp [normalized, hr.floating, hsingle]
  have hcomparable : v.isComparable = true := by
    rw [isComparable, hmin, Bool.and_eq_true] at hc
    exact hc.1
  refine ⟨exactly v.withoutMetadata (some r.normalized), parse_normalized_of_singleVersion? hr hsingle, ?_, ?_, ?_⟩
  · -- The upper bound may be spelled in another way, but equality of versions does not see the spelling.
    have hhigh : (v.withoutMetadata == high) = true := hequal
    have hlow : (v.withoutMetadata == v) = true := v.withoutMetadata_beq
    show (exactly v.withoutMetadata _).same r = true
    simp [same, exactly, hmin, hmax, hminInclusive, hmaxInclusive, hr.floating, hlow, hhigh]
  · rw [htext]
    simp [normalized, exactly, singleVersion?, Version.normalized_withoutMetadata]
  · simp [isComparable, exactly, Version.isComparable_withoutMetadata, hcomparable]

/-- The normalized text of a plain range is read as a range equal to it. -/
theorem readsBack_of_plain {r : VersionRange} (hr : Plain r) (hc : r.isComparable = true) : ReadsBack r := by
  cases hsingle : r.singleVersion? with
  | some v => exact readsBack_of_singleVersion? hr hc hsingle
  | none =>
    have htext : r.normalized = r.intervalText := by simp [normalized, hr.floating, hsingle]
    have hcomparable : (r.rewritten (some r.intervalText)).isComparable = true := by
      rw [isComparable_rewritten, hc]
    refine ⟨r.rewritten (some r.intervalText), ?_, rewritten_beq r _, normalized_rewritten r _, hcomparable⟩
    rw [htext]
    exact parse_intervalText hr (hr.bounds hc)

/-- A pattern is written as it was read, so that the very same range is read back. -/
theorem parse_normalized_of_patterned {r : VersionRange} {pattern : List Char} (hr : Patterned r pattern) :
    parse r.normalized = .ok r := by
  have htext : r.normalized.toList = '[' :: ((pattern ++ [',', ' ']) ++ [')']) := by
    simp [normalized, hr.floating]
  rw [parse_pattern htext hr.trimmed hr.wildcard hr.noComma]
  exact hr.reading

/-- The normalized text of a floating range is its pattern, which is read back. -/
theorem readsBack_of_patterned {r : VersionRange} {pattern : List Char} (hr : Patterned r pattern)
    (hc : r.isComparable = true) : ReadsBack r :=
  ⟨r, parse_normalized_of_patterned hr, beq_refl r, rfl, hc⟩

/-- A range that was read is read back from its normalized form. -/
theorem readsBack_of_wellFormed {r : VersionRange} (hr : WellFormed r) (hc : r.isComparable = true) :
    ReadsBack r := by
  rcases hr with hr | ⟨pattern, hr⟩
  · exact readsBack_of_plain hr hc
  · exact readsBack_of_patterned hr hc

/-- The range that the normalized form is read as. -/
def reread (r : VersionRange) : VersionRange := parseOrAll r.normalized

/-- A well-formed range is read back from its normalized text, but for what is not printed of it. -/
theorem parse_eq_reread {r : VersionRange} (hr : WellFormed r) (hc : r.isComparable = true) :
    parse r.normalized = .ok r.reread ∧ (r.reread == r) = true := by
  obtain ⟨s, hread, hequal, -, -⟩ := readsBack_of_wellFormed hr hc
  have hs : r.reread = s := by
    rw [reread, parseOrAll, hread]
    rfl
  rw [hs]
  exact ⟨hread, hequal⟩

/-- A comparable range can be written. -/
theorem isPrintable_of_isComparable {r : VersionRange} (h : r.isComparable = true) : r.isPrintable = true := by
  simp [isPrintable, h]

/-- The bounds of a range that can be written are not refused. -/
theorem checkBounds_of_isPrintable {r : VersionRange} (hr : Plain r) (hp : r.isPrintable = true) (text : String) :
    checkBounds text (r.minInclusive && r.maxInclusive) r.min r.max = .ok () := by
  by_cases hc : r.isComparable = true
  · exact hr.bounds hc text
  · -- the labels are too long to be compared, so that a bound is missing
    simp only [isPrintable, hr.floating, Option.isSome_none, Bool.false_or, Bool.or_eq_true, hc, or_false,
      Option.isNone_iff_eq_none, Bool.false_eq_true] at hp
    rcases hp with hmin | hmax
    · rw [hmin]
      rfl
    · rw [hmax]
      cases r.min <;> rfl

/-- A range that was read and can be written can be read again. -/
theorem exists_parse_normalized_of_isPrintable {r : VersionRange} (hr : WellFormed r) (hp : r.isPrintable = true) :
    ∃ s, parse r.normalized = .ok s := by
  rcases hr with hr | ⟨pattern, hr⟩
  · cases hsingle : r.singleVersion? with
    | some v => exact ⟨_, parse_normalized_of_singleVersion? hr hsingle⟩
    | none =>
      have htext : r.normalized = r.intervalText := by simp [normalized, hr.floating, hsingle]
      rw [htext]
      exact ⟨_, parse_intervalText hr (checkBounds_of_isPrintable hr hp)⟩
  · exact ⟨r, parse_normalized_of_patterned hr⟩

/-- The notation of ranges goes through the normalized form: it is read back as an equal range, which is written in
the same way. -/
theorem parse_normalized_of_parse {text : String} {r : VersionRange} (h : parse text = .ok r)
    (hc : r.isComparable = true) :
    r.isPrintable = true ∧
      ∃ s, parse r.normalized = .ok s ∧ (s == r) = true ∧ s.isPrintable = true ∧ s.normalized = r.normalized := by
  obtain ⟨s, hread, hequal, hnormalized, hs⟩ := readsBack_of_wellFormed (wellFormed_of_parse h) hc
  exact ⟨isPrintable_of_isComparable hc, s, hread, hequal, isPrintable_of_isComparable hs, hnormalized⟩

/-- Bounds that are equal but spelled in two ways single out a version. -/
theorem parse_normalized_of_spelled_in_two_ways :
    ∃ r, parse " [1.0-RC.1+build, 1.0.0.0-rc.01]" = .ok r ∧ r.isComparable = true ∧
      r.normalized = "[1.0.0-RC.1]" ∧
      ∃ s, parse r.normalized = .ok s ∧ (s == r) = true ∧ s.isPrintable = true ∧ s.normalized = r.normalized := by
  have hread : parse " [1.0-RC.1+build, 1.0.0.0-rc.01]" =
      .ok ⟨some ⟨1, 0, 0, 0, ["RC", "1"], some "build"⟩, true, some ⟨1, 0, 0, 0, ["rc", "01"], none⟩, true, none,
        some "[1.0-RC.1+build, 1.0.0.0-rc.01]"⟩ := by rfl
  exact ⟨_, hread, by rfl, by rfl, (parse_normalized_of_parse hread (by rfl)).2⟩

end PackageGraph.VersionRange
