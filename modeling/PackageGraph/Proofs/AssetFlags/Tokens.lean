import PackageGraph.Proofs.AssetFlags
/-!
# The flags that a text names

A text that is not blank stands for the union of the groups that its tokens name. Neither the default of the place nor
the order, the number or the letter case of the tokens makes a difference, and tokens that are no names count for
nothing.
-/
namespace PackageGraph.AssetFlags

open Text

/-! ## Tokens -/

/-- Tokens with a semicolon or a comma between any two of them and none in them. -/
structure Tokens where
  first : List Char
  /-- Each further token with the separator before it. -/
  others : List (Char × List Char)
  separated : ∀ other ∈ others, other.1 = ';' ∨ other.1 = ','
  whole : ∀ token ∈ first :: others.map Prod.snd, ';' ∉ token ∧ ',' ∉ token

/-- The token without the white space around it and without capitals. -/
def word (token : List Char) : String := .ofList (lowerChars (trimChars token))

/-- The token names the group, by the name of the group or by the name of all. -/
def Names (token : List Char) (g : AssetGroup) : Prop := word token = "all" ∨ word token = lower g.name

/-- The word is the name of all groups or of one. -/
def IsFlagName (name : String) : Prop := name = "all" ∨ ∃ g : AssetGroup, name = lower g.name

namespace Tokens

/-- The tokens in order. -/
def list (t : Tokens) : List (List Char) := t.first :: t.others.map Prod.snd

/-- The text that the tokens make up. -/
def text (t : Tokens) : String :=
  .ofList (t.first ++ t.others.flatMap fun (separator, token) => separator :: token)

/-- Tokens are separated by semicolons and commas. -/
theorem isSeparator_iff {c : Char} : isSeparator c = true ↔ c = ';' ∨ c = ',' := by
  simp [isSeparator]

/-- A text without either is one token. -/
theorem isSeparator_eq_false_of_notMem {token : List Char} (h : ';' ∉ token ∧ ',' ∉ token) :
    ∀ c ∈ token, isSeparator c = false := by
  intro c hc
  rw [← Bool.not_eq_true, isSeparator_iff]
  rintro (rfl | rfl)
  · exact h.1 hc
  · exact h.2 hc

/-- The tokens are what stands between the separators of their text. -/
theorem splitWhere_text (t : Tokens) : splitWhere isSeparator t.text.toList = t.list := by
  obtain ⟨first, others, separated, whole⟩ := t
  rw [text, String.toList_ofList]
  -- each token ends at the separator before the next
  induction others generalizing first with
  | nil =>
    rw [List.flatMap_nil, List.append_nil]
    exact splitWhere_of_forall_not (isSeparator_eq_false_of_notMem (whole first List.mem_cons_self))
  | cons other others ih =>
    obtain ⟨separator, token⟩ := other
    have hseparator : isSeparator separator = true := isSeparator_iff.2 (separated _ List.mem_cons_self)
    have hfirst := isSeparator_eq_false_of_notMem (whole first List.mem_cons_self)
    have hrest := ih token (fun other hother => separated other (List.mem_cons_of_mem _ hother)) fun token htoken =>
      whole token (List.mem_cons_of_mem _ htoken)
    rw [List.flatMap_cons, List.cons_append, splitWhere_append_cons hfirst hseparator, hrest]
    rfl

/-- Every text is made up of tokens. -/
theorem exists_text_eq (s : String) : ∃ t : Tokens, t.text = s := by
  suffices h : ∀ cs : List Char, ∃ t : Tokens,
      t.first ++ t.others.flatMap (fun (separator, token) => separator :: token) = cs by
    obtain ⟨t, ht⟩ := h s.toList
    exact ⟨t, by rw [text, ht, String.ofList_toList]⟩
  intro cs
  induction cs with
  | nil => exact ⟨⟨[], [], by simp, by simp⟩, rfl⟩
  | cons c cs ih =>
    obtain ⟨⟨first, others, separated, whole⟩, rfl⟩ := ih
    by_cases hc : c = ';' ∨ c = ','
    · -- a separator ends an empty token
      exact ⟨⟨[], (c, first) :: others, by simpa [hc] using separated, by simpa using whole⟩, rfl⟩
    · -- any other character belongs to the token that follows
      obtain ⟨hsemicolon, hcomma⟩ := not_or.1 hc
      have hwhole : ∀ token ∈ (c :: first) :: others.map Prod.snd, ';' ∉ token ∧ ',' ∉ token := by
        intro token htoken
        rcases List.mem_cons.1 htoken with rfl | htoken
        · have hfirst := whole first List.mem_cons_self
          simpa [Ne.symm hsemicolon, Ne.symm hcomma] using hfirst
        · exact whole token (List.mem_cons_of_mem _ htoken)
      exact ⟨⟨c :: first, others, separated, hwhole⟩, rfl⟩

end Tokens

/-! ## The groups that a token names -/

/-- A token stands for nothing, for everything, or for the group of its name. -/
theorem ofName?_eq (token : List Char) : ofName? token =
    if word token = "none" then some none
    else if word token = "all" then some all
    else (AssetGroup.all.find? fun g => lower g.name == word token).map only := rfl

/-- A token names the groups of the set that it stands for. -/
theorem names_iff {token : List Char} {g : AssetGroup} :
    Names token g ↔ ∃ f, ofName? token = some f ∧ f.has g = true := by
  rw [ofName?_eq]
  constructor
  -- a group is found under its own name alone
  · rintro (hall | hname)
    · exact ⟨all, by rw [hall]; rfl, has_ofTest _ g⟩
    · refine ⟨only g, ?_, by simp [only]⟩
      rw [hname]
      cases g <;> rfl
  · rintro ⟨f, hf, hg⟩
    -- the token that stands for nothing names no group
    split at hf
    · obtain rfl := Option.some.inj hf
      rw [none, has_ofTest] at hg
      cases hg
    · split at hf
      · rename_i hall
        exact .inl hall
      · obtain ⟨g', hfound, rfl⟩ := Option.map_eq_some_iff.1 hf
        rw [only, has_ofTest, beq_iff_eq] at hg
        have hname := List.find?_some hfound
        rw [beq_iff_eq] at hname
        exact .inr (hg ▸ hname.symm)

/-- A text names the groups that its tokens name. -/
theorem has_named_iff {cs : List Char} {g : AssetGroup} :
    (named cs).has g = true ↔ ∃ token ∈ splitWhere isSeparator cs, Names token g := by
  have hnone : none.has g = false := has_ofTest _ g
  rw [named, has_foldl_union, hnone, Bool.false_or, List.any_eq_true]
  simp only [List.mem_filterMap, names_iff]
  constructor
  · rintro ⟨f, ⟨token, htoken, hf⟩, hg⟩
    exact ⟨token, htoken, f, hf, hg⟩
  · rintro ⟨token, htoken, f, hf, hg⟩
    exact ⟨f, ⟨token, htoken, hf⟩, hg⟩

/-- White space names nothing, so that a blank text names no group. -/
theorem named_of_isBlankText {text : String} (h : isBlankText text = true) : named text.toList = none := by
  have hblank : ∀ c ∈ text.toList, isBlank c = true := List.all_eq_true.1 h
  have hwhole : ∀ c ∈ text.toList, isSeparator c = false := by
    intro c hc
    rw [← Bool.not_eq_true, Tokens.isSeparator_iff]
    rintro (rfl | rfl) <;> exact absurd (hblank _ hc) Bool.false_ne_true
  have hname : ofName? text.toList = Option.none := by
    rw [ofName?_eq, word, trimChars_eq_nil_iff.2 hblank]
    rfl
  rw [named, splitWhere_of_forall_not hwhole, List.filterMap_cons_none hname]
  rfl

/-- A text that is not blank is read without regard to the default. -/
theorem parse_of_not_isBlankText {text : String} (h : isBlankText text = false) (default : AssetFlags) :
    parse text default = named text.toList := by
  rw [parse, h, if_neg Bool.false_ne_true]

/-- With no group as the default a text stands for the groups that it names, blank or not. -/
theorem parse_none (text : String) : parse text none = named text.toList := by
  rw [parse]
  split
  · rename_i hblank
    exact (named_of_isBlankText hblank).symm
  · rfl

/-- Texts with a separator between them name what either names. -/
theorem named_append_cons {separator : Char} (h : isSeparator separator = true) (cs ds : List Char) :
    named (cs ++ separator :: ds) = (named cs).union (named ds) := by
  refine eq_of_has fun g => ?_
  rw [Bool.eq_iff_iff, has_named_iff, splitWhere_append_cons_append h, union, has_ofTest, Bool.or_eq_true,
    has_named_iff, has_named_iff]
  simp only [List.mem_append, or_and_right, exists_or]

/-- A text made up of tokens stands for the groups that these name. -/
theorem has_parse_text_iff {t : Tokens} (h : isBlankText t.text = false) (default : AssetFlags) {g : AssetGroup} :
    (parse t.text default).has g = true ↔ ∃ token ∈ t.list, Names token g := by
  rw [parse_of_not_isBlankText h, has_named_iff, t.splitWhere_text]

/-- Which groups are named depends on the names among the words alone. -/
theorem exists_names_congr {ts us : List (List Char)}
    (h : ∀ name, IsFlagName name → (name ∈ ts.map word ↔ name ∈ us.map word)) (g : AssetGroup) :
    (∃ token ∈ ts, Names token g) ↔ ∃ token ∈ us, Names token g := by
  have hwords : ∀ tokens : List (List Char), (∃ token ∈ tokens, Names token g) ↔
      "all" ∈ tokens.map word ∨ lower g.name ∈ tokens.map word := by
    intro tokens
    simp only [Names, List.mem_map, and_or_left, exists_or]
  rw [hwords, hwords, h _ (.inl rfl), h _ (.inr ⟨g, rfl⟩)]

/-- Every text is made up of tokens, and a text that is not blank stands for the union of the groups that its tokens
name, whatever the default is. So texts in whose tokens the same names occur stand for the same set: the order and the
number of the tokens, their letter case and the white space around them count as little as tokens that are no names.
Two texts with a semicolon between them stand for the union of what they stand for, and a reference never includes a
group that its exclude text names. -/
theorem parse_is_union_of_names :
    (∀ text : String, ∃ t : Tokens, t.text = text) ∧
    (∀ (t : Tokens) (default : AssetFlags), isBlankText t.text = false →
      ∀ g, (parse t.text default).has g = true ↔ ∃ token ∈ t.list, Names token g) ∧
    (∀ (t u : Tokens) (default default' : AssetFlags), isBlankText t.text = false → isBlankText u.text = false →
      (∀ name, IsFlagName name → (name ∈ t.list.map word ↔ name ∈ u.list.map word)) →
        parse t.text default = parse u.text default') ∧
    (∀ (a b : String) (default default' default'' : AssetFlags), isBlankText a = false → isBlankText b = false →
      parse (a ++ ";" ++ b) default = (parse a default').union (parse b default'')) ∧
    ∀ (includeAssets privateAssets : Option String) (t : Tokens) (g : AssetGroup),
      (∃ token ∈ t.list, Names token g) → (ofAssets includeAssets (some t.text) privateAssets).1.has g = false := by
  refine ⟨Tokens.exists_text_eq, fun t default h g => has_parse_text_iff h default,
    fun t u default default' ht hu h => ?_, fun a b default default' default'' ha hb => ?_,
    fun includeAssets privateAssets t g h => ?_⟩
  · refine eq_of_has fun g => ?_
    rw [Bool.eq_iff_iff, has_parse_text_iff ht, has_parse_text_iff hu]
    exact exists_names_congr h g
  -- a semicolon between two texts separates their tokens, and the whole is not blank if they are not
  · have hchars : (a ++ ";" ++ b).toList = a.toList ++ ';' :: b.toList := by simp
    have hseparated : isBlankText (a ++ ";" ++ b) = false := by
      rw [isBlankText, hchars, List.all_append]
      exact Bool.and_eq_false_imp.2 fun _ => rfl
    rw [parse_of_not_isBlankText ha, parse_of_not_isBlankText hb, parse_of_not_isBlankText hseparated, hchars,
      named_append_cons rfl]
  · have hexcluded : (parse t.text none).has g = true := by
      rw [parse_none, has_named_iff, t.splitWhere_text]
      exact h
    show ((parseOptional includeAssets all).without (parse t.text none)).has g = false
    rw [without, has_ofTest, hexcluded]
    exact Bool.and_false _

/-- Tokens with white space and capitals, an empty one, one that is no name and one that names no group. -/
def mixedTokens : Tokens :=
  ⟨" Compile ".toList, [(';', "RUNTIME".toList), (',', []), (';', "Runtimes".toList), (',', "None".toList)], by decide,
    by decide⟩

/-- Tokens with the same names in another order, one of them twice. -/
def plainTokens : Tokens := ⟨"runtime".toList, [(',', "compile".toList), (';', "compile".toList)], by decide, by decide⟩

/-- Names in mixed case with blanks, empty tokens, and one that is no name. -/
theorem parse_is_union_of_names_mixedTokens :
    mixedTokens.text = " Compile ;RUNTIME,;Runtimes,None" ∧ plainTokens.text = "runtime,compile;compile" ∧
      (parse mixedTokens.text all).has .compile = true ∧
      parse mixedTokens.text all = parse plainTokens.text none ∧
      parse (mixedTokens.text ++ ";" ++ "Build") all = (parse mixedTokens.text all).union (parse "Build" none) ∧
      (ofAssets Option.none (some mixedTokens.text) Option.none).1.has .compile = false := by
  obtain ⟨-, hnamed, hsame, hunion, hexcluded⟩ := parse_is_union_of_names
  have hcompile : ∃ token ∈ mixedTokens.list, Names token .compile :=
    ⟨" Compile ".toList, by decide, .inr (by decide +kernel)⟩
  have hnames : ∀ name, IsFlagName name →
      (name ∈ mixedTokens.list.map word ↔ name ∈ plainTokens.list.map word) := by
    rintro name (rfl | ⟨g, rfl⟩)
    · decide +kernel
    · cases g <;> decide +kernel
  exact ⟨by decide, by decide, (hnamed mixedTokens all (by decide) .compile).2 hcompile,
    hsame mixedTokens plainTokens all none (by decide) (by decide) hnames,
    hunion mixedTokens.text "Build" all all none (by decide) (by decide),
    hexcluded Option.none Option.none mixedTokens .compile hcompile⟩

end PackageGraph.AssetFlags
