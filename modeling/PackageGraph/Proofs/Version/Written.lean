import PackageGraph.Proofs.Version.Order
/-!
# The parts of a version's text

A text is read as a version exactly if it is written from parts: white space, one to four numerals between points,
labels after a hyphen, metadata after a plus sign, and white space again. The parts say which version it is.
-/
namespace PackageGraph

open Text

namespace Text

/-- A digit of any script is no white space. -/
theorem not_isBlank_of_isDigit {c : Char} (h : isDigit c = true) : isBlank c = false := by
  have hzeros : ∀ z ∈ digitZeros, 0xA0 < z ∧ (z + 10 ≤ 0x1680 ∨ 0x1680 < z) ∧ (z + 10 ≤ 0x2000 ∨ 0x205F < z) ∧
      (z + 10 ≤ 0x3000 ∨ 0x3000 < z) := by decide
  simp only [isBlank, Bool.or_eq_false_iff, Bool.and_eq_false_iff, decide_eq_false_iff_not, beq_eq_false_iff_ne]
  obtain ⟨n, hn⟩ := Option.isSome_iff_exists.1 h
  unfold digit? asciiDigit? at hn
  split at hn
  · split at hn
    · rename_i hdigit
      have hlow : 48 ≤ c.toNat := (Char.isDigit_iff_toNat.1 hdigit).1
      have hhigh : c.toNat ≤ 57 := (Char.isDigit_iff_toNat.1 hdigit).2
      omega
    · cases hn
  · obtain ⟨z, hz, -⟩ := Option.map_eq_some_iff.1 hn
    have hrange := List.find?_some hz
    have hz := hzeros z (List.mem_of_find?_eq_some hz)
    simp only [Bool.and_eq_true, decide_eq_true_eq] at hrange
    omega

end Text

namespace Version

/-! ## Parts of a text -/

/-- The text of a version in its parts. -/
structure Written where
  before : List Char
  numerals : List (List Char)
  labels : List (List Char)
  metadata : List (List Char)
  after : List Char

namespace Written

/-- Names between points after a mark; nothing where there are no names. -/
def marked (mark : Char) (names : List (List Char)) : List Char :=
  if names.isEmpty then [] else mark :: ['.'].intercalate names

/-- The text without the white space around it. -/
def core (w : Written) : List Char :=
  ['.'].intercalate w.numerals ++ (marked '-' w.labels ++ marked '+' w.metadata)

/-- The text that is put together from the parts. -/
def text (w : Written) : List Char := w.before ++ w.core ++ w.after

/-- The metadata as one text. -/
def metadataText (w : Written) : Option (List Char) :=
  if w.metadata.isEmpty then none else some (['.'].intercalate w.metadata)

/-- What the text is taken apart into. -/
def spelling (w : Written) : Spelling := ⟨w.numerals, w.labels, w.metadataText⟩

/-- The version that is written. -/
def version (w : Written) : Version := ofSpelling w.spelling

/-- The parts have the form of parts of a version's text. -/
structure WellFormed (w : Written) : Prop where
  before : ∀ c ∈ w.before, isBlank c = true
  ne_nil : w.numerals ≠ []
  length_le : w.numerals.length ≤ 4
  numerals : ∀ n ∈ w.numerals, (n ≠ [] ∧ ∀ c ∈ n, isDigit c = true) ∧ n.length ≤ digitLimit
  labels : ∀ l ∈ w.labels, l ≠ [] ∧ ∀ c ∈ l, isLabelChar c = true
  metadata : ∀ m ∈ w.metadata, m ≠ [] ∧ ∀ c ∈ m, isLabelChar c = true
  after : ∀ c ∈ w.after, isBlank c = true

variable {w : Written}

/-! ## Texts from parts are read -/

theorem eq_of_head?_marked {mark c : Char} {names : List (List Char)} (h : c ∈ (marked mark names).head?) :
    c = mark := by
  unfold marked at h
  split at h
  · cases h
  · simpa using h.symm

/-- Metadata that is written after a plus is read back. -/
theorem metadata?_marked {names : List (List Char)} (h : ∀ n ∈ names, n ≠ [] ∧ ∀ c ∈ n, isLabelChar c = true) :
    metadata? (marked '+' names) = some (if names.isEmpty then none else some (['.'].intercalate names)) := by
  unfold marked
  split
  · rfl
  · rename_i hne
    have hread := names?_intercalate (by simpa using hne) h
    rw [metadata?, hread]
    rfl

theorem mem_numerals_text (hw : w.WellFormed) : ∀ c ∈ ['.'].intercalate w.numerals, c = '.' ∨ isDigit c = true := by
  intro c hc
  rcases mem_intercalate hc with hc | ⟨n, hn, hc⟩
  · exact .inl hc
  · exact .inr ((hw.numerals n hn).1.2 c hc)

/-- The numerals that are written with dots between them are read back. -/
theorem numerals?_text (hw : w.WellFormed) : numerals? (['.'].intercalate w.numerals) = some w.numerals :=
  numerals?_eq_some_iff.2 ⟨splitOn_intercalate hw.ne_nil fun n hn hdot =>
    absurd ((hw.numerals n hn).1.2 _ hdot) (by decide), hw.length_le, fun n hn => (hw.numerals n hn).1⟩

/-- The text is taken apart into the parts that it was put together from. -/
theorem spelling?_core (hw : w.WellFormed) : spelling? w.core = some w.spelling := by
  have hrest : ∀ c ∈ (marked '-' w.labels ++ marked '+' w.metadata).head?, endsNumbers c = true := by
    intro c hc
    rw [List.head?_append] at hc
    cases hlabels : (marked '-' w.labels).head? with
    | some d =>
      rw [hlabels] at hc
      obtain rfl : d = c := Option.some.inj hc
      obtain rfl := eq_of_head?_marked (Option.mem_def.2 hlabels)
      rfl
    | none =>
      rw [hlabels] at hc
      have hmem : c ∈ (marked '+' w.metadata).head? := Option.mem_def.2 hc
      obtain rfl := eq_of_head?_marked hmem
      rfl
  obtain ⟨htake, hdrop⟩ := takeWhile_numbers (mem_numerals_text hw) hrest
  have hmetadata := metadata?_marked hw.metadata
  rw [spelling?, core, htake, hdrop, numerals?_text hw]
  cases hlabels : w.labels with
  | nil =>
    -- without labels the rest is the metadata with its plus sign, or nothing
    cases hm : w.metadata with
    | nil => simp [marked, metadata?, spelling, metadataText, hlabels, hm]
    | cons m ms =>
      rw [hm] at hmetadata
      simp only [marked, List.isEmpty_nil, List.isEmpty_cons, if_true, Bool.false_eq_true, if_false, List.nil_append]
        at hmetadata ⊢
      simp [hmetadata, spelling, metadataText, hlabels, hm]
  | cons l ls =>
    have hnames : names? (['.'].intercalate (l :: ls)) = some (l :: ls) :=
      names?_intercalate (List.cons_ne_nil l ls) (hlabels ▸ hw.labels)
    have hinside : ∀ c ∈ ['.'].intercalate (l :: ls), (!endsLabels c) = true := by
      intro c hc
      rcases mem_intercalate hc with rfl | ⟨n, hn, hc⟩
      · rfl
      · exact not_endsLabels_of_isLabelChar ((hw.labels n (hlabels ▸ hn)).2 c hc)
    have hoff : ∀ c ∈ (marked '+' w.metadata).head?, (!endsLabels c) = false := by
      intro c hc
      obtain rfl := eq_of_head?_marked hc
      rfl
    have htake' : (['.'].intercalate (l :: ls) ++ marked '+' w.metadata).takeWhile (!endsLabels ·) =
        ['.'].intercalate (l :: ls) := takeWhile_run hinside hoff
    have hdrop' : (['.'].intercalate (l :: ls) ++ marked '+' w.metadata).dropWhile (!endsLabels ·) =
        marked '+' w.metadata := dropWhile_run hinside hoff
    have hmarked : marked '-' (l :: ls) = '-' :: ['.'].intercalate (l :: ls) := rfl
    simp only [hmarked, List.cons_append, Option.bind_eq_bind, Option.bind_some]
    rw [htake', hdrop', hnames, hmetadata]
    simp [spelling, metadataText, hlabels]

/-- There are no blanks between the blanks around a written version. -/
theorem not_isBlank_of_mem_core (hw : w.WellFormed) : ∀ c ∈ w.core, isBlank c = false := by
  intro c hc
  have htext := (spelling?_eq_some (spelling?_core hw)).1 c hc
  simp only [isTextChar, Bool.or_eq_true, beq_iff_eq] at htext
  rcases htext with ((hdigit | hlabel) | rfl) | rfl
  · exact not_isBlank_of_isDigit hdigit
  · exact not_isBlank_of_isLabelChar hlabel
  · rfl
  · rfl

/-- The text put together from well-formed parts is read as the version that is written. -/
theorem parse_text (hw : w.WellFormed) {text : String} (h : text.toList = w.text) : parse text = .ok w.version := by
  have hself := trimChars_eq_self_of_forall (not_isBlank_of_mem_core hw)
  have hshort : w.spelling.numerals.all (·.length ≤ digitLimit) = true :=
    List.all_eq_true.2 fun n hn => decide_eq_true (hw.numerals n hn).2
  rw [parse, h, Written.text, trimChars_surrounded hw.before hw.after hself, spelling?_core hw]
  exact if_pos hshort

/-! ## Texts that are read have parts -/

/-- Names that are read are written with points between them. -/
theorem names_of_names? {cs : List Char} {names : List (List Char)} (h : names? cs = some names) :
    names.isEmpty = false ∧ ['.'].intercalate names = cs ∧ ∀ n ∈ names, n ≠ [] ∧ ∀ c ∈ n, isLabelChar c = true := by
  obtain ⟨rfl, hall⟩ := names?_eq_some_iff.1 h
  exact ⟨List.isEmpty_eq_false_iff.2 (splitWhere_ne_nil _ cs), intercalate_splitOn '.' cs, hall⟩

/-- Metadata that is read is written after a plus, or not at all. -/
theorem exists_marked_of_metadata? {cs : List Char} {metadata : Option (List Char)} (h : metadata? cs = some metadata) :
    ∃ names : List (List Char), cs = marked '+' names ∧ (∀ n ∈ names, n ≠ [] ∧ ∀ c ∈ n, isLabelChar c = true) ∧
      metadata = if names.isEmpty then none else some (['.'].intercalate names) := by
  unfold metadata? at h
  split at h
  · exact ⟨[], rfl, by simp, (Option.some.inj h).symm⟩
  · rename_i rest
    obtain ⟨names, hnames, rfl⟩ := Option.map_eq_some_iff.1 h
    obtain ⟨hne, hjoined, hall⟩ := names_of_names? hnames
    refine ⟨names, ?_, hall, ?_⟩
    · rw [marked, hne, if_neg Bool.false_ne_true, hjoined]
    · rw [hne, if_neg Bool.false_ne_true, hjoined]
  · cases h

/-- A text that is taken apart is put together from its parts. -/
theorem exists_core_of_spelling? {cs : List Char} {s : Spelling} (h : spelling? cs = some s)
    (hshort : ∀ n ∈ s.numerals, n.length ≤ digitLimit) :
    ∃ w : Written, w.WellFormed ∧ w.core = cs ∧ w.spelling = s := by
  unfold spelling? at h
  obtain ⟨numerals, hnumerals, h⟩ := Option.bind_eq_some_iff.1 h
  obtain ⟨hsplit, hlength, hdigits⟩ := numerals?_eq_some_iff.1 hnumerals
  have hfront : ['.'].intercalate numerals = cs.takeWhile (!endsNumbers ·) := by rw [← hsplit, intercalate_splitOn]
  have hne : numerals ≠ [] := hsplit ▸ splitWhere_ne_nil _ _
  have hcs : cs = cs.takeWhile (!endsNumbers ·) ++ cs.dropWhile (!endsNumbers ·) :=
    List.takeWhile_append_dropWhile.symm
  -- either labels follow a hyphen or there are none, and metadata may follow in both cases
  split at h
  · rename_i rest hrest
    obtain ⟨labels, hlabels, h⟩ := Option.bind_eq_some_iff.1 h
    obtain ⟨metadata, hmetadata, h⟩ := Option.bind_eq_some_iff.1 h
    obtain rfl := Option.some.inj h
    obtain ⟨names, hmarked, hnames, rfl⟩ := exists_marked_of_metadata? hmetadata
    obtain ⟨hlabelsNe, hjoined, hall⟩ := names_of_names? hlabels
    refine ⟨⟨[], numerals, labels, names, []⟩, ?_, ?_, rfl⟩
    · exact ⟨by simp, hne, hlength, fun n hn => ⟨hdigits n hn, hshort n hn⟩, hall, hnames, by simp⟩
    · have hmark : marked '-' labels = '-' :: rest.takeWhile (!endsLabels ·) := by
        rw [marked, hlabelsNe, if_neg Bool.false_ne_true, hjoined]
      rw [core, hmark, ← hmarked, hfront, List.cons_append, List.takeWhile_append_dropWhile, ← hrest, ← hcs]
  · rename_i hhyphen
    obtain ⟨metadata, hmetadata, h⟩ := Option.bind_eq_some_iff.1 h
    obtain rfl := Option.some.inj h
    obtain ⟨names, hmarked, hnames, rfl⟩ := exists_marked_of_metadata? hmetadata
    refine ⟨⟨[], numerals, [], names, []⟩, ?_, ?_, rfl⟩
    · exact ⟨by simp, hne, hlength, fun n hn => ⟨hdigits n hn, hshort n hn⟩, by simp, hnames, by simp⟩
    · rw [core, ← hmarked, hfront]
      exact hcs.symm

end Written

/-- A text is read as a version exactly if it is written from well-formed parts that say so. -/
theorem parse_eq_ok_iff {text : String} {v : Version} :
    parse text = .ok v ↔ ∃ w : Written, w.WellFormed ∧ text.toList = w.text ∧ w.version = v := by
  constructor
  · intro h
    obtain ⟨s, hs, hshort, rfl⟩ := parse_eq_ok h
    obtain ⟨w, hw, hcore, rfl⟩ := Written.exists_core_of_spelling? hs hshort
    obtain ⟨before, after, hbefore, hafter, htext⟩ := exists_eq_append_trimChars text.toList
    refine ⟨{ w with before, after }, { hw with before := hbefore, after := hafter }, ?_, rfl⟩
    show text.toList = before ++ w.core ++ after
    rw [hcore]
    exact htext
  · rintro ⟨w, hw, htext, rfl⟩
    exact Written.parse_text hw htext

end Version
end PackageGraph
