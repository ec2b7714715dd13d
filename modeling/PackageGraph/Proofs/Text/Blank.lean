import Mathlib.Data.List.DropRight
import PackageGraph.Text.Blank
/-!
# Trimming

A text that neither begins nor ends with white space is left as it is, and trimming makes every text such a text.
-/
namespace PackageGraph.Text

/-- Visible ASCII characters are not blank. -/
theorem not_isBlank_of_visible {c : Char} (hlow : 0x20 < c.toNat) (hhigh : c.toNat < 0x7F) : isBlank c = false := by
  simp only [isBlank, Bool.or_eq_false_iff, Bool.and_eq_false_iff, decide_eq_false_iff_not, beq_eq_false_iff_ne]
  omega

/-! ## Dropping characters at the end -/

theorem mem_dropWhile {p : Char → Bool} {cs : List Char} {c : Char} (hc : c ∈ cs) (h : p c = false) :
    c ∈ cs.dropWhile p := by
  rw [← List.takeWhile_append_dropWhile (p := p) (l := cs), List.mem_append] at hc
  rcases hc with hc | hc
  · rw [List.mem_takeWhile_imp hc] at h
    cases h
  · exact hc

theorem mem_of_mem_dropWhile {p : Char → Bool} {cs : List Char} {c : Char} (h : c ∈ cs.dropWhile p) : c ∈ cs :=
  (List.dropWhile_suffix p).subset h

theorem dropEndWhile_eq_rdropWhile (p : Char → Bool) (cs : List Char) : dropEndWhile p cs = cs.rdropWhile p := rfl

theorem prefix_dropEndWhile (p : Char → Bool) (cs : List Char) : dropEndWhile p cs <+: cs :=
  List.rdropWhile_prefix p cs

theorem mem_dropEndWhile {p : Char → Bool} {cs : List Char} {c : Char} (hc : c ∈ cs) (h : p c = false) :
    c ∈ dropEndWhile p cs := by
  rw [dropEndWhile, List.mem_reverse]
  exact mem_dropWhile (List.mem_reverse.2 hc) h

theorem dropEndWhile_eq_self {p : Char → Bool} {cs : List Char}
    (h : ∀ c, cs.getLast? = some c → p c = false) : dropEndWhile p cs = cs := by
  rw [dropEndWhile_eq_rdropWhile, List.rdropWhile_eq_self_iff]
  intro hne
  simp [h _ (List.getLast?_eq_some_getLast hne)]

theorem not_of_getLast?_dropEndWhile {p : Char → Bool} {cs : List Char} {c : Char}
    (h : (dropEndWhile p cs).getLast? = some c) : p c = false := by
  have hne : dropEndWhile p cs ≠ [] := List.ne_nil_of_mem (List.mem_of_getLast? h)
  rw [List.getLast?_eq_some_getLast hne] at h
  have hlast : (cs.rdropWhile p).getLast hne = c := Option.some.inj h
  have hnot := List.rdropWhile_last_not p cs hne
  rw [hlast] at hnot
  simpa using hnot

theorem dropEndWhile_append (p : Char → Bool) (cs rest : List Char) : dropEndWhile p (cs ++ rest) =
    if dropEndWhile p rest = [] then dropEndWhile p cs else cs ++ dropEndWhile p rest := by
  simp only [dropEndWhile, List.reverse_append, List.dropWhile_append, List.isEmpty_iff, List.reverse_eq_nil_iff]
  split
  · rfl
  · simp

/-- What is dropped at the end lies behind the last character that stays. -/
theorem dropEndWhile_append_cons {p : Char → Bool} {c : Char} (hc : p c = false) (cs rest : List Char) :
    dropEndWhile p (cs ++ c :: rest) = cs ++ c :: dropEndWhile p rest := by
  have hsingle : dropEndWhile p [c] = [c] := by simp [dropEndWhile, hc]
  have hcons : dropEndWhile p (c :: rest) = c :: dropEndWhile p rest := by
    rw [← List.singleton_append, dropEndWhile_append, hsingle]
    split <;> simp_all
  rw [dropEndWhile_append, hcons, if_neg (List.cons_ne_nil _ _)]

/-- What is left of a text is left of every text that goes on from it. -/
theorem dropEndWhile_prefix_dropEndWhile {p : Char → Bool} {cs ds : List Char} (h : cs <+: ds) :
    dropEndWhile p cs <+: dropEndWhile p ds := by
  obtain ⟨rest, rfl⟩ := h
  rw [dropEndWhile_append]
  split
  · exact List.prefix_rfl
  · exact (prefix_dropEndWhile p cs).trans (List.prefix_append cs _)

/-! ## Trimming both ends -/

theorem trimStart_prefix_trimStart {cs ds : List Char} (h : cs <+: ds) : trimStart cs <+: trimStart ds := by
  obtain ⟨rest, rfl⟩ := h
  rw [trimStart, trimStart, List.dropWhile_append]
  split
  · rename_i hnone
    rw [List.isEmpty_iff.1 hnone]
    exact List.nil_prefix
  · exact List.prefix_append _ _

/-- A character that is not blank stops the trimming, and all after it stays. -/
theorem trimStart_append_cons {c : Char} (hc : isBlank c = false) (cs rest : List Char) :
    trimStart (cs ++ c :: rest) = trimStart cs ++ c :: rest := by
  rw [trimStart, trimStart, List.dropWhile_append]
  split
  · rename_i hnone
    simp [List.isEmpty_iff.1 hnone, hc]
  · rfl

theorem trimStart_eq_self {cs : List Char} (h : ∀ c, cs.head? = some c → isBlank c = false) :
    trimStart cs = cs := by
  cases cs with
  | nil => rfl
  | cons c cs => simp [trimStart, h c rfl]

theorem not_isBlank_of_head?_trimStart {cs : List Char} {c : Char} (h : (trimStart cs).head? = some c) :
    isBlank c = false := by
  have hnot := List.head?_dropWhile_not isBlank cs
  rw [← trimStart, h] at hnot
  simpa using hnot

/-- A text is trimmed when neither its first nor its last character is blank. -/
theorem trimChars_eq_self {cs : List Char} (hhead : ∀ c, cs.head? = some c → isBlank c = false)
    (hlast : ∀ c, cs.getLast? = some c → isBlank c = false) : trimChars cs = cs := by
  rw [trimChars, trimStart_eq_self hhead, dropEndWhile_eq_self hlast]

theorem trimChars_eq_self_of_forall {cs : List Char} (h : ∀ c ∈ cs, isBlank c = false) : trimChars cs = cs :=
  trimChars_eq_self (fun c hc => h c (List.mem_of_head? hc)) fun c hc => h c (List.mem_of_getLast? hc)

theorem trimChars_cons_of_isBlank {c : Char} (h : isBlank c = true) (cs : List Char) :
    trimChars (c :: cs) = trimChars cs := by
  simp [trimChars, trimStart, h]

/-- Around a character that stays the two ends are trimmed apart. -/
theorem trimChars_append_cons {c : Char} (hc : isBlank c = false) (cs rest : List Char) :
    trimChars (cs ++ c :: rest) = trimStart cs ++ c :: dropEndWhile isBlank rest := by
  rw [trimChars, trimStart_append_cons hc, dropEndWhile_append_cons hc]

theorem trimChars_trimStart (cs : List Char) : trimChars (trimStart cs) = trimChars cs := by
  rw [trimChars, trimStart_eq_self fun _ => not_isBlank_of_head?_trimStart, trimChars]

/-- Trimming keeps one text at the front of another. -/
theorem trimChars_prefix_trimChars {cs ds : List Char} (h : cs <+: ds) : trimChars cs <+: trimChars ds :=
  dropEndWhile_prefix_dropEndWhile (trimStart_prefix_trimStart h)

theorem mem_trimChars {cs : List Char} {c : Char} (hc : c ∈ cs) (h : isBlank c = false) : c ∈ trimChars cs :=
  mem_dropEndWhile (mem_dropWhile hc h) h

theorem mem_of_mem_trimChars {cs : List Char} {c : Char} (h : c ∈ trimChars cs) : c ∈ cs :=
  mem_of_mem_dropWhile ((prefix_dropEndWhile isBlank (trimStart cs)).subset h)

/-- A trimmed text does not end in a blank. -/
theorem not_isBlank_of_getLast?_trimChars {cs : List Char} {c : Char} (h : (trimChars cs).getLast? = some c) :
    isBlank c = false :=
  not_of_getLast?_dropEndWhile h

/-- A trimmed text does not begin with a blank. -/
theorem not_isBlank_of_head?_trimChars {cs : List Char} {c : Char} (h : (trimChars cs).head? = some c) :
    isBlank c = false := by
  obtain ⟨rest, hrest⟩ := prefix_dropEndWhile isBlank (trimStart cs)
  have hhead : (trimStart cs).head? = some c := by
    rw [← hrest, List.head?_append, ← trimChars, h]
    rfl
  exact not_isBlank_of_head?_trimStart hhead

/-- Trimming twice is trimming once. -/
theorem trimChars_trimChars (cs : List Char) : trimChars (trimChars cs) = trimChars cs :=
  trimChars_eq_self (fun _ => not_isBlank_of_head?_trimChars) fun _ => not_isBlank_of_getLast?_trimChars

/-- Nothing is left of white space alone. -/
theorem trimChars_eq_nil_iff {cs : List Char} : trimChars cs = [] ↔ ∀ c ∈ cs, isBlank c = true := by
  rw [trimChars, dropEndWhile_eq_rdropWhile, List.rdropWhile_eq_nil_iff]
  constructor
  · intro h
    have hstart : trimStart cs = [] := by
      rw [← List.head?_eq_none_iff, Option.eq_none_iff_forall_not_mem]
      intro c hc
      have hblank := h c (List.mem_of_head? hc)
      rw [not_isBlank_of_head?_trimStart hc] at hblank
      cases hblank
    exact List.dropWhile_eq_nil_iff.1 hstart
  · exact fun h c hc => h c (List.dropWhile_subset _ hc)

/-- White space is trimmed from both ends, and nothing else is. -/
theorem exists_eq_append_trimChars (cs : List Char) : ∃ before after : List Char,
    (∀ c ∈ before, isBlank c = true) ∧ (∀ c ∈ after, isBlank c = true) ∧ cs = before ++ trimChars cs ++ after := by
  refine ⟨cs.takeWhile isBlank, (trimStart cs).rtakeWhile isBlank, fun _ => List.mem_takeWhile_imp,
    fun _ => List.mem_rtakeWhile_imp, ?_⟩
  rw [trimChars, dropEndWhile_eq_rdropWhile, List.append_assoc, List.rdropWhile_append_rtakeWhile, trimStart,
    List.takeWhile_append_dropWhile]

/-- White space around a text that neither begins nor ends with it is trimmed away. -/
theorem trimChars_surrounded {before cs after : List Char} (hbefore : ∀ c ∈ before, isBlank c = true)
    (hafter : ∀ c ∈ after, isBlank c = true) (hcs : trimChars cs = cs) : trimChars (before ++ cs ++ after) = cs := by
  have hdrop : trimStart (before ++ cs ++ after) = trimStart (cs ++ after) := by
    rw [List.append_assoc, trimStart, trimStart, List.dropWhile_append_of_pos hbefore]
  cases cs with
  | nil =>
    rw [trimChars_eq_nil_iff]
    intro c hc
    rcases List.mem_append.1 hc with hc | hc
    · exact hbefore c (by simpa using hc)
    · exact hafter c hc
  | cons c cs =>
    -- the first and the last character of a trimmed text stop the trimming on either side
    have hc : isBlank c = false := by
      have hhead : (trimChars (c :: cs)).head? = some c := by rw [hcs, List.head?_cons]
      exact not_isBlank_of_head?_trimChars hhead
    have hstart : trimStart (c :: cs ++ after) = c :: cs ++ after := by simp [trimStart, hc]
    have hend : dropEndWhile isBlank after = [] := by
      rw [dropEndWhile_eq_rdropWhile, List.rdropWhile_eq_nil_iff]
      exact hafter
    have hself : dropEndWhile isBlank (c :: cs) = c :: cs := by
      refine dropEndWhile_eq_self fun d hd => ?_
      have hlast : (trimChars (c :: cs)).getLast? = some d := by rw [hcs, hd]
      exact not_isBlank_of_getLast?_trimChars hlast
    rw [trimChars, hdrop, hstart, dropEndWhile_append, if_pos hend, hself]

end PackageGraph.Text
