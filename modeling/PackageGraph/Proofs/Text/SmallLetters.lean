import PackageGraph.Proofs.Text.Blank
import PackageGraph.Proofs.Text.LowerCase
/-!
# Texts in lower case

The lower case of a character has no other lower case and is no white space. So a text in lower case stays as it is when
it is put into lower case again, and it ends with white space only if the text that it comes from does.
-/
namespace PackageGraph.Text

/-! ## Runs of characters -/

/-- A run of characters: the first, the last and the step between them. -/
structure CharRun where
  first : Nat
  last : Nat
  step : Nat

namespace CharRun

/-- The character lies in the run. -/
def Holds (r : CharRun) (n : Nat) : Prop := r.first ≤ n ∧ n ≤ r.last ∧ (n - r.first) % r.step = 0

/-- The runs lie apart, or one takes the even characters where the other takes the odd ones. -/
def isApart (r s : CharRun) : Bool :=
  Nat.blt r.last s.first || Nat.blt s.last r.first ||
    ((r.step == 2 || r.first == r.last) && s.step == 2 && r.first % 2 != s.first % 2)

/-- Runs that lie apart hold no number in common. -/
theorem not_holds_of_isApart {r s : CharRun} {n : Nat} (h : r.isApart s = true) (hr : r.Holds n) : ¬ s.Holds n := by
  obtain ⟨hfirst, hlast, hstep⟩ := hr
  rintro ⟨hfirst', hlast', hstep'⟩
  simp only [isApart, Bool.or_eq_true, Bool.and_eq_true, Nat.blt_eq, beq_iff_eq, bne_iff_ne, ne_eq] at h
  rcases h with (h | h) | ⟨⟨hr | hr, hs⟩, hparity⟩
  · omega
  · omega
  · rw [hr] at hstep
    rw [hs] at hstep'
    omega
  · rw [hs] at hstep'
    omega

end CharRun

/-- The lower-case characters of the runs of letters. -/
def smallRuns : List CharRun :=
  lowerRuns.map fun (first, last, step, amount) => ⟨(first + amount).toNat, (last + amount).toNat, step⟩

/-- The characters with a lower case of their own. -/
def capitalRuns : List CharRun :=
  ⟨65, 90, 1⟩ :: ⟨0x130, 0x130, 1⟩ :: lowerRuns.map fun (first, last, step, _) => ⟨first, last, step⟩

/-- Runs that hold all white space beyond ASCII. -/
def blankRuns : List CharRun := [⟨0x85, 0xA0, 1⟩, ⟨0x1680, 0x1680, 1⟩, ⟨0x2000, 0x205F, 1⟩, ⟨0x3000, 0x3000, 1⟩]

/-- No lower-case character is a capital or white space. -/
theorem isApart_of_mem_smallRuns {r s : CharRun} (hr : r ∈ smallRuns) (hs : s ∈ capitalRuns ++ blankRuns) :
    r.isApart s = true := by
  have hall : smallRuns.all (fun r => (capitalRuns ++ blankRuns).all fun s => r.isApart s) = true := by decide +kernel
  exact List.all_eq_true.1 (List.all_eq_true.1 hall r hr) s hs

/-! ## The lower case of a character -/

/-- What the lower case of a character may be. -/
theorem lowerChar_cases (c : Char) :
    (c.toNat < 128 ∧ lowerChar c = [c.toLower]) ∨ (c = 'İ' ∧ lowerChar c = ['i', Char.ofNat 0x307]) ∨
      (∃ first last step amount, (first, last, step, amount) ∈ lowerRuns ∧ CharRun.Holds ⟨first, last, step⟩ c.toNat ∧
        lowerChar c = [Char.ofNat (c.toNat + amount).toNat]) ∨ lowerChar c = [c] := by
  unfold lowerChar
  by_cases hascii : c.toNat < 128
  · exact .inl ⟨hascii, if_pos hascii⟩
  · rw [if_neg hascii]
    by_cases hdotted : c = 'İ'
    · exact .inr (.inl ⟨hdotted, if_pos hdotted⟩)
    · rw [if_neg hdotted]
      split
      · rename_i first last step amount hrun
        have hin := List.find?_some hrun
        simp only [Bool.and_eq_true, decide_eq_true_eq, beq_iff_eq] at hin
        exact .inr (.inr (.inl ⟨first, last, step, amount, List.mem_of_find?_eq_some hrun,
          ⟨hin.1.1, hin.1.2, hin.2⟩, rfl⟩))
      · exact .inr (.inr (.inr rfl))

/-- The character is its own lower case. -/
def IsSmall (c : Char) : Prop := lowerChar c = [c]

/-- A character in no run of capitals is small. -/
theorem isSmall_of_not_holds {c : Char} (h : ∀ s ∈ capitalRuns, ¬ s.Holds c.toNat) : IsSmall c := by
  rcases lowerChar_cases c with ⟨-, hlower⟩ | ⟨rfl, -⟩ | ⟨first, last, step, amount, hrun, hin, -⟩ | hlower
  · have hself : c.toLower = c := by
      unfold Char.toLower
      split
      · rename_i hc
        have hupper : 65 ≤ c.toNat ∧ c.toNat ≤ 90 := by simpa [UInt32.le_iff_toNat_le] using hc
        exact absurd ⟨hupper.1, hupper.2, Nat.mod_one _⟩ (h ⟨65, 90, 1⟩ List.mem_cons_self)
      · rfl
    rw [IsSmall, hlower, hself]
  · have hin : CharRun.Holds ⟨0x130, 0x130, 1⟩ 'İ'.toNat := ⟨Nat.le_refl _, Nat.le_refl _, rfl⟩
    exact absurd hin (h _ (List.mem_cons_of_mem _ List.mem_cons_self))
  · have hmem : ⟨first, last, step⟩ ∈ capitalRuns :=
      List.mem_cons_of_mem _ (List.mem_cons_of_mem _ (List.mem_map.2 ⟨_, hrun, rfl⟩))
    exact absurd hin (h _ hmem)
  · exact hlower

theorem isSmall_of_isMark {c : Char} (h : IsMark c) : IsSmall c := by
  have hmarks : ∀ n < 65, IsSmall (Char.ofNat n) := by
    unfold IsSmall
    decide
  rw [← Char.ofNat_toNat c]
  exact hmarks c.toNat h.2

/-- The lower case of a letter beyond ASCII is no capital and no white space. -/
theorem not_holds_of_mem_lowerRuns {first last step : Nat} {amount : Int} {n : Nat}
    (hrun : (first, last, step, amount) ∈ lowerRuns) (hn : CharRun.Holds ⟨first, last, step⟩ n) {s : CharRun}
    (hs : s ∈ capitalRuns ++ blankRuns) : ¬ s.Holds (n + amount).toNat := by
  obtain ⟨hfirst, hlast, hstep⟩ := hn
  simp only at hfirst hlast hstep
  have hsmall : ⟨(first + amount).toNat, (last + amount).toNat, step⟩ ∈ smallRuns := List.mem_map.2 ⟨_, hrun, rfl⟩
  refine CharRun.not_holds_of_isApart (isApart_of_mem_smallRuns hsmall hs) ?_
  have hlow := le_of_mem_lowerRuns hrun
  -- the distance from the first character stays the same
  have hdistance : (n + amount).toNat - (first + amount).toNat = n - first := by omega
  refine ⟨?_, ?_, ?_⟩
  · show (first + amount).toNat ≤ (n + amount).toNat
    omega
  · show (n + amount).toNat ≤ (last + amount).toNat
    omega
  · show ((n + amount).toNat - (first + amount).toNat) % step = 0
    rw [hdistance, hstep]

/-- The lower case of a character is in lower case. -/
theorem isSmall_of_mem_lowerChar {c d : Char} (h : d ∈ lowerChar c) : IsSmall d := by
  rcases lowerChar_cases c with ⟨hc, hlower⟩ | ⟨-, hlower⟩ | ⟨first, last, step, amount, hrun, hin, hlower⟩ | hlower
  -- ASCII characters are tried one by one, and the runs by their ends alone
  · have hascii : ∀ n < 128, lowerChar (Char.ofNat n).toLower = [(Char.ofNat n).toLower] := by decide
    rw [hlower, List.mem_singleton] at h
    rw [h, ← Char.ofNat_toNat c]
    exact hascii c.toNat hc
  · have hparts : ['i', Char.ofNat 0x307].all (fun d => lowerChar d == [d]) = true := by decide
    exact beq_iff_eq.1 (List.all_eq_true.1 hparts d (hlower ▸ h))
  · rw [hlower, List.mem_singleton] at h
    subst h
    rcases toNat_ofNat (c.toNat + amount).toNat with hvalid | hinvalid
    · refine isSmall_of_not_holds fun s hs => ?_
      rw [hvalid]
      exact not_holds_of_mem_lowerRuns hrun hin (List.mem_append_left _ hs)
    · have hnull : lowerChar (Char.ofNat 0) = [Char.ofNat 0] := by decide
      rw [← Char.ofNat_toNat (Char.ofNat _), hinvalid]
      exact hnull
  · rw [hlower, List.mem_singleton] at h
    rwa [h]

/-- A blank beyond ASCII is in one of the runs of blanks. -/
theorem holds_of_isBlank {c : Char} (h : isBlank c = true) (hc : ¬ IsMark c) : ∃ s ∈ blankRuns, s.Holds c.toNat := by
  simp only [IsMark, not_and, not_lt] at hc
  simp only [isBlank, Bool.or_eq_true, Bool.and_eq_true, decide_eq_true_eq, beq_iff_eq] at h
  have hrange : (0x85 ≤ c.toNat ∧ c.toNat ≤ 0xA0) ∨ c.toNat = 0x1680 ∨ (0x2000 ≤ c.toNat ∧ c.toNat ≤ 0x205F) ∨
      c.toNat = 0x3000 := by omega
  have hstep : ∀ n, n % 1 = 0 := Nat.mod_one
  rcases hrange with h | h | h | h
  · exact ⟨⟨0x85, 0xA0, 1⟩, by simp [blankRuns], h.1, h.2, hstep _⟩
  · exact ⟨⟨0x1680, 0x1680, 1⟩, by simp [blankRuns], h.ge, h.le, hstep _⟩
  · exact ⟨⟨0x2000, 0x205F, 1⟩, by simp [blankRuns], h.1, h.2, hstep _⟩
  · exact ⟨⟨0x3000, 0x3000, 1⟩, by simp [blankRuns], h.ge, h.le, hstep _⟩

/-- White space is the lower case of nothing but itself. -/
theorem eq_of_mem_lowerChar_of_isBlank {c d : Char} (h : d ∈ lowerChar c) (hd : isBlank d = true) : d = c := by
  by_cases hmark : IsMark d
  · exact eq_of_mem_lowerChar hmark h
  -- a blank beyond ASCII comes from none of the characters that change, case by case of the table
  · obtain ⟨s, hs, hin⟩ := holds_of_isBlank hd hmark
    rcases lowerChar_cases c with ⟨hc, hlower⟩ | ⟨-, hlower⟩ | ⟨first, last, step, amount, hrun, hc, hlower⟩ | hlower
    · have hascii : ∀ n < 128, (Char.ofNat n).toLower.toNat < 128 := by decide
      have hbeyond : ∀ s ∈ blankRuns, 128 ≤ s.first := by decide
      have hlow := hascii c.toNat hc
      have hfirst := hin.1
      rw [hlower, List.mem_singleton] at h
      rw [h] at hfirst
      rw [Char.ofNat_toNat] at hlow
      exact absurd (le_trans (hbeyond s hs) hfirst) (Nat.not_le.2 hlow)
    · have hparts : ['i', Char.ofNat 0x307].all (fun d => !isBlank d) = true := by decide
      have hblank := List.all_eq_true.1 hparts d (hlower ▸ h)
      rw [hd] at hblank
      cases hblank
    · rw [hlower, List.mem_singleton] at h
      subst h
      rcases toNat_ofNat (c.toNat + amount).toNat with hvalid | hinvalid
      · rw [hvalid] at hin
        exact absurd hin (not_holds_of_mem_lowerRuns hrun hc (List.mem_append_right _ hs))
      · rw [isBlank, hinvalid] at hd
        cases hd
    · rw [hlower, List.mem_singleton] at h
      exact h

/-! ## The lower case of a text -/

theorem isSmall_of_mem_lowerAfter {before cs : List Char} {d : Char} (h : d ∈ lowerAfter before cs) : IsSmall d := by
  have hsigma : ['ς', 'σ'].all (fun d => lowerChar d == [d]) = true := by decide
  induction cs generalizing before with
  | nil => cases h
  | cons c cs ih =>
    rw [lowerAfter, List.mem_append] at h
    rcases h with h | h
    · split at h
      · have hmem : d ∈ ['ς', 'σ'] := by split at h <;> simp [List.mem_singleton.1 h]
        exact beq_iff_eq.1 (List.all_eq_true.1 hsigma d hmem)
      · exact isSmall_of_mem_lowerChar h
    · exact ih h

/-- A text in lower case is in lower case throughout. -/
theorem isSmall_of_mem_lowerChars {cs : List Char} {d : Char} (h : d ∈ lowerChars cs) : IsSmall d :=
  isSmall_of_mem_lowerAfter h

theorem lowerAfter_eq_self {before cs : List Char} (h : ∀ c ∈ cs, IsSmall c) : lowerAfter before cs = cs := by
  induction cs generalizing before with
  | nil => rfl
  | cons c cs ih =>
    obtain ⟨hc, hcs⟩ := List.forall_mem_cons.1 h
    have hsigma : c ≠ 'Σ' := by
      rintro rfl
      exact absurd hc (by unfold IsSmall; decide)
    rw [lowerAfter, if_neg hsigma, hc, ih hcs, List.singleton_append]

/-- A text that is in lower case throughout stays as it is. -/
theorem lowerChars_eq_self {cs : List Char} (h : ∀ c ∈ cs, IsSmall c) : lowerChars cs = cs := lowerAfter_eq_self h

/-- The last character of a text in lower case comes from the last character of the text. -/
theorem exists_lowerAfter_append_singleton (before cs : List Char) (c : Char) :
    ∃ front last : List Char, lowerAfter before (cs ++ [c]) = front ++ last ∧ last ≠ [] ∧
      ∀ d ∈ last, isBlank d = true → d = c := by
  induction cs generalizing before with
  | nil =>
    -- only the last character matters, which may be a sigma and is then a letter in either form
    refine ⟨[], lowerAfter before [c], rfl, ?_, ?_⟩
    · rw [lowerAfter, lowerAfter, List.append_nil]
      split
      · split <;> simp
      · rcases lowerChar_cases c with ⟨-, h⟩ | ⟨-, h⟩ | ⟨_, _, _, _, -, -, h⟩ | h <;> simp [h]
    · intro d hd hblank
      rw [lowerAfter, lowerAfter, List.append_nil] at hd
      split at hd
      · have hsigma : ['ς', 'σ'].all (fun d => !isBlank d) = true := by decide
        have hmem : d ∈ ['ς', 'σ'] := by split at hd <;> simp [List.mem_singleton.1 hd]
        have hnot := List.all_eq_true.1 hsigma d hmem
        rw [hblank] at hnot
        cases hnot
      · exact eq_of_mem_lowerChar_of_isBlank hd hblank
  | cons b cs ih =>
    obtain ⟨front, last, heq, hne, hlast⟩ := ih (b :: before)
    exact ⟨_, last, (congrArg (_ ++ ·) heq).trans (List.append_assoc _ _ _).symm, hne, hlast⟩

/-- A text in lower case ends with white space only if the text does. -/
theorem not_isBlank_of_getLast?_lowerChars {cs : List Char} (h : ∀ c ∈ cs.getLast?, isBlank c = false) :
    ∀ d ∈ (lowerChars cs).getLast?, isBlank d = false := by
  intro d hd
  rcases List.eq_nil_or_concat' cs with rfl | ⟨init, c, rfl⟩
  · cases hd
  · obtain ⟨front, last, heq, hne, hlast⟩ := exists_lowerAfter_append_singleton [] init c
    have hc : isBlank c = false := h c (by simp)
    rw [lowerChars, heq, List.getLast?_append_of_ne_nil _ hne] at hd
    rw [Bool.eq_false_iff]
    intro hblank
    rw [hlast d (List.mem_of_getLast? hd) hblank, hc] at hblank
    cases hblank

end PackageGraph.Text
