import PackageGraph.Text.LowerCase
/-!
# Marks in lower-case texts

A mark, which is a character before the letters of ASCII, stands in the lower case of a text only if it stands in the
text itself.
-/
namespace PackageGraph.Text

/-- The character stands before the letters of ASCII. -/
def IsMark (c : Char) : Prop := 0 < c.toNat ∧ c.toNat < 65

/-- No run of letters has a mark among its lower-case characters. -/
theorem le_of_mem_lowerRuns {first last step : Nat} {amount : Int} (h : (first, last, step, amount) ∈ lowerRuns) :
    65 ≤ first + amount := by
  have hall : lowerRuns.all (fun run => 65 ≤ (run.1 : Int) + run.2.2.2) = true := by decide
  simpa using List.all_eq_true.1 hall _ h

/-- No letter becomes a mark in lower case. -/
theorem eq_of_toLower_isMark {d : Char} (h : IsMark d.toLower) : d.toLower = d := by
  have hlow : d.toLower.toNat < 65 := h.2
  unfold Char.toLower at hlow ⊢
  split
  · rename_i hd
    rw [dif_pos hd] at hlow
    -- a capital letter becomes one that stands thirty-two characters after it
    have hrange : 65 ≤ d.val.toNat ∧ d.val.toNat ≤ 90 := by simpa [UInt32.le_iff_toNat_le] using hd
    have hvalue : (d.val + ('a'.val - 'A'.val)).toNat < 65 := hlow
    have hstep : ('a'.val - 'A'.val).toNat = 32 := rfl
    rw [UInt32.toNat_add] at hvalue
    omega
  · rfl

theorem toNat_ofNat (n : Nat) : (Char.ofNat n).toNat = n ∨ (Char.ofNat n).toNat = 0 := by
  by_cases h : n.isValidChar
  · refine .inl ?_
    rw [Char.ofNat, dif_pos h]
    rfl
  · refine .inr ?_
    rw [Char.ofNat, dif_neg h]
    rfl

/-- A mark is the lower case of nothing but itself. -/
theorem eq_of_mem_lowerChar {c d : Char} (hc : IsMark c) (h : c ∈ lowerChar d) : c = d := by
  -- the cases are those of the table: ASCII, the one letter that becomes two, the runs, and all other characters
  unfold lowerChar at h
  split at h
  · obtain rfl := List.mem_singleton.1 h
    exact eq_of_toLower_isMark hc
  · split at h
    · have hlow : c.toNat < 65 := hc.2
      rcases List.mem_cons.1 h with rfl | h
      · exact absurd hlow (by decide)
      · obtain rfl := List.mem_singleton.1 h
        exact absurd hlow (by decide)
    · split at h
      · rename_i first last step amount hrun
        obtain rfl := List.mem_singleton.1 h
        have hin := List.find?_some hrun
        have hvalue := le_of_mem_lowerRuns (List.mem_of_find?_eq_some hrun)
        simp only [Bool.and_eq_true, decide_eq_true_eq] at hin
        have hmark : 0 < _ ∧ _ < 65 := hc
        rcases toNat_ofNat (d.toNat + amount).toNat with hvalid | hinvalid
        · rw [hvalid] at hmark
          omega
        · rw [hinvalid] at hmark
          omega
      · exact List.mem_singleton.1 h

/-- A mark in the lower case of a text is in the text itself. -/
theorem mem_of_mem_lowerAfter {c : Char} (hc : IsMark c) {before cs : List Char} (h : c ∈ lowerAfter before cs) :
    c ∈ cs := by
  induction cs generalizing before with
  | nil => cases h
  | cons d rest ih =>
    rw [lowerAfter, List.mem_append] at h
    rcases h with h | h
    · have hlow : c.toNat < 65 := hc.2
      split at h
      · -- both forms of the small sigma are letters
        split at h
        · obtain rfl := List.mem_singleton.1 h
          exact absurd hlow (by decide)
        · obtain rfl := List.mem_singleton.1 h
          exact absurd hlow (by decide)
      · rw [eq_of_mem_lowerChar hc h]
        exact List.mem_cons_self
    · exact List.mem_cons_of_mem _ (ih h)

/-- A mark in the lower case of a text stands in the text. -/
theorem mem_of_mem_lowerChars {c : Char} (hc : IsMark c) {cs : List Char} (h : c ∈ lowerChars cs) : c ∈ cs :=
  mem_of_mem_lowerAfter hc h

end PackageGraph.Text
