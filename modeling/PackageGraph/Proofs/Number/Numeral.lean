import Mathlib.Algebra.Group.Nat.Defs
import Mathlib.Data.List.Induction
import PackageGraph.Number.Format
import PackageGraph.Number.Reader
/-!
# Numerals

Every natural number is read back from its decimal text, and a number that was read from so many digits is written
with no more of them.
-/
namespace PackageGraph

namespace Text

/-- A digit of any script stands for a number below ten. -/
theorem digit?_lt {c : Char} {n : Nat} (h : digit? c = some n) : n < 10 := by
  unfold digit? at h
  split at h
  · unfold asciiDigit? at h
    split at h
    · rename_i hc
      have hle : c.toNat ≤ 57 := (Char.isDigit_iff_toNat.1 hc).2
      have hn : c.toNat - 48 = n := Option.some.inj h
      omega
    · cases h
  -- the digits of a script are the ten characters from its zero on
  · obtain ⟨z, hz, rfl⟩ := Option.map_eq_some_iff.1 h
    have hrange := List.find?_some hz
    simp only [Bool.and_eq_true, decide_eq_true_eq] at hrange
    omega

/-- The value of an ASCII digit. -/
theorem digit?_of_isDigit {c : Char} (h : c.isDigit = true) : digit? c = some (c.toNat - 48) := by
  have hle : c.toNat ≤ 57 := (Char.isDigit_iff_toNat.1 h).2
  have hlt : c.toNat < 128 := by omega
  simp [digit?, asciiDigit?, h, hlt]

theorem isDigit_of_isDigit {c : Char} (h : c.isDigit = true) : isDigit c = true := by
  simp [isDigit, digit?_of_isDigit h]

/-- One more digit on the right multiplies the number before it by ten. -/
theorem digitsValue_append_singleton (cs : List Char) (c : Char) :
    digitsValue (cs ++ [c]) = digitsValue cs * 10 + (digit? c).getD 0 := by
  simp [digitsValue]

/-- A number is below the power of ten of as many digits as it is read from. -/
theorem digitsValue_lt (cs : List Char) : digitsValue cs < 10 ^ cs.length := by
  -- the last digit is the one that is added, so the induction goes from the end
  induction cs using List.reverseRecOn with
  | nil => simp [digitsValue]
  | append_singleton cs c ih =>
    have hdigit : (digit? c).getD 0 < 10 := by
      cases h : digit? c with
      | none => simp
      | some n => exact digit?_lt h
    rw [digitsValue_append_singleton, List.length_append, List.length_singleton, Nat.pow_succ]
    omega

/-- A numeral that goes on has no smaller value. -/
theorem digitsValue_le_append (cs ds : List Char) : digitsValue cs ≤ digitsValue (cs ++ ds) := by
  induction ds using List.reverseRecOn with
  | nil => simp
  | append_singleton ds d ih =>
    rw [← List.append_assoc, digitsValue_append_singleton]
    omega

/-- Of ASCII digits the value is that of the decimal numeral. -/
theorem digitsValue_eq_ofDigitChars {cs : List Char} (h : ∀ c ∈ cs, c.isDigit = true) :
    digitsValue cs = Nat.ofDigitChars 10 cs 0 := by
  induction cs using List.reverseRecOn with
  | nil => rfl
  | append_singleton cs c ih =>
    have hc : c.isDigit = true := h c (by simp)
    have hcs := ih fun d hd => h d (List.mem_append_left _ hd)
    rw [digitsValue_append_singleton, hcs, digit?_of_isDigit hc, Nat.ofDigitChars_append]
    simp [Nat.ofDigitChars_cons, Nat.mul_comm]

end Text

/-! ## The decimal text of a number -/

theorem toList_natText (n : Nat) : (natText n).toList = Nat.toDigits 10 n := String.toList_ofList

/-- A number is printed in ASCII digits alone. -/
theorem isDigit_of_mem_toDigits {n : Nat} {c : Char} (h : c ∈ Nat.toDigits 10 n) : c.isDigit = true :=
  Nat.isDigit_of_mem_toDigits (by decide) (by decide) h

/-- A number is read back from its digits. -/
theorem digitsValue_toDigits (n : Nat) : Text.digitsValue (Nat.toDigits 10 n) = n := by
  rw [Text.digitsValue_eq_ofDigitChars fun _ => isDigit_of_mem_toDigits, Nat.ofDigitChars_ten_toDigits]

/-- A number below `10 ^ k` is printed with at most `k` digits. -/
theorem length_toDigits_le {n k : Nat} (hk : 0 < k) (h : n < 10 ^ k) : (Nat.toDigits 10 n).length ≤ k :=
  (Nat.length_toDigits_le_iff (by decide) hk).2 h

/-! ## Leading zeros -/

namespace Text

/-- The digits without the zeros before them; of zeros alone the last one stays. -/
def dropZeros : List Char → List Char
  | '0' :: d :: ds => dropZeros (d :: ds)
  | ds => ds

end Text

/-- An ASCII digit is the one that its value is printed as. -/
theorem digitChar_of_isDigit {c : Char} (h : c.isDigit = true) : Nat.digitChar (c.toNat - 48) = c := by
  have hlow : 48 ≤ c.toNat := (Char.isDigit_iff_toNat.1 h).1
  have hhigh : c.toNat ≤ 57 := (Char.isDigit_iff_toNat.1 h).2
  have hall : ∀ k < 10, Nat.digitChar k = Char.ofNat (48 + k) := by decide
  rw [hall _ (by omega), Nat.add_sub_cancel' hlow, Char.ofNat_toNat]

/-- Digits that do not begin with a zero, unless that is all, are those of the number that they denote. -/
theorem toDigits_digitsValue_of_head {cs : List Char} (hne : cs ≠ []) (h : ∀ c ∈ cs, c.isDigit = true)
    (hzero : ∀ ds, cs = '0' :: ds → ds = []) : Nat.toDigits 10 (Text.digitsValue cs) = cs := by
  induction cs using List.reverseRecOn with
  | nil => exact absurd rfl hne
  | append_singleton cs c ih =>
    have hc : c.isDigit = true := h c (by simp)
    have hvalue : (Text.digit? c).getD 0 = c.toNat - 48 := by rw [Text.digit?_of_isDigit hc, Option.getD_some]
    have hlt : c.toNat - 48 < 10 := by
      have hle : c.toNat ≤ 57 := (Char.isDigit_iff_toNat.1 hc).2
      omega
    have hlast : Nat.toDigits 10 (c.toNat - 48) = [c] := by
      rw [Nat.toDigits_of_lt_base hlt, digitChar_of_isDigit hc]
    rw [Text.digitsValue_append_singleton, hvalue]
    by_cases hcs : cs = []
    · subst hcs
      simpa [Text.digitsValue] using hlast
    · -- a number of several digits does not begin with a zero, so it is not zero without the last one
      have hhead : ∀ ds, cs ≠ '0' :: ds := by
        rintro ds rfl
        simpa using hzero (ds ++ [c]) rfl
      have hprefix := ih hcs (fun d hd => h d (List.mem_append_left _ hd)) fun ds hds => absurd hds (hhead ds)
      have hpos : 0 < Text.digitsValue cs := by
        refine Nat.pos_of_ne_zero fun heq => hhead [] ?_
        rw [← hprefix, heq]
        rfl
      rw [Nat.mul_comm, ← Nat.toDigits_append_toDigits (by decide) hpos hlt, hprefix, hlast]

/-- A number is written with the digits that it was read from, without the zeros before them. -/
theorem toDigits_digitsValue {cs : List Char} (hne : cs ≠ []) (h : ∀ c ∈ cs, c.isDigit = true) :
    Nat.toDigits 10 (Text.digitsValue cs) = Text.dropZeros cs := by
  fun_induction Text.dropZeros cs with
  | case1 d ds ih =>
    rw [← ih (by simp) fun c hc => h c (List.mem_cons_of_mem _ hc)]
    rfl
  | case2 ds hds =>
    refine toDigits_digitsValue_of_head hne h fun rest hrest => ?_
    cases rest with
    | nil => rfl
    | cons d rest => exact absurd hrest (hds d rest)

end PackageGraph
