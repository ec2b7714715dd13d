import PackageGraph.Framework.Parser
import PackageGraph.Proofs.Number.Numeral
import PackageGraph.Proofs.Text.Split
/-!
# Versions in short names

The components of a version are written with points between them, or one after the other. With points the version can
be told from any text after it that goes on with neither a digit nor a point. Without points it cannot, since the
digits do not say where a component ends.
-/
namespace PackageGraph

/-! ## Numbers -/

/-- A number has a first digit. -/
theorem exists_toDigits_eq_cons (n : Nat) : ∃ d ds, Nat.toDigits 10 n = d :: ds ∧ d.isDigit = true := by
  cases h : Nat.toDigits 10 n with
  | nil => exact absurd h Nat.toDigits_ne_nil
  | cons d ds => exact ⟨d, ds, rfl, isDigit_of_mem_toDigits (n := n) (h ▸ List.mem_cons_self)⟩

/-- A number is written as its sign and its digits. -/
theorem toList_intText (n : Int) :
    (intText n).toList = (if n < 0 then ['-'] else []) ++ Nat.toDigits 10 n.natAbs := by
  unfold intText
  split <;> simp [toList_natText]

/-- The characters of a whole number are digits, after a hyphen. -/
theorem mem_intText {n : Int} {c : Char} (h : c ∈ (intText n).toList) : c = '-' ∨ c.isDigit = true := by
  rw [toList_intText, List.mem_append] at h
  rcases h with h | h
  · split at h
    · exact .inl (List.mem_singleton.1 h)
    · cases h
  · exact .inr (isDigit_of_mem_toDigits h)

/-- The first character says whether a number is negative. -/
theorem sign_of_intText_append {a b : Int} {r s : List Char}
    (h : (intText a).toList ++ r = (intText b).toList ++ s) :
    (a < 0 ↔ b < 0) ∧ Nat.toDigits 10 a.natAbs ++ r = Nat.toDigits 10 b.natAbs ++ s := by
  obtain ⟨d, ds, hds, hd⟩ := exists_toDigits_eq_cons a.natAbs
  obtain ⟨e, es, hes, he⟩ := exists_toDigits_eq_cons b.natAbs
  rw [toList_intText, toList_intText] at h
  by_cases ha : a < 0
  · by_cases hb : b < 0
    · rw [if_pos ha, if_pos hb] at h
      exact ⟨iff_of_true ha hb, (List.cons.inj h).2⟩
    -- the one begins with a sign, the other with a digit
    · rw [if_pos ha, if_neg hb, hes] at h
      obtain rfl : '-' = e := (List.cons.inj h).1
      cases he
  · by_cases hb : b < 0
    · rw [if_neg ha, if_pos hb, hds] at h
      obtain rfl : d = '-' := (List.cons.inj h).1
      cases hd
    · rw [if_neg ha, if_neg hb] at h
      exact ⟨iff_of_false ha hb, h⟩

/-- A number can be told from what follows it, unless that goes on with a digit. -/
theorem intText_append_inj {a b : Int} {r s : List Char} (hr : ∀ c ∈ r.head?, c.isDigit = false)
    (hs : ∀ c ∈ s.head?, c.isDigit = false) (h : (intText a).toList ++ r = (intText b).toList ++ s) :
    a = b ∧ r = s := by
  obtain ⟨hsign, hdigits⟩ := sign_of_intText_append h
  obtain ⟨hdigits, hrest⟩ :=
    Text.run_append_inj (fun _ => isDigit_of_mem_toDigits) (fun _ => isDigit_of_mem_toDigits) hr hs hdigits
  have habs : a.natAbs = b.natAbs := by rw [← digitsValue_toDigits a.natAbs, hdigits, digitsValue_toDigits]
  exact ⟨by omega, hrest⟩

namespace Moniker

/-! ## Versions with points -/

theorem toList_pointedVersion_cons_cons (a b : Int) (v : List Int) :
    (pointedVersion (a :: b :: v)).toList = (intText a).toList ++ '.' :: (pointedVersion (b :: v)).toList := by
  simp [pointedVersion, Text.join]

/-- A version with points is written in points, signs and digits. -/
theorem mem_pointedVersion {v : List Int} {c : Char} (h : c ∈ (pointedVersion v).toList) :
    c = '.' ∨ c = '-' ∨ c.isDigit = true := by
  rw [pointedVersion, Text.toList_join] at h
  rcases Text.mem_intercalate h with hc | ⟨cs, hcs, hc⟩
  · exact .inl hc
  · simp only [List.map_map, List.mem_map, Function.comp_apply] at hcs
    obtain ⟨n, -, rfl⟩ := hcs
    exact .inr (mem_intText hc)

/-- A version with points can be told from what follows it, unless that goes on with a digit or a point. -/
theorem pointedVersion_append_inj {v w : List Int} {r s : List Char} (hv : v ≠ []) (hw : w ≠ [])
    (hr : ∀ c ∈ r.head?, isVersionChar c = false) (hs : ∀ c ∈ s.head?, isVersionChar c = false)
    (h : (pointedVersion v).toList ++ r = (pointedVersion w).toList ++ s) : v = w ∧ r = s := by
  have hdigit : ∀ {r : List Char}, (∀ c ∈ r.head?, isVersionChar c = false) → ∀ c ∈ r.head?, c.isDigit = false := by
    intro r hr c hc
    have hnot := hr c hc
    rw [isVersionChar, Bool.or_eq_false_iff] at hnot
    exact hnot.1
  have hpoint : ∀ {r : List Char}, (∀ c ∈ r.head?, isVersionChar c = false) → ∀ t, r ≠ '.' :: t := by
    rintro _ hr t rfl
    exact absurd (hr '.' rfl) (by decide)
  -- the numbers are taken off from the left, each up to its point
  induction v generalizing w with
  | nil => exact absurd rfl hv
  | cons a v ih =>
    cases w with
    | nil => exact absurd rfl hw
    | cons b w =>
      cases v with
      | nil =>
        cases w with
        | nil =>
          obtain ⟨rfl, hrest⟩ := intText_append_inj (hdigit hr) (hdigit hs) h
          exact ⟨rfl, hrest⟩
        | cons d w =>
          rw [toList_pointedVersion_cons_cons, List.append_assoc, List.cons_append] at h
          obtain ⟨-, hrest⟩ := intText_append_inj (hdigit hr) (by simp) h
          exact absurd hrest (hpoint hr _)
      | cons c v =>
        cases w with
        | nil =>
          rw [toList_pointedVersion_cons_cons, List.append_assoc, List.cons_append] at h
          obtain ⟨-, hrest⟩ := intText_append_inj (by simp) (hdigit hs) h
          exact absurd hrest.symm (hpoint hs _)
        | cons d w =>
          rw [toList_pointedVersion_cons_cons, toList_pointedVersion_cons_cons, List.append_assoc, List.append_assoc,
            List.cons_append, List.cons_append] at h
          obtain ⟨rfl, hrest⟩ := intText_append_inj (by simp) (by simp) h
          obtain ⟨hvw, hrest⟩ := ih (List.cons_ne_nil c v) (List.cons_ne_nil d w) (List.cons.inj hrest).2
          exact ⟨by rw [hvw], hrest⟩

/-! ## Versions without points -/

/-- The components of a version one after the other. -/
def joinedVersion (version : List Int) : String := Text.join "" (version.map intText)

theorem toList_joinedVersion_cons (a : Int) (v : List Int) :
    (joinedVersion (a :: v)).toList = (intText a).toList ++ (joinedVersion v).toList := by
  cases v <;> simp [joinedVersion, Text.join]

/-- A version without points is written in signs and digits. -/
theorem mem_joinedVersion {v : List Int} {c : Char} (h : c ∈ (joinedVersion v).toList) :
    c = '-' ∨ c.isDigit = true := by
  induction v with
  | nil => cases h
  | cons a v ih =>
    rw [toList_joinedVersion_cons, List.mem_append] at h
    rcases h with h | h
    · exact mem_intText h
    · exact ih h

/-- Without negative components there are only digits. -/
theorem isDigit_of_mem_joinedVersion {v : List Int} (hv : ∀ n ∈ v, 0 ≤ n) {c : Char}
    (h : c ∈ (joinedVersion v).toList) : c.isDigit = true := by
  induction v with
  | nil => cases h
  | cons a v ih =>
    rw [toList_joinedVersion_cons, List.mem_append] at h
    rcases h with h | h
    · have ha : ¬ a < 0 := Int.not_lt.2 (hv a List.mem_cons_self)
      rw [toList_intText, if_neg ha, List.nil_append] at h
      exact isDigit_of_mem_toDigits h
    · exact ih (fun n hn => hv n (List.mem_cons_of_mem _ hn)) h

/-- After the digits that a version without points begins with there is a hyphen or nothing. -/
theorem eq_hyphen_of_dropWhile_joinedVersion (v : List Int) {r : List Char} (hr : ∀ c ∈ r.head?, c = '-') :
    ∀ c ∈ (((joinedVersion v).toList ++ r).dropWhile Char.isDigit).head?, c = '-' := by
  induction v with
  | nil =>
    show ∀ c ∈ (r.dropWhile Char.isDigit).head?, c = '-'
    cases r with
    | nil => simp
    | cons c r =>
      obtain rfl : c = '-' := hr c rfl
      simp
  | cons a v ih =>
    rw [toList_joinedVersion_cons, toList_intText]
    by_cases ha : a < 0
    -- the sign of the first component ends the digits, or else they go on to the next
    · simp [ha]
    · rw [if_neg ha, List.nil_append, List.append_assoc,
        List.dropWhile_append_of_pos fun _ => isDigit_of_mem_toDigits]
      exact ih

/-- A version with a point is none without points. -/
theorem pointedVersion_append_ne_joinedVersion_append {v w : List Int} {r s : List Char} (hv : 2 ≤ v.length)
    (hw : w ≠ []) (hs : ∀ c ∈ s.head?, c = '-') :
    (pointedVersion v).toList ++ r ≠ (joinedVersion w).toList ++ s := by
  intro h
  obtain ⟨a, b, v, rfl⟩ : ∃ a b v', v = a :: b :: v' := by
    match v, hv with
    | a :: b :: v, _ => exact ⟨a, b, v, rfl⟩
  obtain ⟨c, w, rfl⟩ := List.exists_cons_of_ne_nil hw
  rw [toList_pointedVersion_cons_cons, toList_joinedVersion_cons, List.append_assoc, List.append_assoc,
    List.cons_append] at h
  -- the first number is followed by the point, where there should be a hyphen after the digits
  obtain ⟨-, hdigits⟩ := sign_of_intText_append h
  have hdrop := congrArg (List.dropWhile Char.isDigit) hdigits
  rw [List.dropWhile_append_of_pos fun _ => isDigit_of_mem_toDigits,
    List.dropWhile_append_of_pos fun _ => isDigit_of_mem_toDigits] at hdrop
  have hhyphen := eq_hyphen_of_dropWhile_joinedVersion w hs
  rw [← hdrop] at hhyphen
  exact absurd (hhyphen '.' (by simp)) (by decide)

end Moniker
end PackageGraph
