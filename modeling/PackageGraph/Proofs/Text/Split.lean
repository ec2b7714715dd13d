import Mathlib.Data.List.TakeWhile
import PackageGraph.Text.Split
/-!
# Fields of a text

Joining fields with a separator and splitting at it again gives the fields back when no field holds the separator. A
run of characters can be told from a text that goes on with another one.
-/
namespace PackageGraph.Text

variable {sep : Char}

/-! ## Splitting -/

/-- Without a separator there is one field. -/
theorem splitWhere_of_forall_not {p : Char → Bool} {cs : List Char} (h : ∀ c ∈ cs, p c = false) :
    splitWhere p cs = [cs] := by
  induction cs with
  | nil => rfl
  | cons c cs ih =>
    have hc : p c = false := h c List.mem_cons_self
    have hcs := ih fun d hd => h d (List.mem_cons_of_mem _ hd)
    simp [splitWhere, hc, hcs]

/-- What stands before a separator is the first field. -/
theorem splitWhere_append_cons {p : Char → Bool} {field : List Char} (h : ∀ c ∈ field, p c = false) {c : Char}
    (hc : p c = true) (rest : List Char) : splitWhere p (field ++ c :: rest) = field :: splitWhere p rest := by
  induction field with
  | nil => simp [splitWhere, hc]
  | cons d field ih =>
    have hd : p d = false := h d List.mem_cons_self
    have hfield := ih fun e he => h e (List.mem_cons_of_mem _ he)
    simp [splitWhere, hd, hfield]

/-- The fields before a separator and the fields after it. -/
theorem splitWhere_append_cons_append {p : Char → Bool} {c : Char} (hc : p c = true) (cs rest : List Char) :
    splitWhere p (cs ++ c :: rest) = splitWhere p cs ++ splitWhere p rest := by
  induction cs with
  | nil => simp [splitWhere, hc]
  | cons d cs ih =>
    rw [List.cons_append, splitWhere, splitWhere, ih]
    cases hs : splitWhere p cs with
    | nil => exact absurd hs (splitWhere_ne_nil p cs)
    | cons field fields => split <;> simp

/-- In a text that goes on the last field goes on, and others may follow it. -/
theorem splitWhere_append (p : Char → Bool) (cs rest : List Char) : ∃ init last more fields,
    splitWhere p cs = init ++ [last] ∧ splitWhere p (cs ++ rest) = init ++ (last ++ more) :: fields := by
  induction cs with
  | nil =>
    cases hrest : splitWhere p rest with
    | nil => exact absurd hrest (splitWhere_ne_nil p rest)
    | cons more fields => exact ⟨[], [], more, fields, rfl, hrest⟩
  | cons c cs ih =>
    obtain ⟨init, last, more, fields, hcs, hrest⟩ := ih
    rw [List.cons_append, splitWhere, splitWhere, hcs, hrest]
    split
    · exact ⟨[] :: init, last, more, fields, rfl, rfl⟩
    · cases init with
      | nil => exact ⟨[], c :: last, more, fields, rfl, rfl⟩
      | cons field init => exact ⟨(c :: field) :: init, last, more, fields, rfl, rfl⟩

/-- A character of a text is a separator or stands in a field. -/
theorem mem_splitWhere {p : Char → Bool} {cs : List Char} {c : Char} (h : c ∈ cs) :
    p c = true ∨ ∃ f ∈ splitWhere p cs, c ∈ f := by
  induction cs with
  | nil => cases h
  | cons d cs ih =>
    rw [splitWhere]
    by_cases hd : p d = true
    · rw [if_pos hd]
      rcases List.mem_cons.1 h with rfl | hc
      · exact .inl hd
      · rcases ih hc with hsep | ⟨f, hf, hcf⟩
        · exact .inl hsep
        · exact .inr ⟨f, List.mem_cons_of_mem _ hf, hcf⟩
    -- the character joins the first field of the rest, of which there is at least one
    · rw [if_neg hd]
      cases hs : splitWhere p cs with
      | nil => exact absurd hs (splitWhere_ne_nil p cs)
      | cons field fields =>
        rcases List.mem_cons.1 h with rfl | hc
        · exact .inr ⟨c :: field, by simp, by simp⟩
        · rcases ih hc with hsep | ⟨f, hf, hcf⟩
          · exact .inl hsep
          · rw [hs] at hf
            rcases List.mem_cons.1 hf with rfl | hf
            · exact .inr ⟨d :: f, by simp, List.mem_cons_of_mem _ hcf⟩
            · exact .inr ⟨f, List.mem_cons_of_mem _ hf, hcf⟩

theorem mem_splitOn (sep : Char) {cs : List Char} {c : Char} (h : c ∈ cs) :
    c = sep ∨ ∃ f ∈ splitOn sep cs, c ∈ f := by
  rcases mem_splitWhere (p := (· == sep)) h with hsep | hfield
  · exact .inl (beq_iff_eq.1 hsep)
  · exact .inr hfield

/-- No field holds the separator. -/
theorem notMem_of_mem_splitOn {cs field : List Char} (h : field ∈ splitOn sep cs) : sep ∉ field := by
  induction cs generalizing field with
  | nil =>
    obtain rfl : field = [] := List.mem_singleton.1 h
    exact List.not_mem_nil
  | cons c cs ih =>
    rw [splitOn, splitWhere] at h
    split at h
    · rcases List.mem_cons.1 h with rfl | h
      · exact List.not_mem_nil
      · exact ih h
    · rename_i hc
      have hne : sep ≠ c := fun heq => hc (beq_iff_eq.2 heq.symm)
      split at h
      · obtain rfl := List.mem_singleton.1 h
        simpa using hne
      · rename_i first rest hsplit
        -- the first field is the one that the character is added to
        have hfields : ∀ f ∈ first :: rest, sep ∉ f := fun f hf => ih (show f ∈ splitWhere _ cs from hsplit ▸ hf)
        rcases List.mem_cons.1 h with rfl | h
        · simpa [hne] using hfields first List.mem_cons_self
        · exact hfields field (List.mem_cons_of_mem _ h)

theorem splitOn_of_notMem {cs : List Char} (h : sep ∉ cs) : splitOn sep cs = [cs] :=
  splitWhere_of_forall_not fun _ hc => beq_eq_false_iff_ne.2 fun heq => h (heq ▸ hc)

/-- A field ends at the first separator after it. -/
theorem splitOn_append_cons {field : List Char} (h : sep ∉ field) (rest : List Char) :
    splitOn sep (field ++ sep :: rest) = field :: splitOn sep rest := by
  refine splitWhere_append_cons (fun c hc => ?_) (by simp) rest
  exact beq_eq_false_iff_ne.2 fun heq => h (heq ▸ hc)

/-- A field after the last separator is the last one. -/
theorem splitOn_append_cons_of_notMem {field : List Char} (h : sep ∉ field) (cs : List Char) :
    splitOn sep (cs ++ sep :: field) = splitOn sep cs ++ [field] := by
  rw [splitOn, splitWhere_append_cons_append (by simp), ← splitOn, ← splitOn, splitOn_of_notMem h]

/-- The fields of joined fields. -/
theorem splitOn_intercalate {fields : List (List Char)} (hne : fields ≠ []) (h : ∀ f ∈ fields, sep ∉ f) :
    splitOn sep ([sep].intercalate fields) = fields := by
  induction fields with
  | nil => exact absurd rfl hne
  | cons f fields ih =>
    have hf : sep ∉ f := h f List.mem_cons_self
    -- the separator stands after the first field only if there is another
    cases fields with
    | nil => simpa using splitOn_of_notMem hf
    | cons g fields =>
      have hrest := ih (by simp) fun k hk => h k (List.mem_cons_of_mem _ hk)
      rw [List.intercalate_cons_cons, List.append_assoc, List.singleton_append, splitOn_append_cons hf, hrest]

/-- Fields that a text was split into make it up again. -/
theorem intercalate_splitOn (sep : Char) (cs : List Char) : [sep].intercalate (splitOn sep cs) = cs := by
  induction cs with
  | nil => rfl
  | cons c cs ih =>
    rw [splitOn, splitWhere]
    rw [splitOn] at ih
    cases hs : splitWhere (· == sep) cs with
    | nil => exact absurd hs (splitWhere_ne_nil _ cs)
    | cons field fields =>
      rw [hs] at ih
      -- a separator opens a new field, and another character goes to the front of the first one
      split
      · rename_i hc
        rw [List.intercalate_cons_cons, ih, beq_iff_eq.1 hc]
        rfl
      · cases fields with
        | nil => simpa using ih
        | cons next fields =>
          rw [List.intercalate_cons_cons] at ih ⊢
          rw [← ih]
          rfl

/-- The characters of joined texts. -/
theorem toList_join (sep : String) (texts : List String) :
    (join sep texts).toList = sep.toList.intercalate (texts.map String.toList) := by
  induction texts with
  | nil => rfl
  | cons s texts ih =>
    cases texts with
    | nil => simp [join]
    | cons t texts =>
      rw [join, String.toList_append, String.toList_append, ih]
      · simp [List.intercalate_cons_cons]
      · simp

/-- A joined text has the separator and the characters of its fields, and no others. -/
theorem mem_intercalate {fields : List (List Char)} {c : Char} (h : c ∈ [sep].intercalate fields) :
    c = sep ∨ ∃ f ∈ fields, c ∈ f := by
  induction fields with
  | nil => simp at h
  | cons f fields ih =>
    cases fields with
    | nil => exact .inr ⟨f, by simp, by simpa using h⟩
    | cons g fields =>
      rw [List.intercalate_cons_cons, List.mem_append, List.mem_append] at h
      rcases h with (h | h) | h
      · exact .inr ⟨f, by simp, h⟩
      · exact .inl (List.mem_singleton.1 h)
      · rcases ih h with hsep | ⟨k, hk, hc⟩
        · exact .inl hsep
        · exact .inr ⟨k, List.mem_cons_of_mem _ hk, hc⟩

theorem mem_intercalate_of_mem {fields : List (List Char)} {f : List Char} (hf : f ∈ fields) {c : Char} (hc : c ∈ f) :
    c ∈ [sep].intercalate fields := by
  induction fields with
  | nil => cases hf
  | cons g fields ih =>
    cases fields with
    | nil =>
      obtain rfl := List.mem_singleton.1 hf
      simpa using hc
    | cons h fields =>
      rw [List.intercalate_cons_cons, List.mem_append]
      rcases List.mem_cons.1 hf with rfl | hf
      · exact .inl (List.mem_append_left _ hc)
      · exact .inr (ih hf)

/-- The characters of a field are those of the text. -/
theorem mem_of_mem_splitOn {cs f : List Char} (hf : f ∈ splitOn sep cs) {c : Char} (hc : c ∈ f) : c ∈ cs := by
  rw [← intercalate_splitOn sep cs]
  exact mem_intercalate_of_mem hf hc

/-! ## Cutting at the first separator -/

theorem cut_of_notMem {cs : List Char} (h : sep ∉ cs) : cut sep cs = (cs, none) := by
  induction cs with
  | nil => rfl
  | cons c cs ih =>
    simp only [List.mem_cons, not_or] at h
    simp [cut, ih h.2, Ne.symm h.1]

theorem cut_append_cons {before : List Char} (h : sep ∉ before) (rest : List Char) :
    cut sep (before ++ sep :: rest) = (before, some rest) := by
  induction before with
  | nil => simp [cut]
  | cons c before ih =>
    simp only [List.mem_cons, not_or] at h
    simp [cut, ih h.2, Ne.symm h.1]

/-- A text is cut at the first separator, which is in neither part before it. -/
theorem eq_append_of_cut_eq_some {cs before rest : List Char} (h : cut sep cs = (before, some rest)) :
    cs = before ++ sep :: rest ∧ sep ∉ before := by
  induction cs generalizing before with
  | nil => cases h
  | cons c cs ih =>
    unfold cut at h
    split at h
    · rename_i hc
      obtain ⟨rfl, rfl⟩ : [] = before ∧ cs = rest := by simpa using h
      simp [hc]
    · rename_i hc
      obtain ⟨rfl, hsome⟩ : c :: (cut sep cs).1 = before ∧ (cut sep cs).2 = some rest := by simpa using h
      obtain ⟨hcs, hbefore⟩ : cs = (cut sep cs).1 ++ sep :: rest ∧ sep ∉ (cut sep cs).1 :=
        ih (Prod.ext rfl hsome)
      exact ⟨by rw [List.cons_append, ← hcs], by simp [hbefore, Ne.symm hc]⟩

theorem notMem_of_cut_eq_none {cs before : List Char} (h : cut sep cs = (before, none)) : sep ∉ cs := by
  intro hsep
  obtain ⟨front, rest, rfl, hfront⟩ := List.eq_append_cons_of_mem hsep
  rw [cut_append_cons hfront] at h
  cases h

/-- What stands after the first separator stands in the text. -/
theorem mem_of_mem_cut {cs : List Char} {c : Char} (h : c ∈ (cut sep cs).2.getD []) : c ∈ cs := by
  induction cs with
  | nil => cases h
  | cons d cs ih =>
    rw [cut] at h
    split at h
    · exact List.mem_cons_of_mem _ h
    · exact List.mem_cons_of_mem _ (ih h)

/-! ## Runs of characters -/

section Run

variable {p : Char → Bool} {cs ds r s : List Char}

theorem takeWhile_run (hcs : ∀ c ∈ cs, p c = true) (hr : ∀ c ∈ r.head?, p c = false) :
    (cs ++ r).takeWhile p = cs := by
  rw [List.takeWhile_append_of_pos hcs]
  cases r with
  | nil => simp
  | cons c r =>
    have hc : p c = false := hr c rfl
    simp [hc]

theorem dropWhile_run (hcs : ∀ c ∈ cs, p c = true) (hr : ∀ c ∈ r.head?, p c = false) :
    (cs ++ r).dropWhile p = r := by
  rw [List.dropWhile_append_of_pos hcs]
  cases r with
  | nil => rfl
  | cons c r =>
    have hc : p c = false := hr c rfl
    simp [hc]

/-- A run at the beginning goes on when the text goes on. -/
theorem takeWhile_prefix_takeWhile (h : cs <+: ds) : cs.takeWhile p <+: ds.takeWhile p := by
  obtain ⟨rest, rfl⟩ := h
  rw [List.takeWhile_append]
  split
  · rename_i hall
    rw [(List.takeWhile_prefix p).eq_of_length hall]
    exact List.prefix_append cs _
  · exact List.prefix_rfl

/-- A run that has come to its end does not go on. -/
theorem takeWhile_append_of_mem {c : Char} (hc : c ∈ cs) (h : p c = false) (rest : List Char) :
    (cs ++ rest).takeWhile p = cs.takeWhile p ∧ (cs ++ rest).dropWhile p = cs.dropWhile p ++ rest := by
  have hall : ¬ ∀ c ∈ cs, p c = true := by
    intro hall
    rw [hall c hc] at h
    cases h
  have hne : cs.dropWhile p ≠ [] := fun hnil => hall (List.dropWhile_eq_nil_iff.1 hnil)
  have hlength : (cs.takeWhile p).length ≠ cs.length := fun hlength =>
    hall (List.takeWhile_eq_self_iff.1 ((List.takeWhile_prefix p).eq_of_length hlength))
  rw [List.takeWhile_append, List.dropWhile_append, if_neg hlength, if_neg (by simpa using hne)]
  exact ⟨rfl, rfl⟩

/-- A run of characters can be told from what follows it. -/
theorem run_append_inj (hcs : ∀ c ∈ cs, p c = true) (hds : ∀ c ∈ ds, p c = true)
    (hr : ∀ c ∈ r.head?, p c = false) (hs : ∀ c ∈ s.head?, p c = false) (h : cs ++ r = ds ++ s) :
    cs = ds ∧ r = s := by
  have hrun : cs = ds := by rw [← takeWhile_run hcs hr, h, takeWhile_run hds hs]
  subst hrun
  exact ⟨rfl, List.append_cancel_left h⟩

end Run

end PackageGraph.Text
