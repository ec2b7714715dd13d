import Mathlib.Data.List.DropRight
import Mathlib.Data.List.Forall2
import PackageGraph.Proofs.OrderedMap
import PackageGraph.Settings.PackageSources
/-!
# The package sources that count

Of the entries for sources those count that no later one forgets, and of these the last under each key. Which sources
are disabled does not depend on where the document says so.
-/
namespace PackageGraph

namespace PackageSources

/-! ## Entries for sources -/

/-- Whether an entry forgets the sources before it. -/
def isClear (e : Element) : Bool := e.name == "clear"

/-- The key and the value of the source that an entry adds. -/
def declaration? (e : Element) : Option (String × String) :=
  if e.name = "add" ∧ e.attributeText "key" ≠ "" ∧ e.attributeText "value" ≠ "" then
    some (e.attributeText "key", e.attributeText "value")
  else none

/-- The sources that are added after the last entry that forgets, in document order. -/
def declarations (root : Element) : List (String × String) :=
  ((entries root "packageSources").rtakeWhile fun e => !isClear e).filterMap declaration?

/-- Some entry disables the source with a key. -/
def IsDisabled (root : Element) (key : String) : Prop :=
  ∃ e ∈ entries root "disabledPackageSources", e.name = "add" ∧ e.attribute? "key" = some key ∧
    Text.lower (e.attributeText "value") = "true"

theorem addEntry_of_isClear {e : Element} (h : isClear e = true) (sources : OrderedMap String String) :
    addEntry sources e = [] := if_pos h

theorem addEntry_of_not_isClear {e : Element} (h : isClear e = false) (sources : OrderedMap String String) :
    addEntry sources e =
      match declaration? e with
      | none => sources
      | some (key, value) => OrderedMap.put sources key value := by
  have hadds : (e.name == "add" && !(e.attributeText "key").isEmpty && !(e.attributeText "value").isEmpty) = true ↔
      e.name = "add" ∧ e.attributeText "key" ≠ "" ∧ e.attributeText "value" ≠ "" := by
    simp [and_assoc]
  rw [addEntry, ← isClear, h, if_neg Bool.false_ne_true, declaration?]
  simp only [hadds]
  split <;> rfl

/-- Entries declare the sources that are added after the last entry that forgets. -/
theorem foldl_addEntry_eq (es : List Element) :
    es.foldl addEntry [] = OrderedMap.ofPairs ((es.rtakeWhile fun e => !isClear e).filterMap declaration?) := by
  -- from the end, where an entry forgets everything or adds to what the ones before it declare
  induction es using List.reverseRecOn with
  | nil => rfl
  | append_singleton es e ih =>
    rw [List.foldl_append, List.foldl_cons, List.foldl_nil, List.rtakeWhile_concat]
    cases h : isClear e with
    | true =>
      rw [addEntry_of_isClear h]
      rfl
    | false =>
      rw [addEntry_of_not_isClear h, ih, if_pos (by rfl), List.filterMap_append]
      cases hadded : declaration? e with
      | none => rw [List.filterMap_cons_none hadded, List.filterMap_nil, List.append_nil]
      | some source =>
        rw [List.filterMap_cons_some hadded, List.filterMap_nil, OrderedMap.ofPairs_append_singleton]

/-- The declared sources are the map of all declarations after the last entry that forgets. -/
theorem declared_eq (root : Element) : declared root = OrderedMap.ofPairs (declarations root) :=
  foldl_addEntry_eq _

/-! ## Disabled sources -/

/-- The disabled keys are those that a section disables. -/
theorem mem_disabledKeys_iff {root : Element} {key : String} : key ∈ disabledKeys root ↔ IsDisabled root key := by
  rw [disabledKeys, List.mem_filterMap, IsDisabled]
  simp only [List.mem_filter, disables, Bool.and_eq_true, beq_iff_eq]
  constructor
  · rintro ⟨e, ⟨he, hname, hvalue⟩, hkey⟩
    exact ⟨e, he, hname, hkey, hvalue⟩
  · rintro ⟨e, he, hname, hkey, hvalue⟩
    exact ⟨e, ⟨he, hname, hvalue⟩, hkey⟩

/-- The sources of two documents are the same if they declare the same and disable the same. -/
theorem enabled_congr {root root' : Element} (hdeclared : declared root' = declared root)
    (hdisabled : ∀ key, key ∈ disabledKeys root' ↔ key ∈ disabledKeys root) : enabled root' = enabled root := by
  have hcontains : ∀ key, (disabledKeys root').contains key = (disabledKeys root).contains key := by
    intro key
    rw [Bool.eq_iff_iff, List.contains_iff_mem, List.contains_iff_mem, hdisabled]
  rw [enabled, enabled, hdeclared]
  simp only [hcontains]

/-! ## Documents with the same sources -/

/-- Of the entries for sources those are deleted that stand before the last one that forgets. -/
structure DeletesForgotten (root root' : Element) : Prop where
  others : (root'.children.filter fun e => e.name != "packageSources") =
    root.children.filter fun e => e.name != "packageSources"
  /-- Of what is kept only the first entry may forget, and it does if anything is deleted. -/
  sources : ∃ forgotten, entries root "packageSources" = forgotten ++ entries root' "packageSources" ∧
    (∀ e ∈ (entries root' "packageSources").tail, isClear e = false) ∧
    (forgotten ≠ [] → ∃ e, (entries root' "packageSources").head? = some e ∧ isClear e = true)

/-- The sections that disable sources stand elsewhere in the second document, and the others as in the first. -/
structure MovesDisabling (root root' : Element) : Prop where
  disabling : (root'.childrenNamed "disabledPackageSources").Perm (root.childrenNamed "disabledPackageSources")
  others : (root'.children.filter fun e => e.name != "disabledPackageSources") =
    root.children.filter fun e => e.name != "disabledPackageSources"

/-- The entries of a section depend on sections of its name alone. -/
theorem entries_congr {root root' : Element} {name other : String} (hne : name ≠ other)
    (h : (root'.children.filter fun e => e.name != other) = root.children.filter fun e => e.name != other) :
    entries root' name = entries root name := by
  have hkept : ∀ sections : List Element, (sections.filter fun e => e.name == name) =
      (sections.filter fun e => e.name != other).filter fun e => e.name == name := by
    intro sections
    rw [List.filter_filter]
    refine List.filter_congr fun e _ => ?_
    by_cases he : e.name = name <;> simp [he, hne]
  rw [entries, entries, hkept root'.children, h, ← hkept]

/-- What is forgotten does not count. -/
theorem enabled_of_deletesForgotten {root root' : Element} (h : DeletesForgotten root root') :
    enabled root' = enabled root := by
  refine enabled_congr ?_ fun key => ?_
  · obtain ⟨forgotten, hentries, -, hclear⟩ := h.sources
    rw [declared, declared, hentries, List.foldl_append]
    by_cases hnil : forgotten = []
    · rw [hnil, List.foldl_nil]
    · -- from the first entry on it makes no difference what was declared before
      obtain ⟨e, hhead, hforgets⟩ := hclear hnil
      obtain ⟨rest, hrest⟩ := List.head?_eq_some_iff.1 hhead
      rw [hrest, List.foldl_cons, List.foldl_cons, addEntry_of_isClear hforgets, addEntry_of_isClear hforgets]
  · rw [disabledKeys, disabledKeys, entries_congr (by decide) h.others]

/-- It does not count where sources are disabled. -/
theorem enabled_of_movesDisabling {root root' : Element} (h : MovesDisabling root root') :
    enabled root' = enabled root := by
  refine enabled_congr ?_ fun key => ?_
  · rw [declared, declared, entries_congr (by decide) h.others]
  · have hentries := h.disabling.flatMap_right Element.children
    exact ((hentries.filter disables).filterMap fun e => e.attribute? "key").mem_iff

/-! ## Deleting what is forgotten -/

/-- The entries without those that stand before the last one that forgets. -/
def fromLastClear : List Element → List Element
  | [] => []
  | e :: es => if es.any isClear then fromLastClear es else e :: es

/-- The entries for sources in some sections. -/
def sourceEntries (sections : List Element) : List Element :=
  (sections.filter fun e => e.name == "packageSources").flatMap Element.children

/-- The sections without the entries for sources that stand before the last one that forgets. -/
def withoutForgottenIn : List Element → List Element
  | [] => []
  | s :: rest =>
    if s.name = "packageSources" then
      { s with children := if (sourceEntries rest).any isClear then [] else fromLastClear s.children } ::
        withoutForgottenIn rest
    else s :: withoutForgottenIn rest

/-- The document without the entries for sources that stand before the last one that forgets. -/
def withoutForgotten (root : Element) : Element := { root with children := withoutForgottenIn root.children }

/-- Where no entry forgets, all of them are kept. -/
theorem fromLastClear_of_any_eq_false {es : List Element} (h : es.any isClear = false) : fromLastClear es = es := by
  cases es with
  | nil => rfl
  | cons e es =>
    have hes : ¬ es.any isClear = true := fun hes => by simp [hes] at h
    rw [fromLastClear, if_neg hes]

/-- Entries after one that forgets are all that is kept of what stands before them. -/
theorem fromLastClear_append (es fs : List Element) :
    fromLastClear (es ++ fs) = if fs.any isClear then fromLastClear fs else fromLastClear es ++ fs := by
  induction es with
  | nil =>
    split
    · rfl
    · rename_i h
      exact fromLastClear_of_any_eq_false (Bool.eq_false_iff.2 h)
  | cons e es ih =>
    rw [List.cons_append, fromLastClear, fromLastClear, ih, List.any_append]
    cases fs.any isClear <;> cases es.any isClear <;> rfl

/-- Of what is kept only the first entry may forget, and it does if anything is deleted. -/
theorem exists_eq_append_fromLastClear (es : List Element) : ∃ forgotten, es = forgotten ++ fromLastClear es ∧
    (∀ e ∈ (fromLastClear es).tail, isClear e = false) ∧
    (forgotten ≠ [] → ∃ e, (fromLastClear es).head? = some e ∧ isClear e = true) := by
  induction es with
  | nil => exact ⟨[], rfl, by simp [fromLastClear], by simp⟩
  | cons e es ih =>
    rw [fromLastClear]
    split
    · rename_i hany
      obtain ⟨forgotten, hes, htail, hhead⟩ := ih
      refine ⟨e :: forgotten, by rw [List.cons_append, ← hes], htail, fun _ => ?_⟩
      -- the entry is forgotten with those after it, or it is itself the first that is forgotten
      by_cases hnil : forgotten = []
      · -- of the entries that are kept one forgets, and only the first may
        rw [hnil, List.nil_append] at hes
        rw [← hes] at htail ⊢
        obtain ⟨d, hd, hclear⟩ := List.any_eq_true.1 hany
        cases es with
        | nil => cases hd
        | cons first rest =>
          rcases List.mem_cons.1 hd with rfl | hd
          · exact ⟨d, rfl, hclear⟩
          · exact absurd hclear (Bool.eq_false_iff.1 (htail d hd))
      · exact hhead hnil
    · rename_i hnone
      exact ⟨[], rfl, by simpa using hnone, by simp⟩

theorem sourceEntries_cons (s : Element) (rest : List Element) :
    sourceEntries (s :: rest) =
      if s.name = "packageSources" then s.children ++ sourceEntries rest else sourceEntries rest := by
  rw [sourceEntries, List.filter_cons]
  by_cases hs : s.name = "packageSources"
  · rw [if_pos (beq_iff_eq.2 hs), if_pos hs, List.flatMap_cons, sourceEntries]
  · rw [if_neg (fun h => hs (beq_iff_eq.1 h)), if_neg hs, sourceEntries]

/-- Deleting what is forgotten leaves the entries from the last that forgets. -/
theorem sourceEntries_withoutForgottenIn (sections : List Element) :
    sourceEntries (withoutForgottenIn sections) = fromLastClear (sourceEntries sections) := by
  induction sections with
  | nil => rfl
  | cons s rest ih =>
    rw [withoutForgottenIn, sourceEntries_cons s]
    by_cases hs : s.name = "packageSources"
    · rw [if_pos hs, if_pos hs, sourceEntries_cons, if_pos hs, ih, fromLastClear_append]
      cases h : (sourceEntries rest).any isClear with
      | true => rfl
      | false =>
        rw [fromLastClear_of_any_eq_false h]
        rfl
    · rw [if_neg hs, if_neg hs, sourceEntries_cons, if_neg hs, ih]

theorem filter_withoutForgottenIn (sections : List Element) :
    ((withoutForgottenIn sections).filter fun e => e.name != "packageSources") =
      sections.filter fun e => e.name != "packageSources" := by
  induction sections with
  | nil => rfl
  | cons s rest ih =>
    rw [withoutForgottenIn]
    split
    · rename_i hs
      have hsources : ¬ (s.name != "packageSources") = true := by simp [hs]
      rw [List.filter_cons, List.filter_cons, if_neg hsources, if_neg hsources, ih]
    · rw [List.filter_cons, List.filter_cons, ih]

/-- Deleting all that is forgotten is a deletion of forgotten entries. -/
theorem deletesForgotten_withoutForgotten (root : Element) : DeletesForgotten root (withoutForgotten root) where
  others := filter_withoutForgottenIn root.children
  sources := by
    have hentries : entries (withoutForgotten root) "packageSources" = fromLastClear (entries root "packageSources") :=
      sourceEntries_withoutForgottenIn root.children
    rw [hentries]
    exact exists_eq_append_fromLastClear _

/-! ## The sources that are enabled -/

/-- The keys of the sources that are enabled. -/
def enabledKeys (root : Element) : List String :=
  (distinct ((declarations root).map Prod.fst)).filter fun key => !(disabledKeys root).contains key

/-- The enabled keys are those declared and not disabled. -/
theorem mem_enabledKeys_iff {root : Element} {key : String} :
    key ∈ enabledKeys root ↔ key ∈ (declarations root).map Prod.fst ∧ ¬ IsDisabled root key := by
  rw [enabledKeys, List.mem_filter, mem_distinct, ← mem_disabledKeys_iff, Bool.not_eq_true', Bool.eq_false_iff, ne_eq,
    List.contains_iff_mem]

/-- Each value that is enabled is the last that is declared under its key. -/
theorem forall₂_enabledKeys (root : Element) :
    List.Forall₂ (fun key value => ((declarations root).filter fun d => d.1 == key).getLast? = some (key, value))
      (enabledKeys root) (enabled root) := by
  have hkeys : OrderedMap.keys (declared root) = distinct ((declarations root).map Prod.fst) := by
    rw [declared_eq, OrderedMap.keys_ofPairs]
  have henabled : enabledKeys root =
      ((declared root).filter fun source => !(disabledKeys root).contains source.1).map Prod.fst := by
    rw [enabledKeys, ← hkeys, OrderedMap.keys, List.filter_map]
    rfl
  -- no key is declared twice in the map, so each key has the one value that it is enabled with
  have hnodup : (OrderedMap.keys (declared root)).Nodup := by
    rw [hkeys]
    exact nodup_distinct _
  show List.Forall₂ _ (enabledKeys root)
    (((declared root).filter fun source => !(disabledKeys root).contains source.1).map Prod.snd)
  rw [henabled, List.forall₂_map_left_iff, List.forall₂_map_right_iff, List.forall₂_same]
  intro source hsource
  have hget : OrderedMap.get? (declared root) source.1 = some source.2 :=
    OrderedMap.get?_of_mem hnodup (List.mem_of_mem_filter hsource)
  rw [OrderedMap.getLast?_filter_eq, ← declared_eq, hget]
  rfl

theorem result_load (fs : FileSystem) (path : String) :
    (load fs path).result = (fs.readDocument path).map enabled := by
  rw [load]
  cases fs.readDocument path <;> rfl

/-- What is read from a file are the sources that its document enables. They stay the same when what is forgotten is
deleted, which is always possible, and when the sections that disable sources are moved. There is one source for each
key that is declared and not disabled, with the value that is declared last, in the order in which the keys are
declared first. -/
theorem enabled_are_last_declared :
    (∀ (fs : FileSystem) (path : String), (load fs path).result = (fs.readDocument path).map enabled) ∧
    ∀ root : Element,
      DeletesForgotten root (withoutForgotten root) ∧
      (∀ root' : Element, DeletesForgotten root root' ∨ MovesDisabling root root' → enabled root' = enabled root) ∧
      ∃ keys : List String,
        keys.Nodup ∧
        (∀ key, key ∈ keys ↔ key ∈ (declarations root).map Prod.fst ∧ ¬ IsDisabled root key) ∧
        (keys.Pairwise fun key other =>
          ((declarations root).map Prod.fst).idxOf key < ((declarations root).map Prod.fst).idxOf other) ∧
        List.Forall₂ (fun key value => ((declarations root).filter fun d => d.1 == key).getLast? = some (key, value))
          keys (enabled root) := by
  refine ⟨result_load, fun root => ⟨deletesForgotten_withoutForgotten root, ?_, enabledKeys root, ?_,
    fun _ => mem_enabledKeys_iff, ?_, forall₂_enabledKeys root⟩⟩
  · rintro root' (h | h)
    · exact enabled_of_deletesForgotten h
    · exact enabled_of_movesDisabling h
  · exact (nodup_distinct _).filter _
  · exact (pairwise_idxOf_distinct _).filter _

/-- An element without text. -/
def textless (name : String) (attributes : OrderedMap String String) (children : List Element) : Element :=
  ⟨name, attributes, "", children⟩

/-- An entry for a key. -/
def keyedEntry (key value : String) : Element := textless "add" [("key", key), ("value", value)] []

/-- A section that disables one source. -/
def oneDisabled : Element := textless "disabledPackageSources" [] [keyedEntry "B" "TRUE"]

/-- Sections that declare the sources `A`, `B` and `C`, of which `A` and `C` are declared again. -/
def twiceDeclared : List Element :=
  [textless "packageSources" []
    [keyedEntry "O" "0", keyedEntry "C" "1", textless "clear" [] [], keyedEntry "A" "2", keyedEntry "B" "3",
      keyedEntry "" "4"],
   textless "packageSources" [] [keyedEntry "C" "5", keyedEntry "A" "6", keyedEntry "C" "7"]]

/-- Of three sources the disabled one is left out, and each of the others is enabled with its last value. -/
theorem enabled_are_last_declared_twiceDeclared :
    let root := textless "configuration" [] (oneDisabled :: twiceDeclared)
    let root' := textless "configuration" [] (twiceDeclared ++ [oneDisabled])
    (entries (withoutForgotten root) "packageSources").length = 7 ∧ MovesDisabling root root' ∧
      enabled root = ["6", "7"] ∧ enabled (withoutForgotten root) = ["6", "7"] ∧ enabled root' = ["6", "7"] := by
  have henabled : enabled (textless "configuration" [] (oneDisabled :: twiceDeclared)) = ["6", "7"] := by decide
  have hmoves : MovesDisabling (textless "configuration" [] (oneDisabled :: twiceDeclared))
      (textless "configuration" [] (twiceDeclared ++ [oneDisabled])) := ⟨.refl _, rfl⟩
  obtain ⟨hdeletes, hsame, -⟩ :=
    enabled_are_last_declared.2 (textless "configuration" [] (oneDisabled :: twiceDeclared))
  exact ⟨by decide, hmoves, henabled, (hsame _ (.inl hdeletes)).trans henabled,
    (hsame _ (.inr hmoves)).trans henabled⟩

end PackageSources
end PackageGraph
