import Mathlib.Data.List.Induction
import PackageGraph.OrderedMap
/-!
# Laws of maps in insertion order

Writing a value is read back under its key alone, and a key that is there already keeps its place. A map that is
built from pairs with distinct keys is the list of those pairs.
-/
namespace PackageGraph

namespace OrderedMap

variable {κ β : Type} [BEq κ]

theorem get?_cons (k : κ) (v : β) (m : OrderedMap κ β) (key : κ) :
    get? ((k, v) :: m) key = if k == key then some v else get? m key := rfl

/-- Looking a key up succeeds exactly when the map contains it. -/
theorem isSome_get? (m : OrderedMap κ β) (key : κ) : (get? m key).isSome = contains m key := by
  induction m with
  | nil => rfl
  | cons e m ih =>
    obtain ⟨k, v⟩ := e
    cases hk : k == key with
    | true => simp [get?, contains, hk]
    | false => simpa [get?, contains, hk] using ih

/-! ## Keys that stand for one another -/

section

variable [EquivBEq κ]

/-- A value that is written is read back under every key that stands for its own, and under no other. -/
theorem get?_put (m : OrderedMap κ β) (key other : κ) (value : β) :
    get? (put m key value) other = if key == other then some value else get? m other := by
  induction m with
  | nil => rfl
  | cons e m ih =>
    obtain ⟨k, v⟩ := e
    -- an entry under an equal key is replaced where it stands, and its own key stays
    by_cases hk : k == key
    · have hother : (k == other) = (key == other) := BEq.congr_left hk
      rw [put, if_pos hk, get?_cons, get?_cons, hother]
      split <;> rfl
    · rw [put, if_neg hk, get?_cons, get?_cons, ih]
      by_cases ho : k == other
      · have hne : ¬ (key == other) = true := fun h => hk (BEq.trans ho (BEq.symm h))
        rw [if_pos ho, if_neg hne, if_pos ho]
      · rw [if_neg ho, if_neg ho]

/-- Keys that compare equal are looked up alike. -/
theorem get?_congr (m : OrderedMap κ β) {key other : κ} (h : (key == other) = true) : get? m key = get? m other := by
  induction m with
  | nil => rfl
  | cons e m ih =>
    have he : (e.1 == key) = (e.1 == other) := BEq.congr_right h
    rw [get?, get?, he, ih]

end

/-- A key that is there keeps its place, and a new key comes last. -/
theorem keys_put (m : OrderedMap κ β) (key : κ) (value : β) :
    keys (put m key value) = if contains m key then keys m else keys m ++ [key] := by
  induction m with
  | nil => rfl
  | cons e m ih =>
    obtain ⟨k, v⟩ := e
    by_cases hk : k == key
    · simp [put, contains, keys, hk]
    · have hcontains : contains ((k, v) :: m) key = contains m key := by simp [contains, hk]
      rw [put, if_neg hk, hcontains]
      simp only [keys, List.map_cons] at ih ⊢
      rw [ih]
      split <;> rfl

theorem contains_eq_any_keys (m : OrderedMap κ β) (key : κ) : contains m key = (keys m).any (· == key) := by
  rw [contains, keys, List.any_map]
  rfl

/-- Writing a value keeps the keys apart. -/
theorem pairwise_keys_put {m : OrderedMap κ β} (key : κ) (value : β)
    (h : (keys m).Pairwise fun k l => (k == l) = false) :
    (keys (put m key value)).Pairwise fun k l => (k == l) = false := by
  rw [keys_put]
  split
  · exact h
  · rename_i hnew
    rw [contains_eq_any_keys, List.any_eq_true] at hnew
    refine List.pairwise_append.2 ⟨h, List.pairwise_singleton .., fun k hk l hl => ?_⟩
    rw [List.mem_singleton.1 hl]
    exact Bool.eq_false_iff.2 fun hkey => hnew ⟨k, hk, hkey⟩

variable [LawfulBEq κ]

/-! ## Writing a value -/

/-- What was put last under a key is found under it. -/
theorem get?_put_self (m : OrderedMap κ β) (key : κ) (value : β) : get? (put m key value) key = some value := by
  rw [get?_put, if_pos BEq.rfl]

/-- Putting a value under one key leaves those under other keys. -/
theorem get?_put_of_ne (m : OrderedMap κ β) {key other : κ} (value : β) (h : other ≠ key) :
    get? (put m key value) other = get? m other := by
  rw [get?_put, if_neg (by simpa using Ne.symm h)]

theorem mem_keys_of_get? {m : OrderedMap κ β} {key : κ} {value : β} (h : get? m key = some value) :
    key ∈ keys m := by
  induction m with
  | nil => simp [get?] at h
  | cons e m ih =>
    by_cases hk : e.1 = key
    · simp [keys, hk]
    · have hm : key ∈ keys m := ih (by simpa [get?, hk] using h)
      exact List.mem_cons_of_mem _ hm

theorem mem_of_get? {m : OrderedMap κ β} {key : κ} {value : β} (h : get? m key = some value) :
    (key, value) ∈ m := by
  induction m with
  | nil => simp [get?] at h
  | cons e m ih =>
    by_cases hk : e.1 = key
    · have hv : e.2 = value := by simpa [get?, hk] using h
      rw [← hk, ← hv]
      exact List.mem_cons_self
    · exact List.mem_cons_of_mem _ (ih (by simpa [get?, hk] using h))

/-- In a map without repeated keys every entry is the one that its key is looked up as. -/
theorem get?_of_mem {m : OrderedMap κ β} (hm : (keys m).Nodup) {key : κ} {value : β} (h : (key, value) ∈ m) :
    get? m key = some value := by
  induction m with
  | nil => cases h
  | cons e m ih =>
    rw [keys, List.map_cons, List.nodup_cons] at hm
    rcases List.mem_cons.1 h with rfl | h
    · simp [get?]
    · have hne : e.1 ≠ key := by
        rintro rfl
        exact hm.1 (List.mem_map.2 ⟨_, h, rfl⟩)
      simp [get?, hne, ih hm.2 h]

omit [LawfulBEq κ] in
/-- Looking up commutes with a change of all values. -/
theorem get?_mapValues {γ : Type} (f : β → γ) (m : OrderedMap κ β) (key : κ) :
    get? (mapValues f m) key = (get? m key).map f := by
  induction m with
  | nil => rfl
  | cons e m ih =>
    rw [mapValues, List.map_cons, get?, get?]
    split
    · rfl
    · exact ih

/-- What is filed under a key is removed. -/
theorem get?_filter_self (m : OrderedMap κ β) (key : κ) : get? (m.filter fun (k, _) => k != key) key = none := by
  induction m with
  | nil => rfl
  | cons e m ih =>
    by_cases he : e.1 = key
    · rw [List.filter_cons_of_neg (by simpa using he), ih]
    · rw [List.filter_cons_of_pos (by simpa using he), get?, if_neg (by simpa using he), ih]

/-- A key that is kept has the value that it had. -/
theorem get?_filter_of_pos (m : OrderedMap κ β) {p : κ → Bool} {key : κ} (h : p key = true) :
    get? (m.filter fun (k, _) => p k) key = get? m key := by
  induction m with
  | nil => rfl
  | cons e m ih =>
    by_cases he : p e.1 = true
    · rw [List.filter_cons_of_pos (by simpa using he), get?, get?, ih]
    · have hne : e.1 ≠ key := fun hsame => he (hsame ▸ h)
      rw [List.filter_cons_of_neg (by simpa using he), ih, get?, if_neg (by simpa using hne)]

/-- Deleting a key leaves the values under other keys. -/
theorem get?_filter_of_ne (m : OrderedMap κ β) {key other : κ} (h : other ≠ key) :
    get? (m.filter fun (k, _) => k != key) other = get? m other := by
  have hkept : (other != key) = true := bne_iff_ne.2 h
  exact get?_filter_of_pos m (p := fun k => k != key) hkept

/-- A key that is there keeps its place when it is written again. -/
theorem keys_put_of_mem {m : OrderedMap κ β} {key : κ} (value : β) (h : key ∈ keys m) :
    keys (put m key value) = keys m := by
  induction m with
  | nil => simp [keys] at h
  | cons e m ih =>
    by_cases hk : e.1 = key
    · simp [put, keys, hk]
    · have hm : key ∈ keys m := by simpa [keys, Ne.symm hk] using h
      have := ih hm
      simp only [keys] at this
      simp [put, keys, hk, this]

/-- A new key comes last. -/
theorem put_of_notMem {m : OrderedMap κ β} {key : κ} (value : β) (h : key ∉ keys m) :
    put m key value = m ++ [(key, value)] := by
  induction m with
  | nil => rfl
  | cons e m ih =>
    have hne : e.1 ≠ key := by
      intro heq
      simp [keys, heq] at h
    have hm : key ∉ keys m := fun hm => h (List.mem_cons_of_mem _ hm)
    simp [put, hne, ih hm]

/-- The first pair whose key is picked out has the value of that key. -/
theorem map_find?_key (m : OrderedMap κ β) (p : κ → Bool) :
    (m.find? fun (key, _) => p key).map (·.2) = ((keys m).find? p).bind (get? m) := by
  induction m with
  | nil => rfl
  | cons e m ih =>
    obtain ⟨key, value⟩ := e
    rw [keys, List.map_cons]
    by_cases hp : p key = true
    · simp only [List.find?_cons, hp, Option.map_some, Option.bind_some, get?_cons, BEq.rfl, if_true]
    -- the first key does not pass, so a key that passes is looked up in the rest
    · have hother : ∀ other, (keys m).find? p = some other → get? ((key, value) :: m) other = get? m other := by
        intro other hother
        have hne : key ≠ other := fun hsame => hp (hsame ▸ List.find?_some hother)
        rw [get?_cons, if_neg (by simpa using hne)]
      simp only [List.find?_cons, hp, ih]
      exact (Option.bind_congr hother).symm

/-- A key that is written is found as if it stood after the others. -/
theorem find?_keys_put (m : OrderedMap κ β) (key : κ) (value : β) (p : κ → Bool) (more : List κ) :
    (keys (put m key value) ++ more).find? p = (keys m ++ key :: more).find? p := by
  rw [keys_put]
  split
  · -- a key that is there already was looked at before
    rename_i hcontains
    have hkey : key ∈ keys m := by
      rw [contains_eq_any_keys, List.any_eq_true] at hcontains
      obtain ⟨other, hother, hsame⟩ := hcontains
      rwa [← beq_iff_eq.1 hsame]
    rw [List.find?_append, List.find?_append, List.find?_cons]
    cases hfound : (keys m).find? p with
    | some other => rfl
    | none =>
      have hp : p key = false := Bool.eq_false_iff.2 (List.find?_eq_none.1 hfound key hkey)
      rw [hp]
  · rw [List.append_assoc, List.singleton_append]

/-- Putting a value leaves the keys distinct. -/
theorem nodup_keys_put {m : OrderedMap κ β} (key : κ) (value : β) (h : (keys m).Nodup) :
    (keys (put m key value)).Nodup := by
  by_cases hkey : key ∈ keys m
  · rwa [keys_put_of_mem value hkey]
  · rw [put_of_notMem value hkey, keys, List.map_append, List.nodup_append]
    refine ⟨h, by simp, ?_⟩
    rintro k hk k' hk' rfl
    obtain rfl : k = key := by simpa using hk'
    exact hkey hk

/-- An entry after putting a value is the new one or was there before. -/
theorem mem_of_mem_put {m : OrderedMap κ β} {key : κ} {value : β} {e : κ × β} (h : e ∈ put m key value) :
    e = (key, value) ∨ e ∈ m := by
  -- the key is replaced where it stands or added at the end, and the induction is on the first case alone
  by_cases hkey : key ∈ keys m
  · induction m with
    | nil => simp [keys] at hkey
    | cons d m ih =>
      by_cases hd : d.1 = key
      · simp only [put, hd, beq_self_eq_true, if_true, List.mem_cons] at h
        exact h.imp_right (List.mem_cons_of_mem _)
      · have hm : key ∈ keys m := by simpa [keys, Ne.symm hd] using hkey
        simp only [put, beq_iff_eq, hd, if_false, List.mem_cons] at h
        rcases h with rfl | h
        · exact .inr List.mem_cons_self
        · exact (ih h hm).imp_right (List.mem_cons_of_mem _)
  · rw [put_of_notMem value hkey, List.mem_append, List.mem_singleton] at h
    exact h.symm

omit [LawfulBEq κ] in
/-- A value put under a new key is the only entry that may be added. -/
theorem mem_of_mem_putNew {m : OrderedMap κ β} {key : κ} {value : β} {e : κ × β} (h : e ∈ putNew m key value) :
    e = (key, value) ∨ e ∈ m := by
  rw [putNew] at h
  split at h
  · exact .inr h
  · exact (List.mem_append.1 h).symm.imp_left List.mem_singleton.1

/-! ## Writing pairs in order -/

/-- What a map holds after pairs were written is what it held before or one of the pairs. -/
theorem mem_of_mem_foldl_put {pairs : List (κ × β)} {m : OrderedMap κ β} {e : κ × β}
    (h : e ∈ pairs.foldl (fun m (k, v) => put m k v) m) : e ∈ m ∨ e ∈ pairs := by
  induction pairs generalizing m with
  | nil => exact .inl h
  | cons p pairs ih =>
    rcases ih h with he | he
    · rcases mem_of_mem_put he with rfl | he
      · exact .inr List.mem_cons_self
      · exact .inl he
    · exact .inr (List.mem_cons_of_mem _ he)

theorem mem_of_mem_ofPairs {pairs : List (κ × β)} {e : κ × β} (h : e ∈ ofPairs pairs) : e ∈ pairs :=
  (mem_of_mem_foldl_put h).resolve_left List.not_mem_nil

/-- Pairs with distinct keys are written one after the other. -/
theorem ofPairs_of_nodup {pairs : List (κ × β)} (h : (pairs.map (·.1)).Nodup) : ofPairs pairs = pairs := by
  -- by induction on the pairs, for every map that holds none of their keys
  have hfold : ∀ (pairs : List (κ × β)) (m : OrderedMap κ β), ((m ++ pairs).map (·.1)).Nodup →
      pairs.foldl (fun m (k, v) => put m k v) m = m ++ pairs := by
    intro pairs
    induction pairs with
    | nil => simp
    | cons p pairs ih =>
      intro m hm
      have hp : p.1 ∉ keys m := by
        intro hmem
        rw [List.map_append, List.nodup_append] at hm
        exact hm.2.2 p.1 hmem p.1 (by simp) rfl
      rw [List.foldl_cons]
      show pairs.foldl (fun m (k, v) => put m k v) (put m p.1 p.2) = _
      rw [put_of_notMem p.2 hp, ih]
      · simp
      · simpa using hm
  simpa [ofPairs] using hfold pairs [] (by simpa using h)

end OrderedMap

/-! ## Lists without repetition -/

section

variable {α : Type} [BEq α]

/-- An element at the end is dropped when it occurred before. -/
theorem distinct_append_singleton (xs : List α) (x : α) :
    distinct (xs ++ [x]) = if (distinct xs).contains x then distinct xs else distinct xs ++ [x] := by
  rw [distinct, List.foldl_append]
  rfl

/-- What stands for an element of a list stands for one that is kept. -/
theorem contains_distinct [EquivBEq α] (xs : List α) (x : α) : (distinct xs).contains x = xs.contains x := by
  induction xs using List.reverseRecOn with
  | nil => rfl
  | append_singleton xs y ih =>
    rw [distinct_append_singleton, List.contains_append, ← ih]
    split
    · rename_i hy
      by_cases hxy : x == y
      · have hx : (distinct xs).contains x = true := by rwa [List.contains_congr hxy]
        simp [hx]
      · simp [hxy]
    · rw [List.contains_append]

/-- The distinct elements are the elements. -/
theorem mem_distinct [LawfulBEq α] {x : α} {xs : List α} : x ∈ distinct xs ↔ x ∈ xs := by
  rw [← List.contains_iff_mem, ← List.contains_iff_mem, contains_distinct]

/-- Of elements that stand for one another one is kept. -/
theorem pairwise_distinct [EquivBEq α] (xs : List α) : (distinct xs).Pairwise fun x y => (x == y) = false := by
  induction xs using List.reverseRecOn with
  | nil => exact .nil
  | append_singleton xs y ih =>
    rw [distinct_append_singleton]
    split
    · exact ih
    · rename_i hy
      refine List.pairwise_append.2 ⟨ih, List.pairwise_singleton .., fun x hx z hz => ?_⟩
      obtain rfl := List.mem_singleton.1 hz
      exact Bool.eq_false_iff.2 fun hxz => hy (List.contains_iff_exists_mem_beq.2 ⟨x, hx, BEq.symm hxz⟩)

/-- No element is among the distinct ones twice. -/
theorem nodup_distinct [LawfulBEq α] (xs : List α) : (distinct xs).Nodup :=
  (pairwise_distinct xs).imp fun h => by simpa using h

/-- The elements that are kept stand in the order of the list. -/
theorem sublist_distinct (xs : List α) : (distinct xs).Sublist xs := by
  induction xs using List.reverseRecOn with
  | nil => exact List.Sublist.refl _
  | append_singleton xs y ih =>
    rw [distinct_append_singleton]
    split
    · exact ih.trans (List.sublist_append_left _ _)
    · exact ih.append_right _

/-- The elements that are kept stand in the order in which they first occur. -/
theorem pairwise_idxOf_distinct [LawfulBEq α] (xs : List α) :
    (distinct xs).Pairwise fun x y => xs.idxOf x < xs.idxOf y := by
  induction xs using List.reverseRecOn with
  | nil => exact .nil
  | append_singleton xs y ih =>
    -- an element that has occurred keeps the place of its first occurrence
    have hbefore : ∀ x ∈ distinct xs, (xs ++ [y]).idxOf x = xs.idxOf x := by
      intro x hx
      rw [List.idxOf_append, if_pos (mem_distinct.1 hx)]
    have hkept : (distinct xs).Pairwise fun x z => (xs ++ [y]).idxOf x < (xs ++ [y]).idxOf z := by
      refine ih.imp_of_mem fun hx hz hlt => ?_
      rwa [hbefore _ hx, hbefore _ hz]
    rw [distinct_append_singleton]
    split
    · exact hkept
    · rename_i hnew
      have hy : y ∉ xs := fun hy => hnew (List.contains_iff_mem.2 (mem_distinct.2 hy))
      refine List.pairwise_append.2 ⟨hkept, List.pairwise_singleton .., fun x hx z hz => ?_⟩
      rw [List.mem_singleton.1 hz, hbefore x hx, List.idxOf_append, if_neg hy]
      exact Nat.lt_of_lt_of_le (List.idxOf_lt_length_of_mem (mem_distinct.1 hx)) (Nat.le_add_left _ _)

/-- A list of which every element is kept has no repetition. -/
theorem nodup_of_length_distinct [LawfulBEq α] {xs : List α} (h : (distinct xs).length = xs.length) : xs.Nodup := by
  rw [← (sublist_distinct xs).eq_of_length h]
  exact nodup_distinct xs

end

namespace OrderedMap

variable {κ β : Type} [BEq κ] [LawfulBEq κ]

omit [LawfulBEq κ] in
theorem ofPairs_append_singleton (pairs : List (κ × β)) (p : κ × β) :
    ofPairs (pairs ++ [p]) = put (ofPairs pairs) p.1 p.2 := by
  rw [ofPairs, List.foldl_append]
  rfl

/-- The keys of a map that is built from pairs. -/
theorem keys_ofPairs (pairs : List (κ × β)) : keys (ofPairs pairs) = distinct (pairs.map (·.1)) := by
  induction pairs using List.reverseRecOn with
  | nil => rfl
  | append_singleton pairs p ih =>
    rw [ofPairs_append_singleton, keys_put, contains_eq_any_keys, List.any_beq', ih, List.map_append,
      List.map_singleton, distinct_append_singleton]

/-- Of the pairs with a key that a map is built from the last one counts. -/
theorem getLast?_filter_eq (pairs : List (κ × β)) (key : κ) :
    (pairs.filter fun p => p.1 == key).getLast? = (get? (ofPairs pairs) key).map (key, ·) := by
  induction pairs using List.reverseRecOn with
  | nil => rfl
  | append_singleton pairs p ih =>
    rw [ofPairs_append_singleton, get?_put, List.filter_append]
    by_cases hp : p.1 = key
    · subst hp
      simp
    · simpa [hp] using ih

omit [LawfulBEq κ] in
/-- Putting a value commutes with a change of all values. -/
theorem put_mapValues {γ : Type} (f : β → γ) (m : OrderedMap κ β) (key : κ) (value : β) :
    put (mapValues f m) key (f value) = mapValues f (put m key value) := by
  induction m with
  | nil => rfl
  | cons e m ih =>
    simp only [mapValues] at ih
    by_cases hk : e.1 == key
    · simp [mapValues, put, hk]
    · simp [mapValues, put, hk, ih]

omit [LawfulBEq κ] in
theorem putNew_mapValues {γ : Type} (f : β → γ) (m : OrderedMap κ β) (key : κ) (value : β) :
    putNew (mapValues f m) key (f value) = mapValues f (putNew m key value) := by
  have hcontains : contains (mapValues f m) key = contains m key := by simp [contains, mapValues, Function.comp_def]
  rw [putNew, putNew, hcontains]
  split
  · rfl
  · simp [mapValues]

omit [LawfulBEq κ] in
/-- A map of changed values is the map of the values, changed. -/
theorem ofPairs_mapValues {γ : Type} (f : β → γ) (pairs : List (κ × β)) :
    ofPairs (mapValues f pairs) = mapValues f (ofPairs pairs) := by
  induction pairs using List.reverseRecOn with
  | nil => rfl
  | append_singleton pairs p ih =>
    simp only [ofPairs, mapValues, List.map_append, List.map_singleton, List.foldl_append] at ih ⊢
    rw [ih]
    exact put_mapValues f _ p.1 p.2

end OrderedMap

/-! ## Lists under names -/

section

variable {α κ β : Type} [BEq κ]

/-- The elements under their names: of those of one name the last, in the place of the first. -/
def filedUnder (name : α → κ) (xs : List α) : List α := (OrderedMap.ofPairs (xs.map fun x => (name x, x))).values

variable [LawfulBEq κ] (name : α → κ) (xs : List α)

/-- A map that is built from what stands for the elements of a list under their names. -/
theorem ofPairs_map (f : α → β) :
    OrderedMap.ofPairs (xs.map fun x => (name x, f x)) = (filedUnder name xs).map fun x => (name x, f x) := by
  have hvalues : (xs.map fun x => (name x, f x)) = OrderedMap.mapValues f (xs.map fun x => (name x, x)) := by
    simp [OrderedMap.mapValues]
  rw [hvalues, OrderedMap.ofPairs_mapValues, filedUnder, OrderedMap.values, List.map_map, OrderedMap.mapValues]
  refine List.map_congr_left fun e he => ?_
  -- every element is filed under its own name
  obtain ⟨x, -, rfl⟩ := List.mem_map.1 (OrderedMap.mem_of_mem_ofPairs he)
  rfl

/-- Elements are filed in the order in which their names first occur. -/
theorem map_filedUnder : (filedUnder name xs).map name = distinct (xs.map name) := by
  have hkeys := OrderedMap.keys_ofPairs (xs.map fun x => (name x, name x))
  rw [ofPairs_map, OrderedMap.keys, List.map_map, List.map_map] at hkeys
  exact hkeys

example : filedUnder Prod.fst [("A", 1), ("B", 2), ("A", 3)] = [("A", 3), ("B", 2)] := by decide

variable {name xs}

/-- Nothing is filed but the elements themselves. -/
theorem mem_of_mem_filedUnder {x : α} (h : x ∈ filedUnder name xs) : x ∈ xs := by
  obtain ⟨e, he, rfl⟩ := List.mem_map.1 h
  obtain ⟨y, hy, rfl⟩ := List.mem_map.1 (OrderedMap.mem_of_mem_ofPairs he)
  exact hy

/-- Elements with distinct names are filed as they are. -/
theorem filedUnder_of_nodup (h : (xs.map name).Nodup) : filedUnder name xs = xs := by
  rw [filedUnder, OrderedMap.ofPairs_of_nodup (by simpa [Function.comp_def] using h), OrderedMap.values, List.map_map]
  exact List.map_id _

/-- A list without repetition is its own list of distinct elements. -/
theorem distinct_of_nodup {xs : List κ} (h : xs.Nodup) : distinct xs = xs := by
  have hfiled := map_filedUnder id xs
  rw [filedUnder_of_nodup (by rwa [List.map_id]), List.map_id] at hfiled
  exact hfiled.symm

/-- Elements of which every one has its own place have different names. -/
theorem nodup_of_length_filedUnder (h : (filedUnder name xs).length = xs.length) : (xs.map name).Nodup := by
  refine nodup_of_length_distinct ?_
  rw [← map_filedUnder, List.length_map, List.length_map, h]

end

end PackageGraph
