import PackageGraph.Proofs.Except
import PackageGraph.Proofs.Json.GuidText
/-!
# Narrowing keeps the structure of a document

A text stands for the date and time, or the identifier, that it has the form of, and every other text for itself. A
value that is narrowed keeps its lists, its members with their names, and every scalar that is no text. Narrowing
succeeds exactly if no text in the value is refused: one that has the form of a date and time with an offset of a day
or more, or that of an identifier with a line end after it.
-/
namespace PackageGraph.Json

open Text

/-! ## Texts -/

/-- The text denotes a date and time that exists. -/
structure DenotesTime (s : String) (t : Timestamp) : Prop where
  written : ∃ d : DateText, d.WellFormed ∧ d.timestamp = t ∧ ∃ rest, endsHere rest = true ∧ s.toList = d.text ++ rest
  exists_time : t.isValid = true
  offset : isOffset t.offset = true

/-- The text denotes an identifier. -/
def DenotesGuid (s : String) (identifier : String) : Prop :=
  ∃ g : GuidText, g.WellFormed ∧ g.identifier = identifier ∧ s.toList = g.text

/-- The value that a text stands for. -/
inductive StandsFor (s : String) : Value → Prop
  | time {t : Timestamp} (h : DenotesTime s t) : StandsFor s (.time t)
  | guid {identifier : String} (h : DenotesGuid s identifier) : StandsFor s (.guid identifier)
  | text (htime : ∀ t, ¬ DenotesTime s t) (hguid : ∀ g, ¬ DenotesGuid s g) : StandsFor s (.text s)

/-- The texts that are refused. -/
inductive IsRefused (s : String) : Prop
  | offset {d : DateText} (hd : d.WellFormed) (hoffset : isOffset d.zone.offset = false) {rest : List Char}
      (hrest : endsHere rest = true) (hs : s.toList = d.text ++ rest)
  | lineEnd {g : GuidText} (hg : g.WellFormed) (hs : s.toList = g.text ++ ['\n'])

variable {s : String}

/-- A text denotes a time when it has the form of a timestamp, its fields are in range and its offset exists. -/
theorem denotesTime_iff {t : Timestamp} : DenotesTime s t ↔
    timestampForm? s.toList = some t ∧ t.isValid = true ∧ isOffset t.offset = true := by
  rw [timestampForm?_eq_some_iff]
  exact ⟨fun h => ⟨h.written, h.exists_time, h.offset⟩, fun ⟨hd, hvalid, hoffset⟩ => ⟨hd, hvalid, hoffset⟩⟩

/-- A text denotes an identifier when it has the form of one and nothing follows, not even a line feed. -/
theorem denotesGuid_iff {identifier : String} :
    DenotesGuid s identifier ↔ guidForm? s.toList = some (identifier, []) := by
  rw [guidForm?_eq_some_iff]
  simp only [List.append_nil]
  exact ⟨fun ⟨g, hg, hidentifier, hs⟩ => ⟨g, hg, hidentifier, rfl, hs⟩,
    fun ⟨g, hg, hidentifier, _, hs⟩ => ⟨g, hg, hidentifier, hs⟩⟩

/-- A text is refused that has the form of a timestamp with no such offset, or of an identifier before a line feed. -/
theorem isRefused_iff : IsRefused s ↔
    (∃ t, timestampForm? s.toList = some t ∧ isOffset t.offset = false) ∨
      ∃ identifier, guidForm? s.toList = some (identifier, ['\n']) := by
  constructor
  · rintro (⟨hd, hoffset, hrest, hs⟩ | ⟨hg, hs⟩)
    · exact .inl ⟨_, timestampForm?_eq_some_iff.2 ⟨_, hd, rfl, _, hrest, hs⟩, hoffset⟩
    · exact .inr ⟨_, guidForm?_eq_some_iff.2 ⟨_, hg, rfl, rfl, hs⟩⟩
  · rintro (⟨t, ht, hoffset⟩ | ⟨identifier, hg⟩)
    · obtain ⟨d, hd, rfl, rest, hrest, hs⟩ := timestampForm?_eq_some_iff.1 ht
      exact .offset hd hoffset hrest hs
    · obtain ⟨g, hg, -, -, hs⟩ := guidForm?_eq_some_iff.1 hg
      exact .lineEnd hg hs

theorem typedText_of_denotesTime {t : Timestamp} (h : DenotesTime s t) : typedText s = .ok (.time t) := by
  obtain ⟨hform, hvalid, hoffset⟩ := denotesTime_iff.1 h
  simp only [typedText, hform, hoffset, hvalid, if_true]

theorem typedText_of_denotesGuid {identifier : String} (h : DenotesGuid s identifier) :
    typedText s = .ok (.guid identifier) := by
  have hform := denotesGuid_iff.1 h
  simp only [typedText, timestampForm?_eq_none_of_guidForm? hform, hform]

/-- A refused text is not read as plain text either. -/
theorem typedText_of_isRefused (h : IsRefused s) : typedText s = .error (.fault .unreadable) := by
  rcases isRefused_iff.1 h with ⟨t, hform, hoffset⟩ | ⟨identifier, hform⟩
  · simp only [typedText, hform, hoffset, Bool.false_eq_true, if_false]
  · simp only [typedText, timestampForm?_eq_none_of_guidForm? hform, hform]

/-- Every other text stays as it is. -/
theorem typedText_of_plain (hrefused : ¬ IsRefused s) (htime : ∀ t, ¬ DenotesTime s t)
    (hguid : ∀ g, ¬ DenotesGuid s g) : typedText s = .ok (.text s) := by
  -- the form of an identifier leaves nothing or a line feed: the first denotes one and the second is refused
  have hidentifier : guidForm? s.toList = none := by
    rw [Option.eq_none_iff_forall_ne_some]
    rintro ⟨identifier, rest⟩ hform
    obtain ⟨-, -, -, hend, -⟩ := guidForm?_eq_some_iff.1 hform
    rcases endsHere_iff.1 hend with rfl | rfl
    · exact hguid identifier (denotesGuid_iff.2 hform)
    · exact hrefused (isRefused_iff.2 (.inr ⟨identifier, hform⟩))
  cases hform : timestampForm? s.toList with
  | none => simp only [typedText, hform, hidentifier]
  | some t =>
    cases hoffset : isOffset t.offset with
    | false => exact absurd (isRefused_iff.2 (.inl ⟨t, hform, hoffset⟩)) hrefused
    | true =>
      cases hvalid : t.isValid with
      | true => exact absurd (denotesTime_iff.2 ⟨hform, hvalid, hoffset⟩) (htime t)
      | false => simp only [typedText, hform, hoffset, hvalid, hidentifier, if_true, Bool.false_eq_true, if_false]

theorem exists_standsFor (s : String) : ∃ v, StandsFor s v := by
  by_cases htime : ∃ t, DenotesTime s t
  · obtain ⟨t, ht⟩ := htime
    exact ⟨_, .time ht⟩
  · by_cases hguid : ∃ g, DenotesGuid s g
    · obtain ⟨g, hg⟩ := hguid
      exact ⟨_, .guid hg⟩
    · exact ⟨_, .text (not_exists.1 htime) (not_exists.1 hguid)⟩

/-- A text that is not refused is given the value that it stands for. -/
theorem typedText_eq_ok_iff {v : Value} : typedText s = .ok v ↔ ¬ IsRefused s ∧ StandsFor s v := by
  constructor
  · intro h
    have hrefused : ¬ IsRefused s := by
      intro hrefused
      rw [typedText_of_isRefused hrefused] at h
      cases h
    refine ⟨hrefused, ?_⟩
    -- what the text stands for is unique, so it is enough that the reader finds one such value
    obtain ⟨w, hw⟩ := exists_standsFor s
    have hread : typedText s = .ok w := by
      cases hw with
      | time ht => exact typedText_of_denotesTime ht
      | guid hg => exact typedText_of_denotesGuid hg
      | text htime hguid => exact typedText_of_plain hrefused htime hguid
    rw [hread] at h
    exact Except.ok.inj h ▸ hw
  · rintro ⟨hrefused, hv⟩
    cases hv with
    | time ht => exact typedText_of_denotesTime ht
    | guid hg => exact typedText_of_denotesGuid hg
    | text htime hguid => exact typedText_of_plain hrefused htime hguid

/-! ## Values -/

mutual

/-- The texts in a value, but for the names of members. -/
def texts : Json → List String
  | .text s => [s]
  | .list items => textsOfItems items
  | .object members => textsOfMembers members
  | .null | .bool _ | .int _ | .float _ => []

/-- The texts in the items. -/
def textsOfItems : List Json → List String
  | [] => []
  | j :: js => texts j ++ textsOfItems js

/-- The texts in the members. -/
def textsOfMembers : List (String × Json) → List String
  | [] => []
  | (_, j) :: rest => texts j ++ textsOfMembers rest

end

mutual

/-- The value is narrowed to the other: its texts become what they stand for, and all else stays. -/
inductive NarrowsTo : Json → Value → Prop
  | null : NarrowsTo .null .null
  | bool (b : Bool) : NarrowsTo (.bool b) (.bool b)
  | int (n : Int) : NarrowsTo (.int n) (.int n)
  | float (x : Binary64) : NarrowsTo (.float x) (.float x)
  | text {s : String} {v : Value} (h : StandsFor s v) : NarrowsTo (.text s) v
  | list {items : List Json} {vs : List Value} (h : ItemsNarrowTo items vs) : NarrowsTo (.list items) (.list vs)
  | object {members : List (String × Json)} {entries : List (Value × Value)} (h : MembersNarrowTo members entries) :
      NarrowsTo (.object members) (.mapping entries)

/-- Item by item. -/
inductive ItemsNarrowTo : List Json → List Value → Prop
  | nil : ItemsNarrowTo [] []
  | cons {j : Json} {js : List Json} {v : Value} {vs : List Value} (h : NarrowsTo j v) (hs : ItemsNarrowTo js vs) :
      ItemsNarrowTo (j :: js) (v :: vs)

/-- Member by member, each under its name. -/
inductive MembersNarrowTo : List (String × Json) → List (Value × Value) → Prop
  | nil : MembersNarrowTo [] []
  | cons {name : String} {j : Json} {rest : List (String × Json)} {v : Value} {entries : List (Value × Value)}
      (h : NarrowsTo j v) (hs : MembersNarrowTo rest entries) :
      MembersNarrowTo ((name, j) :: rest) ((.text name, v) :: entries)

end

/-- Where there is one thing to be narrowed to, it is the result. -/
theorem ok_eq_ok_iff_of_unique {α : Type _} {a b : α} {p : Prop} {r : α → Prop} (hp : p) (ha : r a)
    (hunique : ∀ b, r b → b = a) : (Except.ok a : Except Error α) = .ok b ↔ p ∧ r b := by
  constructor
  · intro h
    obtain rfl := Except.ok.inj h
    exact ⟨hp, ha⟩
  · rintro ⟨-, hb⟩
    rw [hunique b hb]

mutual

/-- A value is narrowed exactly if none of its texts is refused. -/
theorem typed_eq_ok_iff (j : Json) (v : Value) :
    j.typed = .ok v ↔ (∀ s ∈ j.texts, ¬ IsRefused s) ∧ NarrowsTo j v := by
  -- the cases follow the value, with those of lists and of members proved alongside
  cases j with
  | text s =>
    rw [typed, typedText_eq_ok_iff, texts, List.forall_mem_singleton]
    refine and_congr_right fun _ => ⟨.text, fun h => ?_⟩
    cases h with
    | text h => exact h
  | list items =>
    rw [typed, Except.map_eq_ok_iff, texts]
    simp only [typedItems_eq_ok_iff items]
    constructor
    · rintro ⟨vs, ⟨hrefused, hvs⟩, rfl⟩
      exact ⟨hrefused, .list hvs⟩
    · rintro ⟨hrefused, h⟩
      cases h with
      | list hvs => exact ⟨_, ⟨hrefused, hvs⟩, rfl⟩
  | object members =>
    rw [typed, Except.map_eq_ok_iff, texts]
    simp only [typedMembers_eq_ok_iff members]
    constructor
    · rintro ⟨entries, ⟨hrefused, hentries⟩, rfl⟩
      exact ⟨hrefused, .object hentries⟩
    · rintro ⟨hrefused, h⟩
      cases h with
      | object hentries => exact ⟨_, ⟨hrefused, hentries⟩, rfl⟩
  | null =>
    rw [typed, texts]
    exact ok_eq_ok_iff_of_unique (List.forall_mem_nil _) .null fun _ h => by cases h; rfl
  | bool b =>
    rw [typed, texts]
    exact ok_eq_ok_iff_of_unique (List.forall_mem_nil _) (.bool b) fun _ h => by cases h; rfl
  | int n =>
    rw [typed, texts]
    exact ok_eq_ok_iff_of_unique (List.forall_mem_nil _) (.int n) fun _ h => by cases h; rfl
  | float x =>
    rw [typed, texts]
    exact ok_eq_ok_iff_of_unique (List.forall_mem_nil _) (.float x) fun _ h => by cases h; rfl

/-- The items of a list are narrowed one by one, and none of them may hold a refused text. -/
theorem typedItems_eq_ok_iff (items : List Json) (vs : List Value) :
    typedItems items = .ok vs ↔ (∀ s ∈ textsOfItems items, ¬ IsRefused s) ∧ ItemsNarrowTo items vs := by
  cases items with
  | nil =>
    rw [typedItems, textsOfItems]
    exact ok_eq_ok_iff_of_unique (List.forall_mem_nil _) .nil fun _ h => by cases h; rfl
  | cons j js =>
    rw [typedItems, textsOfItems]
    simp only [Except.bind_eq_ok_iff, Except.pure_eq_ok_iff, typed_eq_ok_iff j, typedItems_eq_ok_iff js,
      List.forall_mem_append]
    constructor
    · rintro ⟨v, ⟨hrefused, hv⟩, vs, ⟨hrefused', hvs⟩, rfl⟩
      exact ⟨⟨hrefused, hrefused'⟩, .cons hv hvs⟩
    · rintro ⟨⟨hrefused, hrefused'⟩, h⟩
      cases h with
      | cons hv hvs => exact ⟨_, ⟨hrefused, hv⟩, _, ⟨hrefused', hvs⟩, rfl⟩

/-- The members of an object are narrowed one by one under the names they have. -/
theorem typedMembers_eq_ok_iff (members : List (String × Json)) (entries : List (Value × Value)) :
    typedMembers members = .ok entries ↔
      (∀ s ∈ textsOfMembers members, ¬ IsRefused s) ∧ MembersNarrowTo members entries := by
  cases members with
  | nil =>
    rw [typedMembers, textsOfMembers]
    exact ok_eq_ok_iff_of_unique (List.forall_mem_nil _) .nil fun _ h => by cases h; rfl
  | cons m rest =>
    obtain ⟨name, j⟩ := m
    rw [typedMembers, textsOfMembers]
    simp only [Except.bind_eq_ok_iff, Except.pure_eq_ok_iff, typed_eq_ok_iff j, typedMembers_eq_ok_iff rest,
      List.forall_mem_append]
    constructor
    · rintro ⟨v, ⟨hrefused, hv⟩, entries, ⟨hrefused', hentries⟩, rfl⟩
      exact ⟨⟨hrefused, hrefused'⟩, .cons hv hentries⟩
    · rintro ⟨⟨hrefused, hrefused'⟩, h⟩
      cases h with
      | cons hv hentries => exact ⟨_, ⟨hrefused, hv⟩, _, ⟨hrefused', hentries⟩, rfl⟩

end

mutual

/-- There is a value for every other to be narrowed to. -/
theorem exists_narrowsTo (j : Json) : ∃ v, NarrowsTo j v := by
  cases j with
  | null => exact ⟨_, .null⟩
  | bool b => exact ⟨_, .bool b⟩
  | int n => exact ⟨_, .int n⟩
  | float x => exact ⟨_, .float x⟩
  | text s =>
    obtain ⟨v, hv⟩ := exists_standsFor s
    exact ⟨v, .text hv⟩
  | list items =>
    obtain ⟨vs, hvs⟩ := exists_itemsNarrowTo items
    exact ⟨_, .list hvs⟩
  | object members =>
    obtain ⟨entries, hentries⟩ := exists_membersNarrowTo members
    exact ⟨_, .object hentries⟩

theorem exists_itemsNarrowTo (items : List Json) : ∃ vs, ItemsNarrowTo items vs := by
  cases items with
  | nil => exact ⟨_, .nil⟩
  | cons j js =>
    obtain ⟨v, hv⟩ := exists_narrowsTo j
    obtain ⟨vs, hvs⟩ := exists_itemsNarrowTo js
    exact ⟨_, .cons hv hvs⟩

theorem exists_membersNarrowTo (members : List (String × Json)) : ∃ entries, MembersNarrowTo members entries := by
  cases members with
  | nil => exact ⟨_, .nil⟩
  | cons m rest =>
    obtain ⟨name, j⟩ := m
    obtain ⟨v, hv⟩ := exists_narrowsTo j
    obtain ⟨entries, hentries⟩ := exists_membersNarrowTo rest
    exact ⟨_, .cons hv hentries⟩

end

/-- Narrowing gives a value exactly if no text in the document is refused, and then keeps all of its structure. -/
theorem narrows_iff (j : Json) : ((∃ v, j.typed = .ok v) ↔ ∀ s ∈ j.texts, ¬ IsRefused s) ∧
    ∀ v, j.typed = .ok v → NarrowsTo j v := by
  refine ⟨⟨fun ⟨v, hv⟩ => ((typed_eq_ok_iff j v).1 hv).1, fun h => ?_⟩, fun v hv => ((typed_eq_ok_iff j v).1 hv).2⟩
  obtain ⟨v, hv⟩ := exists_narrowsTo j
  exact ⟨v, (typed_eq_ok_iff j v).2 ⟨h, hv⟩⟩

/-- A document with a date and time, and with one that does not exist. -/
def sampleDates : Json :=
  .object [("when", .text "2017-03-01T10:20:30Z"), ("never", .list [.text "2017-02-30T10:20:30Z", .int 3])]

/-- Values that are times, identifiers and plain text are all narrowed. -/
theorem narrows_sampleDates : ∃ v, sampleDates.typed = .ok v ∧ NarrowsTo sampleDates v := by
  have hread : sampleDates.typed = .ok (.mapping [(.text "when", .time ⟨⟨2017, 3, 1⟩, 10, 20, 30, 0, some 0⟩),
      (.text "never", .list [.text "2017-02-30T10:20:30Z", .int 3])]) := rfl
  exact ⟨_, hread, (narrows_iff sampleDates).2 _ hread⟩

/-- An offset of a day is refused. -/
theorem not_narrows : ¬ ∀ j : Json, ∃ v, j.typed = .ok v := by
  intro h
  obtain ⟨v, hv⟩ := h (.text "2017-03-01T10:20:30+24:00")
  have hform : timestampForm? "2017-03-01T10:20:30+24:00".toList =
      some ⟨⟨2017, 3, 1⟩, 10, 20, 30, 0, some 1440⟩ := by decide
  have hrefused : IsRefused "2017-03-01T10:20:30+24:00" := isRefused_iff.2 (.inl ⟨_, hform, by decide⟩)
  rw [typed, typedText_of_isRefused hrefused] at hv
  cases hv

end PackageGraph.Json
