import PackageGraph.Proofs.Json.DateText
/-!
# Texts of globally unique identifiers

A text has the form of an identifier exactly if it is five groups of hexadecimal digits between hyphens, with a brace
before them or without, a brace after them or without, and a line end or none. It is not that of a date and time, which
has a hyphen within the first group.
-/
namespace PackageGraph.Json

open Text

/-- The text is so many hexadecimal digits. -/
structure IsHexRun (count : Nat) (cs : List Char) : Prop where
  length : cs.length = count
  digits : ∀ c ∈ cs, isHex c = true

/-- The text of an identifier in its parts. -/
structure GuidText where
  hasOpening : Bool
  first : List Char
  second : List Char
  third : List Char
  fourth : List Char
  fifth : List Char
  hasClosing : Bool

namespace GuidText

/-- The groups with the hyphens between them. -/
def groups (g : GuidText) : List Char :=
  g.first ++ '-' :: (g.second ++ '-' :: (g.third ++ '-' :: (g.fourth ++ '-' :: g.fifth)))

/-- The text that the parts make up. -/
def text (g : GuidText) : List Char :=
  (if g.hasOpening then ['\x7b'] else []) ++ (g.groups ++ if g.hasClosing then ['\x7d'] else [])

structure WellFormed (g : GuidText) : Prop where
  first : IsHexRun 8 g.first
  second : IsHexRun 4 g.second
  third : IsHexRun 4 g.third
  fourth : IsHexRun 4 g.fourth
  fifth : IsHexRun 12 g.fifth

/-- The identifier in lower case. -/
def identifier (g : GuidText) : String :=
  Text.join "-" ([g.first, g.second, g.third, g.fourth, g.fifth].map fun group => .ofList (group.map Char.toLower))

end GuidText

/-- A run of `count` hexadecimal digits is read exactly off a text that begins with one. -/
theorem hexRun?_eq_some_iff {count : Nat} {cs run rest : List Char} :
    hexRun? count cs = some (run, rest) ↔ IsHexRun count run ∧ cs = run ++ rest := by
  constructor
  · intro h
    simp only [hexRun?] at h
    split at h
    · rename_i hrun
      obtain ⟨rfl, rfl⟩ := Prod.mk.inj (Option.some.inj h)
      exact ⟨⟨hrun.1, by simpa using hrun.2⟩, (List.take_append_drop count cs).symm⟩
    · cases h
  · rintro ⟨⟨rfl, hdigits⟩, rfl⟩
    have hrun : run.length = run.length ∧ run.all isHex = true := ⟨rfl, List.all_eq_true.2 hdigits⟩
    rw [hexRun?, List.take_left, List.drop_left, if_pos hrun]

/-- A run of hexadecimal digits is read back whatever follows it. -/
theorem IsHexRun.hexRun?_append {count : Nat} {run : List Char} (h : IsHexRun count run) (rest : List Char) :
    hexRun? count (run ++ rest) = some (run, rest) :=
  hexRun?_eq_some_iff.2 ⟨h, rfl⟩

theorem IsHexRun.exists_cons {count : Nat} {cs : List Char} (h : IsHexRun (count + 1) cs) :
    ∃ c ds, cs = c :: ds ∧ isHex c = true := by
  cases cs with
  | nil => cases h.length
  | cons c ds => exact ⟨c, ds, rfl, h.digits c List.mem_cons_self⟩

/-- A brace may stand before a text. -/
theorem exists_afterBrace (brace : Char) (cs : List Char) :
    ∃ hasBrace : Bool, cs = (if hasBrace then [brace] else []) ++ afterBrace brace cs := by
  cases cs with
  | nil => exact ⟨false, rfl⟩
  | cons c cs =>
    by_cases hc : c = brace
    · exact ⟨true, by simp [afterBrace, hc]⟩
    · exact ⟨false, by simp [afterBrace, hc]⟩

/-- A brace that may stand in front of `cs` is passed over, since `cs` does not begin with another. -/
theorem afterBrace_append {brace : Char} (hasBrace : Bool) {cs : List Char} (h : ∀ c ∈ cs.head?, c ≠ brace) :
    afterBrace brace ((if hasBrace then [brace] else []) ++ cs) = cs := by
  cases hasBrace with
  | true => simp [afterBrace]
  | false =>
    cases cs with
    | nil => rfl
    | cons c cs => simp [afterBrace, h c rfl]

/-- A text has the form of an identifier exactly if it is written from parts, and these say which it is. -/
theorem guidForm?_eq_some_iff {cs rest : List Char} {s : String} : guidForm? cs = some (s, rest) ↔
    ∃ g : GuidText, g.WellFormed ∧ g.identifier = s ∧ endsHere rest = true ∧ cs = g.text ++ rest := by
  simp only [guidForm?, Option.bind_eq_bind, Option.bind_eq_some_iff, Prod.exists, Option.ite_none_right_eq_some,
    Option.some.injEq, Prod.mk.injEq]
  constructor
  · rintro ⟨first, _, hfirstRead, _, hfirstEnd, second, _, hsecondRead, _, hsecondEnd, third, _, hthirdRead, _,
      hthirdEnd, fourth, _, hfourthRead, _, hfourthEnd, fifth, more, hfifthRead, hend, rfl, rfl⟩
    obtain ⟨hfirst, hopened⟩ := hexRun?_eq_some_iff.1 hfirstRead
    obtain rfl := after?_eq_some_iff.1 hfirstEnd
    obtain ⟨hsecond, rfl⟩ := hexRun?_eq_some_iff.1 hsecondRead
    obtain rfl := after?_eq_some_iff.1 hsecondEnd
    obtain ⟨hthird, rfl⟩ := hexRun?_eq_some_iff.1 hthirdRead
    obtain rfl := after?_eq_some_iff.1 hthirdEnd
    obtain ⟨hfourth, rfl⟩ := hexRun?_eq_some_iff.1 hfourthRead
    obtain rfl := after?_eq_some_iff.1 hfourthEnd
    obtain ⟨hfifth, rfl⟩ := hexRun?_eq_some_iff.1 hfifthRead
    -- neither brace has to be there, nor both when one is
    obtain ⟨hasOpening, hopening⟩ := exists_afterBrace '\x7b' cs
    obtain ⟨hasClosing, hclosing⟩ := exists_afterBrace '\x7d' more
    refine ⟨⟨hasOpening, first, second, third, fourth, fifth, hasClosing⟩,
      ⟨hfirst, hsecond, hthird, hfourth, hfifth⟩, rfl, hend, ?_⟩
    generalize afterBrace '\x7d' more = rest at hclosing
    rw [hopening, hopened, hclosing]
    simp [GuidText.text, GuidText.groups]
  · rintro ⟨g, hg, rfl, hend, rfl⟩
    have hopened : afterBrace '\x7b' (g.text ++ rest) =
        g.groups ++ ((if g.hasClosing then ['\x7d'] else []) ++ rest) := by
      rw [GuidText.text, List.append_assoc, List.append_assoc]
      refine afterBrace_append g.hasOpening fun c hc => ?_
      obtain ⟨d, ds, hfirst, hhex⟩ := hg.first.exists_cons
      rw [GuidText.groups, hfirst] at hc
      obtain rfl : d = c := Option.some.inj hc
      rintro rfl
      exact absurd hhex (by decide)
    -- at the end stands nothing or a line feed, neither of which is a brace
    have hclosed : afterBrace '\x7d' ((if g.hasClosing then ['\x7d'] else []) ++ rest) = rest := by
      refine afterBrace_append g.hasClosing fun c hc => ?_
      rcases endsHere_iff.1 hend with rfl | rfl
      · cases hc
      · obtain rfl : '\n' = c := Option.some.inj hc
        decide
    have hgroups : ∀ more, g.groups ++ more = g.first ++ '-' :: (g.second ++ '-' :: (g.third ++ '-' ::
        (g.fourth ++ '-' :: (g.fifth ++ more)))) := fun more => by simp [GuidText.groups]
    rw [hopened, hgroups]
    refine ⟨_, _, hg.first.hexRun?_append _, _, after?_eq_some_iff.2 rfl, _, _, hg.second.hexRun?_append _,
      _, after?_eq_some_iff.2 rfl, _, _, hg.third.hexRun?_append _, _, after?_eq_some_iff.2 rfl,
      _, _, hg.fourth.hexRun?_append _, _, after?_eq_some_iff.2 rfl, _, _, hg.fifth.hexRun?_append _, ?_, rfl, hclosed⟩
    rw [hclosed, hend]

/-- The hyphen after a year stands where an identifier has a digit. -/
theorem timestampForm?_eq_none_of_guidForm? {cs : List Char} {form : String × List Char}
    (h : guidForm? cs = some form) : timestampForm? cs = none := by
  rw [Option.eq_none_iff_forall_ne_some]
  intro t ht
  obtain ⟨d, hd, -, rest, -, hdate⟩ := timestampForm?_eq_some_iff.1 ht
  obtain ⟨g, hg, -, -, hguid⟩ := guidForm?_eq_some_iff.1 h
  have hhyphen : cs[4]? = some '-' := by
    rw [hdate, DateText.text, List.append_assoc, ← hd.year.length, List.getElem?_append_right (Nat.le_refl _),
      Nat.sub_self]
    rfl
  have hfirst : ∀ more, ∀ i < 8, ∃ c, (g.first ++ more)[i]? = some c ∧ isHex c = true := by
    intro more i hi
    have hlt : i < g.first.length := by rw [hg.first.length]; exact hi
    refine ⟨g.first[i], ?_, hg.first.digits _ (List.getElem_mem hlt)⟩
    rw [List.getElem?_append_left hlt, List.getElem?_eq_getElem hlt]
  have hhex : ∃ c, cs[4]? = some c ∧ isHex c = true := by
    rw [hguid, GuidText.text, GuidText.groups]
    -- the brace moves the digits by one place
    cases g.hasOpening with
    | true => simpa using hfirst _ 3 (by decide)
    | false => simpa using hfirst _ 4 (by decide)
  obtain ⟨c, hc, hhex⟩ := hhex
  rw [hhyphen] at hc
  obtain rfl := Option.some.inj hc
  exact absurd hhex (by decide)

end PackageGraph.Json
