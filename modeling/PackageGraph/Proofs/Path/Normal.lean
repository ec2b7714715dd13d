import Mathlib.Data.List.Basic
import Mathlib.Data.List.Induction
import Mathlib.Logic.Relation
import PackageGraph.Proofs.Path
import PackageGraph.Proofs.Text.Split
/-!
# Normalized paths

The components of a normalized path are names, and before them steps up unless the path begins at the root. A
normalized path is normalized already, and two paths have one normalized path exactly if they begin alike and come from
each other by leaving out, or putting in, what leads nowhere.

`IsReduced.add_up_cases` says what a step up does, `resolved_eq_iff` what components that are worked off in order keep.
-/
namespace PackageGraph.Path

open Text

/-! ## Components -/

/-- The component that steps up. -/
def up : List Char := ['.', '.']

/-- The component leads nowhere. -/
def Stays (c : List Char) : Prop := c = [] ∨ c = ['.']

/-- The component is the name of something. -/
def IsName (c : List Char) : Prop := ¬ Stays c ∧ c ≠ up

/-- Components of which none can be left out: steps up, none of them from the root, and then names. -/
def IsReduced (rooted : Bool) (cs : List (List Char)) : Prop :=
  ∃ n names, cs = List.replicate n up ++ names ∧ (rooted = true → n = 0) ∧ ∀ c ∈ names, IsName c

/-- The components after one more has been worked off. -/
def add (rooted : Bool) (cs : List (List Char)) (c : List Char) : List (List Char) :=
  (step rooted cs.reverse c).reverse

/-- What is left of components that are worked off in order. -/
def resolved (rooted : Bool) (cs : List (List Char)) : List (List Char) := (cs.foldl (step rooted) []).reverse

/-- A way from which something is left out that leads nowhere: a component that stays, a name with a step up after it,
or a step up from the root. -/
inductive Shortens (rooted : Bool) : List (List Char) → List (List Char) → Prop where
  | stay (before after : List (List Char)) {c : List Char} (hc : Stays c) :
    Shortens rooted (before ++ c :: after) (before ++ after)
  | back (before after : List (List Char)) {c : List Char} (hc : IsName c) :
    Shortens rooted (before ++ c :: up :: after) (before ++ after)
  | root (after : List (List Char)) (h : rooted = true) : Shortens rooted (up :: after) after

section

variable {rooted : Bool} {c : List Char} {cs : List (List Char)}

/-! ## Working off a component -/

theorem not_stays_up : ¬ Stays up := by
  rintro (h | h) <;> cases h

/-- A component stays where it is, goes up, or names an entry. -/
theorem component_cases (c : List Char) : Stays c ∨ c = up ∨ IsName c := by
  by_cases hstays : Stays c
  · exact .inl hstays
  · by_cases hup : c = up
    · exact .inr (.inl hup)
    · exact .inr (.inr ⟨hstays, hup⟩)

theorem step_of_stays (hc : Stays c) (before : List (List Char)) : step rooted before c = before := if_pos hc

theorem step_of_isName (hc : IsName c) (before : List (List Char)) : step rooted before c = c :: before :=
  (if_neg hc.1).trans (if_neg hc.2)

/-- Going up takes back the last component, unless there is none or it goes up itself. -/
theorem step_up (before : List (List Char)) : step rooted before up =
    match before with
    | [] => if rooted then [] else [up]
    | last :: rest => if last = up then up :: before else rest :=
  (if_neg not_stays_up).trans (if_pos rfl)

theorem add_of_stays (hc : Stays c) : add rooted cs c = cs := by
  rw [add, step_of_stays hc, List.reverse_reverse]

theorem add_of_isName (hc : IsName c) : add rooted cs c = cs ++ [c] := by
  rw [add, step_of_isName hc, List.reverse_cons, List.reverse_reverse]

/-- Steps up are kept where there is no root. -/
theorem add_up_replicate (n : Nat) : add false (List.replicate n up) up = List.replicate (n + 1) up := by
  rw [add, step_up, List.reverse_replicate]
  cases n with
  | zero => rfl
  | succ n => simp [List.replicate_succ, ← List.replicate_succ']

/-- A step up takes back the last name. Where there is none it goes nowhere from the root, and is kept otherwise. -/
theorem IsReduced.add_up_cases (h : IsReduced rooted cs) :
    (∃ init name, IsReduced rooted init ∧ IsName name ∧ cs = init ++ [name] ∧ add rooted cs up = init) ∨
      (rooted = true ∧ cs = [] ∧ add rooted cs up = []) ∨
        (rooted = false ∧ ∃ n, cs = List.replicate n up ∧ add rooted cs up = List.replicate (n + 1) up) := by
  obtain ⟨n, names, rfl, hn, hnames⟩ := h
  rcases List.eq_nil_or_concat' names with rfl | ⟨init, name, rfl⟩
  · rw [List.append_nil]
    cases rooted with
    | true =>
      obtain rfl := hn rfl
      exact .inr (.inl ⟨rfl, rfl, rfl⟩)
    | false => exact .inr (.inr ⟨rfl, n, rfl, add_up_replicate n⟩)
  · have hname : IsName name := hnames name (by simp)
    refine .inl ⟨List.replicate n up ++ init, name, ⟨n, init, rfl, hn, fun c hc => hnames c (by simp [hc])⟩, hname,
      by simp, ?_⟩
    rw [add, step_up]
    simp [hname.2]

/-- Nothing is reduced, with no step up. -/
theorem isReduced_nil : IsReduced rooted [] := ⟨0, [], rfl, fun _ => rfl, by simp⟩

/-- What has been worked off stays reduced. -/
theorem isReduced_add (h : IsReduced rooted cs) (c : List Char) : IsReduced rooted (add rooted cs c) := by
  rcases component_cases c with hc | rfl | hc
  · rwa [add_of_stays hc]
  · rcases h.add_up_cases with ⟨init, name, hinit, -, -, hup⟩ | ⟨-, -, hup⟩ | ⟨rfl, n, rfl, hup⟩
    · rwa [hup]
    · rw [hup]
      exact isReduced_nil
    · rw [hup]
      exact ⟨n + 1, [], by simp, by simp, by simp⟩
  · rw [add_of_isName hc]
    obtain ⟨n, names, rfl, hn, hnames⟩ := h
    refine ⟨n, names ++ [c], by simp, hn, ?_⟩
    simpa [or_imp, forall_and, hc] using hnames

/-! ## Working off components in order -/

/-- What follows is worked off from what is left of the components before it. -/
theorem resolved_append (cs ds : List (List Char)) :
    resolved rooted (cs ++ ds) = (ds.foldl (step rooted) (resolved rooted cs).reverse).reverse := by
  rw [resolved, List.foldl_append, resolved, List.reverse_reverse]

/-- Components are resolved from the left, the last one last. -/
theorem resolved_append_singleton (cs : List (List Char)) (c : List Char) :
    resolved rooted (cs ++ [c]) = add rooted (resolved rooted cs) c :=
  resolved_append cs [c]

/-- Resolution leaves only steps up at the front, and none below a root. -/
theorem isReduced_resolved (cs : List (List Char)) : IsReduced rooted (resolved rooted cs) := by
  induction cs using List.reverseRecOn with
  | nil => exact isReduced_nil
  | append_singleton cs c ih =>
    rw [resolved_append_singleton]
    exact isReduced_add ih c

/-- Nothing is left that was not there. -/
theorem resolved_subset (cs : List (List Char)) : resolved rooted cs ⊆ cs := by
  induction cs using List.reverseRecOn with
  | nil => exact List.Subset.refl _
  | append_singleton cs c ih =>
    have hcs : resolved rooted cs ⊆ cs ++ [c] := List.Subset.trans ih (List.subset_append_left _ _)
    have hc : resolved rooted cs ++ [c] ⊆ cs ++ [c] := List.append_subset.2 ⟨hcs, List.subset_append_right _ _⟩
    rw [resolved_append_singleton]
    -- a step up may be one that the list brings itself, so it is in `cs ++ [c]` like a name
    rcases component_cases c with hstays | rfl | hname
    · rwa [add_of_stays hstays]
    · rcases (isReduced_resolved cs).add_up_cases with ⟨init, name, -, -, hinit, hup⟩ | ⟨-, -, hup⟩ | ⟨-, n, hn, hup⟩
      · have hsub : init ⊆ resolved rooted cs := hinit ▸ List.subset_append_left init [name]
        rw [hup]
        exact List.Subset.trans hsub hcs
      · rw [hup]
        exact List.nil_subset _
      · rwa [hup, List.replicate_succ', ← hn]
    · rwa [add_of_isName hname]

/-- Steps up from an unknown directory stay as they are. -/
theorem resolved_replicate_up (n : Nat) : resolved false (List.replicate n up) = List.replicate n up := by
  induction n with
  | zero => rfl
  | succ n ih => rw [List.replicate_succ', resolved_append_singleton, ih, add_up_replicate, List.replicate_succ']

/-- Reduced components are left as they are. -/
theorem IsReduced.resolved_eq (h : IsReduced rooted cs) : resolved rooted cs = cs := by
  obtain ⟨n, names, rfl, hn, hnames⟩ := h
  induction names using List.reverseRecOn with
  | nil =>
    rw [List.append_nil]
    cases rooted with
    | true =>
      rw [hn rfl]
      rfl
    | false => exact resolved_replicate_up n
  | append_singleton names c ih =>
    rw [← List.append_assoc, resolved_append_singleton, ih fun d hd => hnames d (by simp [hd]),
      add_of_isName (hnames c (by simp))]

/-- Components in front may be resolved beforehand. -/
theorem resolved_resolved_append (cs ds : List (List Char)) :
    resolved rooted (resolved rooted cs ++ ds) = resolved rooted (cs ++ ds) := by
  rw [resolved_append, (isReduced_resolved cs).resolved_eq, resolved_append]

/-! ## What leads nowhere -/

/-- What is left does not change when something is left out that leads nowhere. -/
theorem resolved_eq_of_shortens {ds : List (List Char)} (h : Shortens rooted cs ds) :
    resolved rooted cs = resolved rooted ds := by
  cases h with
  | stay before after hc => rw [resolved_append, List.foldl_cons, step_of_stays hc, resolved_append]
  | back before after hc =>
    -- the step up takes back the name that was added just before it
    rw [resolved_append, List.foldl_cons, List.foldl_cons, step_of_isName hc, step_up, resolved_append]
    simp only [if_neg hc.2]
  | root after h =>
    rw [h]
    rfl

/-- Components lead the same way as what is left of them, whatever follows. -/
theorem eqvGen_resolved_append (cs after : List (List Char)) :
    Relation.EqvGen (Shortens rooted) (cs ++ after) (resolved rooted cs ++ after) := by
  -- from the end, where each component changes what is left of the ones before it
  induction cs using List.reverseRecOn generalizing after with
  | nil => exact .refl _
  | append_singleton cs c ih =>
    rw [List.append_assoc, List.singleton_append]
    refine .trans _ _ _ (ih (c :: after)) ?_
    rw [resolved_append_singleton]
    rcases component_cases c with hc | rfl | hc
    · rw [add_of_stays hc]
      exact .rel _ _ (.stay _ after hc)
    · rcases (isReduced_resolved cs).add_up_cases with ⟨init, name, -, hname, hinit, hup⟩ | ⟨hrooted, hnil, hup⟩ |
        ⟨-, n, hn, hup⟩
      · rw [hup, hinit, List.append_assoc]
        exact .rel _ _ (.back init after hname)
      · rw [hup, hnil]
        exact .rel _ _ (.root after hrooted)
      · rw [hup, hn, List.replicate_succ', List.append_assoc]
        exact .refl _
    · rw [add_of_isName hc, List.append_assoc]
      exact .refl _

/-- Of components the same is left exactly if they come from each other by what leads nowhere. -/
theorem resolved_eq_iff {ds : List (List Char)} :
    resolved rooted cs = resolved rooted ds ↔ Relation.EqvGen (Shortens rooted) cs ds := by
  constructor
  · intro h
    have hkept : ∀ es, Relation.EqvGen (Shortens rooted) es (resolved rooted es) := by
      intro es
      simpa using eqvGen_resolved_append es []
    exact .trans _ _ _ (hkept cs) (h ▸ .symm _ _ (hkept ds))
  · intro h
    induction h with
    | rel _ _ h => exact resolved_eq_of_shortens h
    | refl _ => rfl
    | symm _ _ _ ih => exact ih.symm
    | trans _ _ _ _ _ ih ih' => exact ih.trans ih'

/-- An empty component is never left. -/
theorem IsReduced.ne_nil_of_mem (h : IsReduced rooted cs) (hc : c ∈ cs) : c ≠ [] := by
  obtain ⟨n, names, rfl, -, hnames⟩ := h
  rcases List.mem_append.1 hc with hc | hc
  · rw [List.eq_of_mem_replicate hc]
    exact List.cons_ne_nil _ _
  · exact fun hnil => (hnames c hc).1 (.inl hnil)

end

/-! ## Texts of paths -/

/-- The slashes may stand at the start of a normalized path. -/
def IsMark (mark : List Char) : Prop := mark = [] ∨ mark = ['/'] ∨ mark = ['/', '/']

/-- The slashes and the components make up a normalized path. -/
structure IsNormal (mark : List Char) (cs : List (List Char)) : Prop where
  isMark : IsMark mark
  isReduced : IsReduced (!mark.isEmpty) cs
  whole : ∀ c ∈ cs, '/' ∉ c

/-- The text of a path with these slashes at its start and these components. -/
def pathChars (mark : List Char) (cs : List (List Char)) : List Char :=
  match mark ++ joinComponents cs with
  | [] => ['.']
  | path => path

theorem normalizeChars_eq (cs : List Char) : normalizeChars cs = pathChars (rootMark cs) (components cs) := rfl

theorem components_eq (cs : List Char) : components cs = resolved (!(rootMark cs).isEmpty) (splitOn '/' cs) := rfl

/-- What stands in front of the components is no slash, one, or exactly two. -/
theorem isMark_rootMark (cs : List Char) : IsMark (rootMark cs) := by
  unfold rootMark
  split
  · exact .inr (.inl rfl)
  · exact .inr (.inr rfl)
  · exact .inr (.inl rfl)
  · exact .inl rfl

/-- The mark and the components that normalization keeps are those of a normal path. -/
theorem isNormal (cs : List Char) : IsNormal (rootMark cs) (components cs) where
  isMark := isMark_rootMark cs
  isReduced := isReduced_resolved _
  whole _ hc := notMem_of_mem_splitOn (resolved_subset _ hc)

/-- A path has a root mark exactly when it is absolute. -/
theorem isEmpty_rootMark (path : String) : (!(rootMark path.toList).isEmpty) = isAbsolute path := by
  rw [isAbsolute]
  cases path.toList with
  | nil => rfl
  | cons c cs =>
    by_cases hc : c = '/'
    · obtain ⟨mark, hmark⟩ := exists_rootMark_cons cs
      rw [hc, hmark]
      rfl
    · have hmark : rootMark (c :: cs) = [] := by
        simp [rootMark, hc]
      simp [hmark, hc]

theorem joinComponents_eq_intercalate (cs : List (List Char)) : joinComponents cs = ['/'].intercalate cs := by
  induction cs with
  | nil => rfl
  | cons c cs ih =>
    cases cs with
    | nil => simp [joinComponents]
    | cons d cs => simp [joinComponents, ih, List.intercalate_cons_cons]

/-- The mark in front of components that do not begin with a slash is read back. -/
theorem rootMark_append {mark cs : List Char} (hmark : IsMark mark) (hcs : cs.head? ≠ some '/') :
    rootMark (mark ++ cs) = mark := by
  cases cs with
  | nil => rcases hmark with rfl | rfl | rfl <;> rfl
  | cons c cs =>
    have hc : c ≠ '/' := by simpa using hcs
    rcases hmark with rfl | rfl | rfl <;> simp [rootMark, hc]

/-- The slashes at the start of a path add components that lead nowhere. -/
theorem resolved_splitOn_append {mark : List Char} (hmark : IsMark mark) (rooted : Bool) (cs : List Char) :
    resolved rooted (splitOn '/' (mark ++ cs)) = resolved rooted (splitOn '/' cs) := by
  rcases hmark with rfl | rfl | rfl <;> rfl

namespace IsNormal

variable {mark : List Char} {cs : List (List Char)} (h : IsNormal mark cs)

include h

/-- Joined components do not begin with a slash, as none of them is empty. -/
theorem head?_joinComponents : (joinComponents cs).head? ≠ some '/' := by
  cases cs with
  | nil => simp [joinComponents]
  | cons c cs =>
    obtain ⟨d, name, rfl⟩ := List.exists_cons_of_ne_nil (h.isReduced.ne_nil_of_mem List.mem_cons_self)
    have hhead : (joinComponents ((d :: name) :: cs)).head? = some d := by
      cases cs <;> rfl
    rw [hhead, Ne, Option.some_inj]
    exact fun hd => h.whole _ List.mem_cons_self (hd ▸ List.mem_cons_self)

/-- Reduced components, joined and split again, are resolved to themselves. -/
theorem resolved_splitOn_joinComponents : resolved (!mark.isEmpty) (splitOn '/' (joinComponents cs)) = cs := by
  cases cs with
  | nil => rfl
  | cons c cs =>
    rw [joinComponents_eq_intercalate, splitOn_intercalate (List.cons_ne_nil _ _) h.whole, h.isReduced.resolved_eq]

/-- Only a path with neither slashes nor components needs a component that stays. -/
theorem pathChars_cases :
    (mark = [] ∧ cs = [] ∧ pathChars mark cs = ['.']) ∨ pathChars mark cs = mark ++ joinComponents cs := by
  unfold pathChars
  split
  · rename_i hnil
    obtain ⟨rfl, hjoin⟩ := List.append_eq_nil_iff.1 hnil
    refine .inl ⟨rfl, ?_, rfl⟩
    have hsplit := h.resolved_splitOn_joinComponents
    rw [hjoin] at hsplit
    exact hsplit.symm
  · exact .inr rfl

/-- The slashes are read off the text again. -/
theorem rootMark_pathChars : rootMark (pathChars mark cs) = mark := by
  rcases h.pathChars_cases with ⟨rfl, rfl, -⟩ | hchars
  · rfl
  · rw [hchars, rootMark_append h.isMark h.head?_joinComponents]

/-- The components are read off the text again. -/
theorem components_pathChars : components (pathChars mark cs) = cs := by
  rw [components_eq, h.rootMark_pathChars]
  rcases h.pathChars_cases with ⟨rfl, rfl, -⟩ | hchars
  · rfl
  · rw [hchars, resolved_splitOn_append h.isMark, h.resolved_splitOn_joinComponents]

end IsNormal

/-- The normal form is written from the mark and the components of the path. -/
theorem toList_normalize (path : String) :
    (normalize path).toList = pathChars (rootMark path.toList) (components path.toList) := by
  rw [normalize, String.toList_ofList, normalizeChars_eq]

/-- A normalized path is normalized already. -/
theorem normalize_normalize (path : String) : normalize (normalize path) = normalize path := by
  have hnormal := isNormal path.toList
  rw [normalize, normalizeChars_eq, toList_normalize, hnormal.rootMark_pathChars, hnormal.components_pathChars]
  rfl

/-! ## Paths that lead alike -/

/-- The paths begin alike and come from each other by leaving out, or putting in, what leads nowhere. -/
def LeadAlike (p q : String) : Prop :=
  rootMark p.toList = rootMark q.toList ∧
    Relation.EqvGen (Shortens (isAbsolute p)) (splitOn '/' p.toList) (splitOn '/' q.toList)

/-- Two paths have one normalized path exactly if they begin alike and the same components are left of them. -/
theorem normalize_eq_iff_parts {p q : String} : normalize p = normalize q ↔
    rootMark p.toList = rootMark q.toList ∧ components p.toList = components q.toList := by
  constructor
  · intro h
    have hp := isNormal p.toList
    have hq := isNormal q.toList
    have hchars : pathChars (rootMark p.toList) (components p.toList) =
        pathChars (rootMark q.toList) (components q.toList) := by
      rw [← toList_normalize, h, toList_normalize]
    constructor
    · rw [← hp.rootMark_pathChars, hchars, hq.rootMark_pathChars]
    · rw [← hp.components_pathChars, hchars, hq.components_pathChars]
  · rintro ⟨hmark, hcomponents⟩
    rw [normalize, normalizeChars_eq, hmark, hcomponents]
    rfl

/-- Two paths have one normalized path exactly if they lead alike. -/
theorem normalize_eq_iff {p q : String} : normalize p = normalize q ↔ LeadAlike p q := by
  rw [normalize_eq_iff_parts, LeadAlike]
  refine and_congr_right fun hmark => ?_
  rw [components_eq, components_eq, ← hmark, isEmpty_rootMark]
  exact resolved_eq_iff

end PackageGraph.Path
