import PackageGraph.Proofs.DependencyGraph.Unresolved
/-!
# The closure of a project

A project needs the projects that are reached from it by references, through projects that the graph holds. The search
finds exactly these, each once: those that are reached by fewer references come first, and otherwise the references
decide, in the order in which they are come across.
-/
namespace PackageGraph

/-! ## What is kept of a list with repetitions -/

section

variable {α : Type} [BEq α] [LawfulBEq α]

/-- The first element is kept, and nothing that repeats it. -/
theorem distinct_cons (x : α) (xs : List α) : distinct (x :: xs) = x :: distinct (xs.filter (· != x)) := by
  induction xs using List.reverseRecOn with
  | nil => rfl
  | append_singleton xs y ih =>
    rw [← List.cons_append, distinct_append_singleton, ih, List.filter_append]
    by_cases hy : y = x
    · subst hy
      simp
    · have hy' : [y].filter (· != x) = [y] := by simp [hy]
      rw [hy', distinct_append_singleton, List.contains_cons, beq_eq_false_iff_ne.2 hy, Bool.false_or]
      split <;> rfl

omit [LawfulBEq α] in
/-- A longer list keeps more at the end. -/
theorem distinct_prefix_append (xs ys : List α) : distinct xs <+: distinct (xs ++ ys) := by
  induction ys using List.reverseRecOn with
  | nil => simp
  | append_singleton ys y ih =>
    rw [← List.append_assoc, distinct_append_singleton]
    split
    · exact ih
    · exact ih.trans (List.prefix_append _ _)

/-- What is kept before an element stands before each of its occurrences. -/
theorem mem_of_kept_before {before after left right : List α} {x y : α}
    (hkept : distinct (left ++ y :: right) = before ++ y :: after) (hx : x ∈ before) : x ∈ left := by
  have hnodup : (before ++ y :: after).Nodup := hkept ▸ nodup_distinct _
  have hy : y ∉ before := fun hmem => (List.nodup_append.1 hnodup).2.2 y hmem y List.mem_cons_self rfl
  have hsplit : left ++ y :: right = (left ++ [y]) ++ right := by simp
  obtain ⟨rest, hrest⟩ := distinct_prefix_append (left ++ [y]) right
  rw [← hsplit, hkept] at hrest
  have hmem : ∀ {z}, z ∈ distinct (left ++ [y]) ↔ z ∈ left ∨ z = y := by simp [mem_distinct]
  rcases List.append_eq_append_iff.1 hrest with ⟨more, hbefore, -⟩ | ⟨more, hleft, -⟩
  · -- the element itself would be kept before itself
    refine absurd ?_ hy
    rw [hbefore]
    exact List.mem_append_left _ (hmem.2 (.inr rfl))
  -- what is kept before it stood to the left of it
  · have hx' : x ∈ distinct (left ++ [y]) := by
      rw [hleft]
      exact List.mem_append_left _ hx
    exact (hmem.1 hx').resolve_right fun h => hy (h ▸ hx)

end

/-! ## Visits -/

namespace Graph

variable {successors : String → Option (List String)} {openNames queue : List String}

/-- The names that are visited are those that are come across, in the queue and after it among the successors of the
visited names. -/
theorem visit_eq_distinct (successors : String → Option (List String)) (openNames queue : List String) :
    visit successors openNames queue =
      distinct ((queue ++ (visit successors openNames queue).flatMap fun name => (successors name).getD []).filter
        fun name => openNames.contains name && (successors name).isSome) := by
  induction openNames, queue using visit.induct successors with
  | case1 openNames => simp [visit, distinct]
  | case2 openNames name queue hopen hnone ih =>
    -- a name without successors is not visited, and a name that is closed already is passed over
    rw [visit, dif_pos hopen, hnone]
    simpa [hnone] using ih
  | case3 openNames name queue hopen next hnext ih =>
    rw [visit, dif_pos hopen, hnext]
    simp only [List.flatMap_cons, hnext, Option.getD_some, List.cons_append]
    rw [List.filter_cons_of_pos (by simp [hopen, hnext]), distinct_cons, List.filter_filter]
    -- what is left open has no part in the filter that the name itself does not take
    congr 1
    refine ih.trans ?_
    rw [List.append_assoc]
    congr 2
    funext other
    by_cases hother : other = name <;> simp [leave, hother]
  | case4 openNames name queue hopen ih =>
    rw [visit, dif_neg hopen]
    simpa [hopen] using ih

/-- What holds of the names in the queue and passes on to successors holds of every name that is visited. -/
theorem forall_mem_visit {P : String → Prop} (hqueue : ∀ name ∈ queue, (successors name).isSome → P name)
    (hstep : ∀ name next, P name → successors name = some next →
      ∀ other ∈ next, (successors other).isSome → P other) :
    ∀ name ∈ visit successors openNames queue, P name := by
  induction openNames, queue using visit.induct successors with
  | case1 openNames => simp [visit]
  | case2 openNames name queue hopen hnone ih =>
    rw [visit, dif_pos hopen, hnone]
    exact ih (List.forall_mem_cons.1 hqueue).2
  | case3 openNames name queue hopen next hnext ih =>
    rw [visit, dif_pos hopen, hnext]
    -- the name was in the queue, and its successors are there because of it
    obtain ⟨hname, hqueue⟩ := List.forall_mem_cons.1 hqueue
    have hP : P name := hname (by simp [hnext])
    refine List.forall_mem_cons.2 ⟨hP, ih (List.forall_mem_append.2 ⟨hqueue, ?_⟩)⟩
    exact hstep name next hP hnext
  | case4 openNames name queue hopen ih =>
    rw [visit, dif_neg hopen]
    exact ih (List.forall_mem_cons.1 hqueue).2

end Graph

/-! ## Reachability -/

namespace DependencyGraph

variable {g : DependencyGraph} {start name : String} {n : Nat}

/-- The name is reached by following so many references, each from a project of the graph to another. -/
inductive ReachesIn (g : DependencyGraph) (start : String) : Nat → String → Prop
  | start (h : start ∈ g.names) : ReachesIn g start 0 start
  | step {n : Nat} {name next : String} {s : PackageSpec} (h : ReachesIn g start n name) (hs : g.find? name = some s)
    (hrefers : s.RefersTo next) (hnext : next ∈ g.names) : ReachesIn g start (n + 1) next

/-- The name is reached by references through projects of the graph. -/
def Reaches (g : DependencyGraph) (start name : String) : Prop := ∃ n, g.ReachesIn start n name

/-- A graph finds exactly the projects that it names. -/
theorem isSome_find?_iff : (g.find? name).isSome = true ↔ name ∈ g.names := by
  rw [Graph.find?, OrderedMap.isSome_get?, contains_projects_iff]

theorem exists_find?_of_mem (h : name ∈ g.names) : ∃ s, g.find? name = some s :=
  Option.isSome_iff_exists.1 (isSome_find?_iff.2 h)

/-- Exactly the projects of the graph have successors. -/
theorem isSome_successors_iff : (g.successors name).isSome = true ↔ name ∈ g.names := by
  rw [successors, Option.isSome_map, isSome_find?_iff]

theorem successors_of_find? {s : PackageSpec} (h : g.find? name = some s) :
    g.successors name = some s.referenceNames := by
  rw [successors, h, Option.map_some]

/-- The successors of a project are what it refers to. -/
theorem mem_getD_successors_iff {other : String} :
    name ∈ (g.successors other).getD [] ↔ ∃ s, g.find? other = some s ∧ s.RefersTo name := by
  cases hs : g.find? other with
  | none => simp [successors, hs]
  | some s => simp [successors_of_find? hs, PackageSpec.mem_referenceNames_iff]

namespace ReachesIn

/-- Only projects of the graph are reached. -/
theorem mem_names (h : g.ReachesIn start n name) : name ∈ g.names := by
  cases h with
  | start h => exact h
  | step _ _ _ hnext => exact hnext

/-- Nothing is reached from a name that the graph does not hold. -/
theorem start_mem_names (h : g.ReachesIn start n name) : start ∈ g.names := by
  induction h with
  | start h => exact h
  | step _ _ _ _ ih => exact ih

end ReachesIn

/-! ## The names of the closure -/

/-- The names are listed in the order in which they are come across: the project itself, then what the listed projects
refer to. -/
theorem closureNames_eq_distinct (g : DependencyGraph) (start : String) :
    g.closureNames start =
      distinct ((start :: (g.closureNames start).flatMap fun name => (g.successors name).getD []).filter
        fun name => g.names.contains name) := by
  refine (Graph.visit_eq_distinct g.successors g.names [start]).trans ?_
  congr 2
  funext name
  rw [Bool.eq_iff_iff, Bool.and_eq_true, isSome_successors_iff, List.contains_iff_mem, and_self]

/-- A closure names each project once. -/
theorem nodup_closureNames (g : DependencyGraph) (start : String) : (g.closureNames start).Nodup := by
  rw [closureNames_eq_distinct]
  exact nodup_distinct _

/-- A name of the graph is listed if it is where the search starts, or if a listed project refers to it. -/
theorem mem_closureNames_iff_start_or : name ∈ g.closureNames start ↔
    name ∈ g.names ∧ (name = start ∨ ∃ other ∈ g.closureNames start, ∃ s,
      g.find? other = some s ∧ s.RefersTo name) := by
  rw [closureNames_eq_distinct, mem_distinct, List.mem_filter, List.contains_iff_mem, List.mem_cons, List.mem_flatMap,
    ← closureNames_eq_distinct]
  simp only [mem_getD_successors_iff, and_comm]

/-- Exactly the names that are reached are listed. -/
theorem mem_closureNames_iff : name ∈ g.closureNames start ↔ g.Reaches start name := by
  constructor
  · refine Graph.forall_mem_visit ?_ ?_ name
    · intro other hother hin
      obtain rfl := List.mem_singleton.1 hother
      exact ⟨0, .start (isSome_successors_iff.1 hin)⟩
    · rintro other next ⟨n, hreaches⟩ hnext successor hsuccessor hin
      obtain ⟨s, hs⟩ := exists_find?_of_mem hreaches.mem_names
      obtain rfl := Option.some.inj ((successors_of_find? hs).symm.trans hnext)
      exact ⟨n + 1, .step hreaches hs (PackageSpec.mem_referenceNames_iff.1 hsuccessor)
        (isSome_successors_iff.1 hin)⟩
  · rintro ⟨n, hreaches⟩
    -- what is reached was the start or follows what was visited before
    induction hreaches with
    | start h => exact mem_closureNames_iff_start_or.2 ⟨h, .inl rfl⟩
    | step _ hs hrefers hnext ih => exact mem_closureNames_iff_start_or.2 ⟨hnext, .inr ⟨_, ih, _, hs, hrefers⟩⟩

/-- What is listed before a name is reached by no more references than the name. -/
theorem reachesIn_of_before {before after : List String} (hnames : g.closureNames start = before ++ name :: after)
    (hname : g.ReachesIn start n name) {earlier : String} (hearlier : earlier ∈ before) :
    ∃ m ≤ n, g.ReachesIn start m earlier := by
  have hkept := (closureNames_eq_distinct g start).symm.trans hnames
  induction hname generalizing before after earlier with
  | start h =>
    rw [List.filter_cons_of_pos (List.contains_iff_mem.2 h)] at hkept
    have hnone : earlier ∈ ([] : List String) := mem_of_kept_before hkept hearlier
    cases hnone
  | @step n name next s hname hs hrefers hnext ih =>
    -- the reference to the name divides what is come across in two
    obtain ⟨nearer, farther, hlisted⟩ := List.append_of_mem (mem_closureNames_iff.2 ⟨n, hname⟩)
    obtain ⟨l, r, hreferences⟩ := List.append_of_mem (PackageSpec.mem_referenceNames_iff.2 hrefers)
    have hsuccessors : (g.successors name).getD [] = l ++ next :: r := by
      rw [successors_of_find? hs, Option.getD_some, hreferences]
    have hacross : (start :: (g.closureNames start).flatMap fun name => (g.successors name).getD []) =
        (start :: (nearer.flatMap fun name => (g.successors name).getD []) ++ l) ++
          next :: (r ++ farther.flatMap fun name => (g.successors name).getD []) := by
      rw [hlisted, List.flatMap_append, List.flatMap_cons, hsuccessors]
      simp
    rw [hacross, List.filter_append, List.filter_cons_of_pos (List.contains_iff_mem.2 hnext)] at hkept
    obtain ⟨hmem, hin⟩ := List.mem_filter.1 (mem_of_kept_before hkept hearlier)
    have hin : earlier ∈ g.names := List.contains_iff_mem.1 hin
    rcases List.mem_append.1 hmem with hmem | hl
    · rcases List.mem_cons.1 hmem with rfl | hmem
      · exact ⟨0, Nat.zero_le _, .start hin⟩
      · obtain ⟨other, hother, hmem⟩ := List.mem_flatMap.1 hmem
        obtain ⟨m, hm, hreached⟩ := ih hlisted hother ((closureNames_eq_distinct g start).symm.trans hlisted)
        obtain ⟨t, ht, hrefers⟩ := mem_getD_successors_iff.1 hmem
        exact ⟨m + 1, Nat.succ_le_succ hm, .step hreached ht hrefers hin⟩
    · refine ⟨n + 1, Nat.le_refl _, .step hname hs (PackageSpec.mem_referenceNames_iff.1 ?_) hin⟩
      rw [hreferences]
      exact List.mem_append_left _ hl

/-! ## The closure -/

/-- The projects of the closure are those that the listed names stand for, in the same order. -/
theorem forall₂_closure (g : DependencyGraph) (start : String) :
    List.Forall₂ (fun name s => g.find? name = some s) (g.closureNames start) (g.closure start) := by
  have hlisted : ∀ names : List String, (∀ name ∈ names, name ∈ g.names) →
      List.Forall₂ (fun name s => g.find? name = some s) names (names.filterMap g.find?) := by
    intro names hnames
    induction names with
    | nil => exact .nil
    | cons name names ih =>
      obtain ⟨hname, hnames⟩ := List.forall_mem_cons.1 hnames
      obtain ⟨s, hs⟩ := exists_find?_of_mem hname
      rw [List.filterMap_cons_some hs]
      exact .cons hs (ih hnames)
  exact hlisted _ fun name hname => (mem_closureNames_iff_start_or.1 hname).1

/-- The closure holds the specification of each name that is reached. -/
theorem mem_closure_iff {s : PackageSpec} :
    s ∈ g.closure start ↔ ∃ name, g.Reaches start name ∧ g.find? name = some s := by
  rw [closure, List.mem_filterMap]
  simp only [mem_closureNames_iff]

/-- The closure is empty exactly if there is no project to begin with. -/
theorem closure_eq_nil_iff : g.closure start = [] ↔ start ∉ g.names := by
  constructor
  · intro hnil hstart
    obtain ⟨s, hs⟩ := exists_find?_of_mem hstart
    have hmem : s ∈ g.closure start := mem_closure_iff.2 ⟨start, ⟨0, .start hstart⟩, hs⟩
    rw [hnil] at hmem
    cases hmem
  · intro hstart
    refine List.eq_nil_iff_forall_not_mem.2 fun s hs => ?_
    obtain ⟨name, ⟨n, hreaches⟩, -⟩ := mem_closure_iff.1 hs
    exact hstart hreaches.start_mem_names

/-- What the listed projects refer to, in their order. -/
theorem flatMap_successors_closureNames (g : DependencyGraph) (start : String) :
    ((g.closureNames start).flatMap fun name => (g.successors name).getD []) =
      (g.closure start).flatMap PackageSpec.referenceNames := by
  have h := forall₂_closure g start
  generalize g.closureNames start = names, g.closure start = specs at h ⊢
  induction h with
  | nil => rfl
  | cons hs _ ih => rw [List.flatMap_cons, List.flatMap_cons, ih, successors_of_find? hs, Option.getD_some]

/-- In a graph without unresolved references a project of the closure refers to projects of the closure. -/
theorem exists_mem_closure_of_refersTo (h : g.unresolvedReferences = []) {s : PackageSpec} (hs : s ∈ g.closure start)
    (hrefers : s.RefersTo name) : g.Reaches start name ∧ ∃ t ∈ g.closure start, g.find? name = some t := by
  obtain ⟨other, ⟨n, hreaches⟩, hother⟩ := mem_closure_iff.1 hs
  have hname : name ∈ g.names := by
    by_contra hnew
    have hu : ⟨other, name⟩ ∈ g.unresolvedReferences :=
      mem_unresolvedReferences_iff.2 ⟨hnew, s, OrderedMap.mem_of_get? hother, hrefers⟩
    rw [h] at hu
    cases hu
  have hreached : g.Reaches start name := ⟨n + 1, .step hreaches hother hrefers hname⟩
  obtain ⟨t, ht⟩ := exists_find?_of_mem hname
  exact ⟨hreached, t, mem_closure_iff.2 ⟨name, hreached, ht⟩, ht⟩

/-- The closure lists what is reached from a project: the projects under the names that are reached, each name once,
nearer names first and otherwise in the order in which the references come across them. Nothing is reached from a name
without a project, and without unresolved references nothing that is reached leads out of the graph. -/
theorem closure_exact (g : DependencyGraph) (start : String) :
    List.Forall₂ (fun name s => g.find? name = some s) (g.closureNames start) (g.closure start) ∧
    (g.closureNames start).Nodup ∧
    (∀ name, name ∈ g.closureNames start ↔ g.Reaches start name) ∧
    (∀ before name after, g.closureNames start = before ++ name :: after → ∀ earlier ∈ before, ∀ n,
      g.ReachesIn start n name → ∃ m ≤ n, g.ReachesIn start m earlier) ∧
    g.closureNames start =
      distinct ((start :: (g.closure start).flatMap PackageSpec.referenceNames).filter g.names.contains) ∧
    (g.closure start = [] ↔ start ∉ g.names) ∧
    (g.unresolvedReferences = [] → ∀ s ∈ g.closure start, ∀ name, s.RefersTo name →
      g.Reaches start name ∧ ∃ t ∈ g.closure start, g.find? name = some t) := by
  refine ⟨forall₂_closure g start, nodup_closureNames g start, fun name => mem_closureNames_iff, ?_, ?_,
    closure_eq_nil_iff, ?_⟩
  · intro before name after hnames earlier hearlier n hname
    exact reachesIn_of_before hnames hname hearlier
  · rw [← flatMap_successors_closureNames]
    exact closureNames_eq_distinct g start
  · intro h s hs name hrefers
    exact exists_mem_closure_of_refersTo h hs hrefers

end DependencyGraph
end PackageGraph
