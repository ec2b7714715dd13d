import Mathlib.Data.List.Forall2
import PackageGraph.Proofs.OrderedMap
import PackageGraph.Proofs.Project.Escapes
/-!
# Projects that are worked on at the same time

The next project to be done is one of those that have waited longest, as many of them as there are slots. So the first
to fail is one before which, in the order of the paths, there are fewer that fail than there are slots; and each of
these may be the first. A schedule has an influence on errors alone: when no project fails, what comes of them is put
together as if they had been done one after the other.
-/
namespace PackageGraph

open Except

variable {α β : Type} {slots : Nat}

namespace Schedule

/-! ## One turn -/

theorem order_nil (slots : Nat) (schedule : Schedule) : schedule.order slots ([] : List α) = [] := by
  cases schedule <;> rfl

/-- A turn picks one of the things that have waited longest. -/
theorem exists_order_cons (slots turn : Nat) (later : Schedule) {waiting : List α} (h : waiting ≠ []) :
    ∃ before x after, waiting = before ++ x :: after ∧ before.length < max 1 slots ∧
      order slots (turn :: later) waiting = x :: order slots later (before ++ after) := by
  have hlength : 0 < waiting.length := List.length_pos_of_ne_nil h
  have hnext : turn % min (max 1 slots) waiting.length < min (max 1 slots) waiting.length := Nat.mod_lt _ (by omega)
  have hwaiting : turn % min (max 1 slots) waiting.length < waiting.length := by omega
  refine ⟨waiting.take (turn % min (max 1 slots) waiting.length), waiting[turn % min (max 1 slots) waiting.length],
    waiting.drop (turn % min (max 1 slots) waiting.length + 1), ?_, ?_, ?_⟩
  · simp
  · rw [List.length_take]
    omega
  · rw [order, List.getElem?_eq_getElem hwaiting, List.eraseIdx_eq_take_drop_succ]

/-- Each of the things that have waited longest may be picked. -/
theorem order_length_cons {before : List α} (h : before.length < max 1 slots) (later : Schedule) (x : α)
    (after : List α) :
    order slots (before.length :: later) (before ++ x :: after) = x :: order slots later (before ++ after) := by
  have hbound : before.length < min (max 1 slots) (before ++ x :: after).length := by
    rw [List.length_append, List.length_cons]
    omega
  have hfound : (before ++ x :: after)[before.length]? = some x := by simp
  rw [order, Nat.mod_eq_of_lt hbound, hfound, List.eraseIdx_append_of_length_le (Nat.le_refl _), Nat.sub_self]
  rfl

/-! ## A whole schedule -/

/-- Everything is done once, in some order. -/
theorem order_perm (schedule : Schedule) (waiting : List α) : (schedule.order slots waiting).Perm waiting := by
  induction schedule generalizing waiting with
  | nil => exact .refl _
  | cons turn later ih =>
    by_cases h : waiting = []
    · rw [h, order_nil]
    · obtain ⟨before, x, after, rfl, -, horder⟩ := exists_order_cons slots turn later h
      rw [horder]
      exact ((ih (before ++ after)).cons x).trans List.perm_middle.symm

variable {step : α → Except Error β} {P : α → Prop}

/-- Whether a step fails. -/
def fails (step : α → Except Error β) (x : α) : Bool := !(step x).isOk

/-- What does not fail gives a result. -/
theorem fails_eq_false_iff {x : α} : fails step x = false ↔ ∃ b, step x = .ok b := by
  rw [fails]
  cases step x <;> simp [Except.isOk, Except.toBool]

/-- The first to fail has fewer that fail before it than there are slots. -/
theorem exists_of_failsFirst_order {schedule : Schedule} {xs : List α}
    (h : FailsFirst step P (schedule.order slots xs)) :
    ∃ before x after, xs = before ++ x :: after ∧ P x ∧ before.countP (fails step) < max 1 slots := by
  induction schedule generalizing xs with
  | nil =>
    obtain ⟨before, x, after, rfl, hbefore, hx⟩ := h
    -- without a turn things are done in order, and nothing that fails comes before the first that does
    refine ⟨before, x, after, rfl, hx, ?_⟩
    have hnone : before.countP (fails step) = 0 := by
      refine List.countP_eq_zero.2 fun y hy => ?_
      rw [fails_eq_false_iff.2 (hbefore y hy)]
      exact Bool.false_ne_true
    omega
  | cons turn later ih =>
    by_cases hxs : xs = []
    · rw [hxs, order_nil] at h
      exact absurd h not_failsFirst_nil
    · obtain ⟨front, y, back, rfl, hlength, horder⟩ := exists_order_cons slots turn later hxs
      rw [horder, failsFirst_cons_iff] at h
      rcases h with hy | ⟨hdone, hlater⟩
      · have hcount : front.countP (fails step) ≤ front.length := List.countP_le_length
        exact ⟨front, y, back, rfl, hy, by omega⟩
      · -- what has been done does not fail, so that it counts for nothing where it stood
        have hok : fails step y = false := fails_eq_false_iff.2 hdone
        obtain ⟨before, x, after, hsplit, hx, hcount⟩ := ih hlater
        rcases List.append_eq_append_iff.1 hsplit with ⟨rest, rfl, rfl⟩ | ⟨rest, rfl, hrest⟩
        · exact ⟨front ++ y :: rest, x, after, by simp, hx, by simpa [hok] using hcount⟩
        · cases rest with
          | nil => exact ⟨before ++ [y], x, after, by simpa using hrest.symm, hx, by simpa [hok] using hcount⟩
          | cons z rest =>
            obtain ⟨rfl, rfl⟩ := List.cons.inj hrest
            exact ⟨before, x, rest ++ y :: back, by simp, hx, hcount⟩

/-- Where fewer fail before it than there are slots, anything may be the first to fail. -/
theorem exists_failsFirst_order {x : α} (hx : P x) (after : List α) {failing before : List α}
    (hfailing : ∀ y ∈ failing, fails step y = true)
    (hcount : (failing ++ before).countP (fails step) < max 1 slots) :
    ∃ schedule : Schedule, FailsFirst step P (schedule.order slots (failing ++ before ++ x :: after)) := by
  -- those that do not fail are done first; those that do are passed over, and stay at work
  induction before generalizing failing with
  | nil =>
    have hlength : failing.length < max 1 slots := by
      rwa [List.append_nil, List.countP_eq_length.2 hfailing] at hcount
    refine ⟨[failing.length], ?_⟩
    rw [List.append_nil, order_length_cons hlength, failsFirst_cons_iff]
    exact .inl hx
  | cons y before ih =>
    have hparts : failing ++ y :: before = failing ++ [y] ++ before := by simp
    cases hy : fails step y with
    | true =>
      rw [hparts] at hcount ⊢
      refine ih (fun z hz => ?_) hcount
      rcases List.mem_append.1 hz with hz | hz
      · exact hfailing z hz
      · rwa [List.mem_singleton.1 hz]
    | false =>
      have hlength : failing.length < max 1 slots := by
        have hall : failing.countP (fails step) = failing.length := List.countP_eq_length.2 hfailing
        rw [List.countP_append] at hcount
        omega
      obtain ⟨later, hlater⟩ := ih hfailing (by simpa [hy] using hcount)
      refine ⟨failing.length :: later, ?_⟩
      rw [List.append_assoc, List.cons_append, order_length_cons hlength, failsFirst_cons_iff, ← List.append_assoc]
      exact .inr ⟨fails_eq_false_iff.1 hy, hlater⟩

/-- What may be the first to fail. -/
theorem exists_failsFirst_order_iff {xs : List α} :
    (∃ schedule : Schedule, FailsFirst step P (schedule.order slots xs)) ↔
      ∃ before x after, xs = before ++ x :: after ∧ P x ∧ before.countP (fails step) < max 1 slots := by
  constructor
  · exact fun ⟨_, h⟩ => exists_of_failsFirst_order h
  · rintro ⟨before, x, after, rfl, hx, hcount⟩
    have hnone : ∀ y ∈ ([] : List α), fails step y = true := by simp
    exact exists_failsFirst_order hx after hnone hcount

end Schedule

namespace Aggregate

variable {fs : FileSystem} {provider : ProjectProvider} {paths : List String}

/-! ## What comes of the projects -/

/-- What is kept under the name of a project is what came of it. -/
theorem get?_of_mapM {f : String → Except Error β} {projects : List String} {done : OrderedMap String β}
    (h : projects.mapM (fun p => (f p).map (p, ·)) = .ok done) {p : String} (hp : p ∈ projects) :
    OrderedMap.get? done p = (f p).toOption := by
  rw [mapM_eq_ok_iff] at h
  induction h with
  | nil => cases hp
  | @cons q entry projects done hentry _ ih =>
    obtain ⟨o, ho, rfl⟩ := map_eq_ok_iff.1 hentry
    rw [OrderedMap.get?_cons]
    by_cases hq : q = p
    · rw [if_pos (beq_iff_eq.2 hq), ← hq, ho]
      rfl
    · rw [if_neg (fun h => hq (beq_iff_eq.1 h)), ih ((List.mem_cons.1 hp).resolve_left (Ne.symm hq))]

/-- Results that are all there are kept. -/
theorem filterMap_toOption {f : String → Except Error β} {projects : List String} {outcomes : List β}
    (h : projects.mapM f = .ok outcomes) : projects.filterMap (fun p => (f p).toOption) = outcomes := by
  rw [mapM_eq_ok_iff] at h
  induction h with
  | nil => rfl
  | @cons p o projects outcomes ho _ ih =>
    rw [List.filterMap_cons, ho, ih]
    rfl

/-- Projects are done in the order of the schedule, and what comes of them is put in the order of their paths. -/
theorem result_outcomesIn (schedule : Schedule) :
    (outcomesIn schedule slots fs provider paths).result =
      (schedule.order slots (projectPaths fs.workingDirectory paths)).mapM
        (fun p => (ProjectOutcome.ofProject fs provider p).result.map (p, ·)) >>= fun done =>
          .ok ((projectPaths fs.workingDirectory paths).filterMap (OrderedMap.get? done)) := by
  have hkeyed : ∀ p, (ProjectOutcome.ofProject fs provider p).result.map (p, ·) =
      (ProjectOutcome.ofProject fs provider p).result >>= fun o => .ok (p, o) := by
    intro p
    cases (ProjectOutcome.ofProject fs provider p).result <;> rfl
  simp only [outcomesIn, Logged.result_bind, Logged.result_mapM, Logged.result_pure, hkeyed]

/-- Projects that do not fail come out as if they had been done one after the other, whatever the schedule. -/
theorem result_outcomesIn_eq_ok_iff (schedule : Schedule) {os : List ProjectOutcome} :
    (outcomesIn schedule slots fs provider paths).result = .ok os ↔ (outcomes fs provider paths).result = .ok os := by
  have hperm : (schedule.order slots (projectPaths fs.workingDirectory paths)).Perm
      (projectPaths fs.workingDirectory paths) := schedule.order_perm _
  have harranged : ∀ {done os}, (schedule.order slots (projectPaths fs.workingDirectory paths)).mapM
      (fun p => (ProjectOutcome.ofProject fs provider p).result.map (p, ·)) = .ok done →
      (outcomes fs provider paths).result = .ok os →
      (projectPaths fs.workingDirectory paths).filterMap (OrderedMap.get? done) = os := by
    intro done os hdone hos
    rw [outcomes, Logged.result_mapM] at hos
    rw [← filterMap_toOption hos]
    exact List.filterMap_congr fun p hp => get?_of_mapM hdone (hperm.mem_iff.2 hp)
  rw [result_outcomesIn, bind_eq_ok_iff]
  constructor
  · rintro ⟨done, hdone, hos⟩
    -- what fails under no schedule does not fail one after the other either
    obtain ⟨os', hos'⟩ : ∃ os', (outcomes fs provider paths).result = .ok os' := by
      rw [outcomes, Logged.result_mapM]
      refine exists_mapM_eq_ok fun p hp => ?_
      obtain ⟨entry, -, hentry⟩ := exists_mem_of_mapM hdone p (hperm.mem_iff.2 hp)
      obtain ⟨o, ho, -⟩ := map_eq_ok_iff.1 hentry
      exact ⟨o, ho⟩
    rw [hos', ← harranged hdone hos', Except.ok.inj hos]
  · intro hos
    obtain ⟨done, hdone⟩ : ∃ done, (schedule.order slots (projectPaths fs.workingDirectory paths)).mapM
        (fun p => (ProjectOutcome.ofProject fs provider p).result.map (p, ·)) = .ok done := by
      refine exists_mapM_eq_ok fun p hp => ?_
      rw [outcomes, Logged.result_mapM] at hos
      obtain ⟨o, -, ho⟩ := exists_mem_of_mapM hos p (hperm.mem_iff.1 hp)
      exact ⟨(p, o), by rw [ho]; rfl⟩
    exact ⟨done, hdone, congrArg Except.ok (harranged hdone hos)⟩

/-- An aggregate is the same whatever the schedule. -/
theorem ofProjectsIn_eq_ok_iff (schedule : Schedule) {a : Aggregate} :
    (ofProjectsIn schedule slots fs provider paths).result = .ok a ↔ (ofProjects fs provider paths).result = .ok a := by
  simp only [ofProjectsIn, ofProjects, Logged.result_bind, bind_eq_ok_iff, result_outcomesIn_eq_ok_iff]

/-- An aggregate escapes with the first project to fail, in the order in which they are done. -/
theorem escapes_ofProjectsIn_iff (schedule : Schedule) :
    Escapes (ofProjectsIn schedule slots fs (.ofFiles fs) paths).result ↔
      FailsFirst (fun p => (ProjectOutcome.ofProject fs (.ofFiles fs) p).result) (ProjectEscapes fs)
        (schedule.order slots (projectPaths fs.workingDirectory paths)) := by
  have hdone : ∀ p, (∃ entry, (ProjectOutcome.ofProject fs (.ofFiles fs) p).result.map (p, ·) = .ok entry) ↔
      ∃ o, (ProjectOutcome.ofProject fs (.ofFiles fs) p).result = .ok o := fun p => exists_map_eq_ok_iff
  have hescapes : ∀ p,
      Escapes ((ProjectOutcome.ofProject fs (.ofFiles fs) p).result.map (p, ·)) ↔ ProjectEscapes fs p :=
    fun p => escapes_map_iff.trans ProjectOutcome.escapes_ofProject_iff
  rw [ofProjectsIn, Logged.result_bind, escapes_bind_iff_left, result_outcomesIn, escapes_bind_iff_left,
    escapes_mapM_iff]
  · simp only [FailsFirst, hdone, hescapes]
  · exact fun done => not_escapes_ok _
  · exact fun outcomes => not_escapes_ok _

end Aggregate
end PackageGraph
