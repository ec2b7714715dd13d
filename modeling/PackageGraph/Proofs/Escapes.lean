import PackageGraph.CommandLine.ExitCode
import PackageGraph.Log
import PackageGraph.Proofs.Except
/-!
# Errors without an exit code

A computation escapes if it ends with an error that has no exit code. Of several steps the first that fails decides, so
that a later step escapes only if all steps before it succeed.
-/
namespace PackageGraph

/-- The fault has an exit code. -/
def Fault.IsReported (f : Fault) : Prop := (ExitCode.ofFault? f).isSome = true

/-- The error has an exit code. -/
def Error.IsReported (e : Error) : Prop := (ExitCode.ofError? e).isSome = true

instance : DecidablePred Fault.IsReported := fun _ => inferInstanceAs (Decidable (_ = _))

instance : DecidablePred Error.IsReported := fun _ => inferInstanceAs (Decidable (_ = _))

/-- The computation ends with an error that has no exit code. -/
def Escapes {α : Type} (x : Except Error α) : Prop := ∃ e, x = .error e ∧ ¬ e.IsReported

/-- Of the steps on the elements of a list one fails on an element of this kind, and those before it succeed. -/
def FailsFirst {α β : Type} (step : α → Except Error β) (P : α → Prop) (xs : List α) : Prop :=
  ∃ before x after, xs = before ++ x :: after ∧ (∀ y ∈ before, ∃ b, step y = .ok b) ∧ P x

variable {α β : Type}

/-- An error escapes if it has no exit code. -/
theorem escapes_error_iff {e : Error} : Escapes (.error e : Except Error α) ↔ ¬ e.IsReported := by
  constructor
  · rintro ⟨e', he, h⟩
    cases he
    exact h
  · exact fun h => ⟨e, rfl, h⟩

theorem not_escapes_ok (a : α) : ¬ Escapes (.ok a : Except Error α) := by
  rintro ⟨e, he, -⟩
  cases he

/-- What fails only with errors that have exit codes does not escape. -/
theorem not_escapes_of_failsOnlyWith {x : Except Error α} (h : x.FailsOnlyWith Error.IsReported) : ¬ Escapes x := by
  rintro ⟨e, he, hunreported⟩
  exact hunreported (h e he)

/-- The second of two steps escapes only after the first has succeeded. -/
theorem escapes_bind_iff {x : Except Error α} {f : α → Except Error β} :
    Escapes (x >>= f) ↔ Escapes x ∨ ∃ a, x = .ok a ∧ Escapes (f a) := by
  cases x with
  | error e =>
    show Escapes (.error e : Except Error β) ↔ _
    rw [escapes_error_iff, escapes_error_iff]
    exact ⟨.inl, fun h => h.resolve_right fun ⟨a, ha, _⟩ => by cases ha⟩
  | ok a =>
    rw [Except.ok_bind]
    constructor
    · exact fun h => .inr ⟨a, rfl, h⟩
    · rintro (h | ⟨b, hb, h⟩)
      · exact absurd h (not_escapes_ok a)
      · cases hb
        exact h

/-- A step after which nothing escapes. -/
theorem escapes_bind_iff_left {x : Except Error α} {f : α → Except Error β} (hf : ∀ a, ¬ Escapes (f a)) :
    Escapes (x >>= f) ↔ Escapes x := by
  rw [escapes_bind_iff]
  exact or_iff_left fun ⟨a, _, h⟩ => hf a h

/-- Nothing is left to do after the step. -/
theorem escapes_bind_pure_iff {x : Except Error α} {f : α → β} : Escapes (x >>= fun a => pure (f a)) ↔ Escapes x :=
  escapes_bind_iff_left fun _ => not_escapes_ok _

/-- A step whose result does not decide whether the next one escapes. -/
theorem escapes_bind_iff_const {x : Except Error α} {f : α → Except Error β} {p : Prop} (hf : ∀ a, Escapes (f a) ↔ p) :
    Escapes (x >>= f) ↔ Escapes x ∨ (∃ a, x = .ok a) ∧ p := by
  rw [escapes_bind_iff]
  simp only [hf, exists_and_right]

/-- Going on with a result does not change whether it is there. -/
theorem escapes_map_iff {x : Except Error α} {f : α → β} : Escapes (x.map f) ↔ Escapes x := by
  cases x with
  | error e => exact escapes_error_iff.trans escapes_error_iff.symm
  | ok a => exact iff_of_false (not_escapes_ok _) (not_escapes_ok _)

/-- The first step escapes, or it is done and a later one does. -/
theorem failsFirst_cons_iff {step : α → Except Error β} {P : α → Prop} {x : α} {xs : List α} :
    FailsFirst step P (x :: xs) ↔ P x ∨ (∃ b, step x = .ok b) ∧ FailsFirst step P xs := by
  constructor
  · rintro ⟨before, y, after, hxs, hbefore, hy⟩
    cases before with
    | nil =>
      obtain ⟨rfl, -⟩ := List.cons.inj hxs
      exact .inl hy
    | cons z before =>
      obtain ⟨rfl, hrest⟩ := List.cons.inj hxs
      obtain ⟨hx, hbefore⟩ := List.forall_mem_cons.1 hbefore
      exact .inr ⟨hx, before, y, after, hrest, hbefore, hy⟩
  · rintro (hx | ⟨hx, before, y, after, rfl, hbefore, hy⟩)
    · exact ⟨[], x, xs, rfl, by simp, hx⟩
    · exact ⟨x :: before, y, after, rfl, List.forall_mem_cons.2 ⟨hx, hbefore⟩, hy⟩

theorem not_failsFirst_nil {step : α → Except Error β} {P : α → Prop} : ¬ FailsFirst step P [] := by
  rintro ⟨before, x, after, h, -⟩
  cases before <;> cases h

theorem failsFirst_congr {step : α → Except Error β} {P Q : α → Prop} (h : ∀ x, P x ↔ Q x) {xs : List α} :
    FailsFirst step P xs ↔ FailsFirst step Q xs := by
  have hPQ : P = Q := funext fun x => propext (h x)
  rw [hPQ]

/-- A list of steps escapes with the first step that fails. -/
theorem escapes_mapM_iff {step : α → Except Error β} {xs : List α} :
    Escapes (xs.mapM step) ↔ FailsFirst step (fun x => Escapes (step x)) xs := by
  induction xs with
  | nil => exact iff_of_false (not_escapes_ok []) not_failsFirst_nil
  | cons x xs ih =>
    rw [failsFirst_cons_iff, List.mapM_cons, escapes_bind_iff]
    refine or_congr_right ?_
    simp only [escapes_bind_iff, ih]
    constructor
    · rintro ⟨b, hb, h | ⟨bs, -, h⟩⟩
      · exact ⟨⟨b, hb⟩, h⟩
      · exact absurd h (not_escapes_ok _)
    · rintro ⟨⟨b, hb⟩, h⟩
      exact ⟨b, hb, .inl h⟩

end PackageGraph
