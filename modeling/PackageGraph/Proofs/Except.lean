import Mathlib.Data.List.Forall2
/-!
# Steps that may fail

A computation of several steps succeeds exactly if each of its steps does.
-/
namespace Except

variable {ε α β : Type _}

theorem ok_bind (a : α) (f : α → Except ε β) : (Except.ok a >>= f) = f a := rfl

theorem pure_eq_ok (a : α) : (pure a : Except ε α) = .ok a := rfl

theorem map_eq_ok_iff {x : Except ε α} {f : α → β} {b : β} : x.map f = .ok b ↔ ∃ a, x = .ok a ∧ f a = b := by
  cases x <;> simp [Except.map]

/-- Telling an error in another way leaves results as they are. -/
theorem mapError_eq_ok_iff {δ : Type _} {x : Except ε α} {f : ε → δ} {a : α} : x.mapError f = .ok a ↔ x = .ok a := by
  cases x <;> simp [Except.mapError]

theorem exists_map_eq_ok_iff {x : Except ε α} {f : α → β} : (∃ b, x.map f = .ok b) ↔ ∃ a, x = .ok a := by
  cases x <;> simp [Except.map]

/-- Two steps give a result if both do. -/
theorem bind_eq_ok_iff {x : Except ε α} {f : α → Except ε β} {b : β} :
    x >>= f = .ok b ↔ ∃ a, x = .ok a ∧ f a = .ok b := by
  cases x <;> simp [bind, Except.bind]

theorem exists_pure_eq_ok_iff {a : α} : (∃ b, (pure a : Except ε α) = .ok b) ↔ True := iff_true_intro ⟨a, rfl⟩

/-- Where the result of a step does not decide whether the next one succeeds, each of them is to succeed. -/
theorem exists_bind_eq_ok_iff {x : Except ε α} {f : α → Except ε β} {p : Prop}
    (hf : ∀ a, (∃ b, f a = .ok b) ↔ p) : (∃ b, x >>= f = .ok b) ↔ (∃ a, x = .ok a) ∧ p := by
  cases x with
  | error e => simp [bind, Except.bind]
  | ok a => simp only [ok_bind, hf, ok.injEq, exists_eq', true_and]

/-- Leaving out the errors, steps are taken one after the other. -/
theorem toOption_bind (x : Except ε α) (f : α → Except ε β) :
    (x >>= f).toOption = x.toOption.bind fun a => (f a).toOption := by
  cases x <;> rfl

theorem pure_eq_ok_iff {a b : α} : (pure a : Except ε α) = .ok b ↔ a = b := by
  simp [pure, Except.pure]

/-- The results of a list of steps, each of which comes from its own step. -/
theorem mapM_eq_ok_iff {f : α → Except ε β} {xs : List α} {ys : List β} :
    xs.mapM f = .ok ys ↔ List.Forall₂ (fun x y => f x = .ok y) xs ys := by
  induction xs generalizing ys with
  | nil => rw [List.mapM_nil, pure_eq_ok_iff, List.forall₂_nil_left_iff, eq_comm]
  | cons x xs ih =>
    simp only [List.mapM_cons, bind_eq_ok_iff, pure_eq_ok_iff, ih, List.forall₂_cons_left_iff]
    constructor
    · rintro ⟨y, hy, ys, hys, rfl⟩
      exact ⟨y, ys, hy, hys, rfl⟩
    · rintro ⟨y, ys, hy, hys, rfl⟩
      exact ⟨y, hy, ys, hys, rfl⟩

/-- Steps that agree on every element agree as a whole. -/
theorem mapM_congr {f g : α → Except ε β} {xs : List α} (h : ∀ x ∈ xs, f x = g x) : xs.mapM f = xs.mapM g := by
  induction xs with
  | nil => rfl
  | cons x xs ih =>
    obtain ⟨hx, hxs⟩ := List.forall_mem_cons.1 h
    rw [List.mapM_cons, List.mapM_cons, hx, ih hxs]

/-- Steps that all succeed succeed together. -/
theorem exists_mapM_eq_ok {f : α → Except ε β} {xs : List α} (h : ∀ x ∈ xs, ∃ y, f x = .ok y) :
    ∃ ys, xs.mapM f = .ok ys := by
  induction xs with
  | nil => exact ⟨[], rfl⟩
  | cons x xs ih =>
    obtain ⟨y, hy⟩ := h x List.mem_cons_self
    obtain ⟨ys, hys⟩ := ih fun x hx => h x (List.mem_cons_of_mem _ hx)
    exact ⟨y :: ys, by simp [List.mapM_cons, hy, hys, bind, Except.bind, pure, Except.pure]⟩

/-- Every step has a result among those of all. -/
theorem exists_mem_of_mapM {f : α → Except ε β} {xs : List α} {ys : List β} (h : xs.mapM f = .ok ys) :
    ∀ x ∈ xs, ∃ y ∈ ys, f x = .ok y := by
  rw [mapM_eq_ok_iff] at h
  induction h with
  | nil => simp
  | @cons x y xs ys hxy _ ih =>
    refine List.forall_mem_cons.2 ⟨⟨y, List.mem_cons_self, hxy⟩, fun x hx => ?_⟩
    obtain ⟨y, hy, hxy⟩ := ih x hx
    exact ⟨y, List.mem_cons_of_mem _ hy, hxy⟩

/-- A list of steps gives results exactly if each of them does. -/
theorem exists_mapM_eq_ok_iff {f : α → Except ε β} {xs : List α} :
    (∃ ys, xs.mapM f = .ok ys) ↔ ∀ x ∈ xs, ∃ y, f x = .ok y := by
  refine ⟨fun ⟨ys, hys⟩ x hx => ?_, exists_mapM_eq_ok⟩
  obtain ⟨y, -, hxy⟩ := exists_mem_of_mapM hys x hx
  exact ⟨y, hxy⟩

/-- Every result is that of some step. -/
theorem exists_of_mem_mapM {f : α → Except ε β} {xs : List α} {ys : List β} (h : xs.mapM f = .ok ys) {y : β}
    (hy : y ∈ ys) : ∃ x ∈ xs, f x = .ok y := by
  rw [mapM_eq_ok_iff] at h
  induction h with
  | nil => cases hy
  | cons hxy _ ih =>
    rcases List.mem_cons.1 hy with rfl | hy
    · exact ⟨_, List.mem_cons_self, hxy⟩
    · obtain ⟨x, hx, hxy⟩ := ih hy
      exact ⟨x, List.mem_cons_of_mem _ hx, hxy⟩

/-- What holds of the one end of each step exactly if it holds of the other, holds of all at once. -/
theorem forall_mem_iff_of_mapM_eq_ok {f : α → Except ε β} {xs : List α} {ys : List β} {P : α → Prop} {Q : β → Prop}
    (h : xs.mapM f = .ok ys) (hf : ∀ x y, f x = .ok y → (P x ↔ Q y)) : (∀ x ∈ xs, P x) ↔ ∀ y ∈ ys, Q y := by
  rw [mapM_eq_ok_iff] at h
  induction h with
  | nil => simp
  | cons hxy _ ih => rw [List.forall_mem_cons, List.forall_mem_cons, hf _ _ hxy, ih]

/-- What each step keeps, the list of steps keeps in order. -/
theorem map_eq_of_mapM_eq_ok {γ : Type _} {f : α → Except ε β} {xs : List α} {ys : List β} {k : β → γ} {l : α → γ}
    (h : xs.mapM f = .ok ys) (hf : ∀ x y, f x = .ok y → k y = l x) : ys.map k = xs.map l := by
  rw [mapM_eq_ok_iff] at h
  induction h with
  | nil => rfl
  | cons hxy _ ih => rw [List.map_cons, List.map_cons, ih, hf _ _ hxy]

/-- Steps of which each has a known result. -/
theorem mapM_eq_ok_map {f : α → Except ε β} {g : α → β} {xs : List α} (h : ∀ x ∈ xs, f x = .ok (g x)) :
    xs.mapM f = .ok (xs.map g) := by
  rw [mapM_eq_ok_iff, List.forall₂_map_right_iff, List.forall₂_same]
  exact h

/-- Reading back what a list was written as, entry by entry. -/
theorem mapM_map_eq_ok {γ : Type _} {f : β → Except ε γ} {write : α → β} {g : α → γ} {xs : List α}
    (h : ∀ x ∈ xs, f (write x) = .ok (g x)) : (xs.map write).mapM f = .ok (xs.map g) := by
  rw [List.mapM_map]
  exact mapM_eq_ok_map h

/-! ## Errors of one kind -/

/-- An error that the step ends with is of a kind. -/
def FailsOnlyWith (P : ε → Prop) (x : Except ε α) : Prop := ∀ e, x = .error e → P e

namespace FailsOnlyWith

variable {P : ε → Prop}

theorem ok (a : α) : FailsOnlyWith P (.ok a : Except ε α) := fun _ h => by cases h

theorem error {e : ε} (h : P e) : FailsOnlyWith P (.error e : Except ε α) := fun _ he => by
  cases he
  exact h

/-- Two steps fail only with what both may fail with. -/
theorem bind {x : Except ε α} {f : α → Except ε β} (hx : FailsOnlyWith P x) (hf : ∀ a, FailsOnlyWith P (f a)) :
    FailsOnlyWith P (x >>= f) := by
  cases x with
  | ok a => exact hf a
  | error e =>
    intro e' he
    cases he
    exact hx e rfl

theorem map {x : Except ε α} (hx : FailsOnlyWith P x) (f : α → β) : FailsOnlyWith P (x.map f) := by
  cases x with
  | ok a => exact ok (f a)
  | error e => exact error (hx e rfl)

/-- A list of steps fails only with what each may fail with. -/
theorem mapM {f : α → Except ε β} (xs : List α) (hf : ∀ x, FailsOnlyWith P (f x)) : FailsOnlyWith P (xs.mapM f) := by
  induction xs with
  | nil => exact ok []
  | cons x xs ih =>
    rw [List.mapM_cons]
    exact (hf x).bind fun y => ih.bind fun ys => ok (y :: ys)

end FailsOnlyWith

/-! ## The first error decides -/

/-- The computation ends with the first of these errors; without any it succeeds. -/
def EndsWithFirst (errors : List ε) (x : Except ε α) : Prop :=
  match errors with
  | [] => ∃ a, x = .ok a
  | e :: _ => x = .error e

namespace EndsWithFirst

variable {errors later : List ε} {x : Except ε α}

theorem ok (a : α) : EndsWithFirst [] (.ok a : Except ε α) := ⟨a, rfl⟩

theorem error (e : ε) : EndsWithFirst [e] (.error e : Except ε α) := rfl

/-- There is a result exactly if there are no errors. -/
theorem exists_ok_iff (h : EndsWithFirst errors x) : (∃ a, x = .ok a) ↔ errors = [] := by
  cases errors with
  | nil => exact iff_of_true h rfl
  | cons e errors =>
    have hx : x = .error e := h
    exact iff_of_false (by simp [hx]) (List.cons_ne_nil e errors)

/-- What it fails with is the first of the errors. -/
theorem eq_error_iff (h : EndsWithFirst errors x) {e : ε} : x = .error e ↔ errors.head? = some e := by
  cases errors with
  | nil =>
    obtain ⟨a, rfl⟩ : ∃ a, x = .ok a := h
    exact iff_of_false nofun nofun
  | cons e' errors =>
    have hx : x = .error e' := h
    rw [hx, List.head?_cons, error.injEq, Option.some.injEq]

/-- The errors of a step come before those of the step after it. -/
theorem bind {f : α → Except ε β} (hx : EndsWithFirst errors x) (hf : ∀ a, EndsWithFirst later (f a)) :
    EndsWithFirst (errors ++ later) (x >>= f) := by
  cases errors with
  | nil =>
    obtain ⟨a, rfl⟩ : ∃ a, x = .ok a := hx
    exact hf a
  | cons e errors =>
    have hx : x = .error e := hx
    rw [hx]
    exact rfl

theorem map (hx : EndsWithFirst errors x) (f : α → β) : EndsWithFirst errors (x.map f) := by
  cases errors with
  | nil =>
    obtain ⟨a, rfl⟩ : ∃ a, x = .ok a := hx
    exact ok (f a)
  | cons e errors =>
    have hx : x = .error e := hx
    rw [hx]
    exact rfl

theorem mapM {f : α → Except ε β} {errors : α → List ε} (xs : List α)
    (hf : ∀ x, EndsWithFirst (errors x) (f x)) : EndsWithFirst (xs.flatMap errors) (xs.mapM f) := by
  induction xs with
  | nil => exact ok []
  | cons x xs ih =>
    have hrest : ∀ y, EndsWithFirst (xs.flatMap errors) (xs.mapM f >>= fun ys => pure (y :: ys)) := by
      intro y
      have hlast := ih.bind fun ys => ok (y :: ys)
      rwa [List.append_nil] at hlast
    rw [List.mapM_cons, List.flatMap_cons]
    exact (hf x).bind hrest

end EndsWithFirst

/-! ## Two computations side by side -/

/-- Both end with the same error, or with results that are related. -/
inductive Related (R : α → β → Prop) : Except ε α → Except ε β → Prop where
  | ok {a : α} {b : β} (h : R a b) : Related R (.ok a) (.ok b)
  | error (e : ε) : Related R (.error e) (.error e)

/-- What goes on with related results in the same way ends in the same way. -/
theorem Related.bind_eq {γ : Type _} {R : α → β → Prop} {x : Except ε α} {y : Except ε β} (h : Related R x y)
    {f : α → Except ε γ} {g : β → Except ε γ} (hfg : ∀ a b, R a b → f a = g b) : x >>= f = y >>= g := by
  cases h with
  | ok h => exact hfg _ _ h
  | error e => rfl

end Except
