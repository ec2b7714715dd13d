/-!
# Inquiries

A computation that asks for properties of a project, each question depending on the answers before it. The same
inquiry tells what it results in and which properties it asks for, in order, once the properties are given.
-/
namespace PackageGraph

/-- A computation that asks for properties. -/
inductive Inquiry (α : Type) where
  | done (a : α)
  | ask (property : String) (next : String → Inquiry α)

namespace Inquiry

variable {α β : Type}

/-- Goes on with the result of an inquiry. -/
def andThen : Inquiry α → (α → Inquiry β) → Inquiry β
  | done a, f => f a
  | ask property next, f => ask property fun value => (next value).andThen f

instance : Monad Inquiry where
  pure := done
  bind := andThen

/-- Asks for one property. -/
def property (name : String) : Inquiry String := ask name done

/-- The result of an inquiry into the properties `p`. -/
def run (p : String → String) : Inquiry α → α
  | done a => a
  | ask property next => (next (p property)).run p

/-- The properties that an inquiry into `p` asks for, in order. -/
def asked (p : String → String) : Inquiry α → List String
  | done _ => []
  | ask property next => property :: (next (p property)).asked p

@[simp] theorem run_pure (p : String → String) (a : α) : (pure a : Inquiry α).run p = a := rfl

@[simp] theorem run_property (p : String → String) (name : String) : (property name).run p = p name := rfl

@[simp] theorem run_bind (p : String → String) (x : Inquiry α) (f : α → Inquiry β) :
    (x >>= f).run p = (f (x.run p)).run p := by
  change (x.andThen f).run p = _
  induction x with
  | done a => rfl
  | ask property next ih => exact ih (p property)

@[simp] theorem asked_bind (p : String → String) (x : Inquiry α) (f : α → Inquiry β) :
    (x >>= f).asked p = x.asked p ++ (f (x.run p)).asked p := by
  change (x.andThen f).asked p = _
  induction x with
  | done a => rfl
  | ask property next ih => exact congrArg (property :: ·) (ih (p property))

end Inquiry
end PackageGraph
