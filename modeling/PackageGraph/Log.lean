import PackageGraph.Error
/-!
# Log records

Operations return what they log beside their result, in the order in which it was logged, and keep it when they
end with an error.
-/
namespace PackageGraph

/-- How serious a record is. -/
inductive Severity where
  | notSet
  | debug
  | info
  | warning
  | error
  | critical
  deriving DecidableEq, Repr

namespace Severity

/-- The rank of the severity. -/
def rank : Severity → Nat
  | .notSet => 0
  | .debug => 10
  | .info => 20
  | .warning => 30
  | .error => 40
  | .critical => 50

/-- The written name. -/
def name : Severity → String
  | .notSet => "NOTSET"
  | .debug => "DEBUG"
  | .info => "INFO"
  | .warning => "WARNING"
  | .error => "ERROR"
  | .critical => "CRITICAL"

/-- Whether a record of this severity is kept when the threshold is `threshold`. -/
def passes (threshold s : Severity) : Bool := threshold.rank ≤ s.rank

end Severity

/-- A structured detail of a record. -/
inductive LogDetail where
  | text (s : String)
  | count (n : Nat)
  | flag (b : Bool)
  deriving DecidableEq

/-- A log record. -/
structure LogRecord where
  severity : Severity
  /-- The part of the program that the record comes from. -/
  source : String
  message : Message
  details : List (String × LogDetail)
  deriving DecidableEq

namespace LogRecord

/-- A record for tracing. -/
def debug (source : String) (message : Message) (details : List (String × LogDetail)) : LogRecord :=
  ⟨.debug, source, message, details⟩

/-- A record of something that was done. -/
def info (source : String) (message : Message) : LogRecord := ⟨.info, source, message, []⟩

/-- A record of something that was passed over. -/
def warning (source : String) (message : Message) : LogRecord := ⟨.warning, source, message, []⟩

/-- A record of an error that ended the program. -/
def error (source : String) (message : Message) : LogRecord := ⟨.error, source, message, []⟩

end LogRecord

/-- A computation that logs and may end with an error: its result, and what it logged. -/
@[ext] structure Logged (α : Type) where
  result : Except Error α
  records : List LogRecord

namespace Logged

variable {α β : Type}

/-- A computation that logs nothing. -/
def ofExcept (x : Except Error α) : Logged α := ⟨x, []⟩

/-- Goes on with the result of a computation. What it logs comes after what was logged before, on which nothing
depends. -/
def andThen (x : Logged α) (f : α → Logged β) : Logged β :=
  match x.result with
  | .error e => ⟨.error e, x.records⟩
  | .ok a =>
    let y := f a
    ⟨y.result, x.records ++ y.records⟩

instance : Monad Logged where
  pure a := ofExcept (.ok a)
  bind := andThen

/-- Goes on with another computation after an error. -/
def orElse (x : Logged α) (f : Error → Logged α) : Logged α :=
  match x.result with
  | .error e =>
    let y := f e
    ⟨y.result, x.records ++ y.records⟩
  | .ok _ => x

instance : MonadExcept Error Logged where
  throw e := ofExcept (.error e)
  tryCatch := orElse

/-- Logs a record. -/
def log (r : LogRecord) : Logged Unit := ⟨.ok (), [r]⟩

/-- Logs records. -/
def logAll (rs : List LogRecord) : Logged Unit := ⟨.ok (), rs⟩

/-- The outcome together with what was logged. -/
def outcome (x : Logged α) : Except Error α × List LogRecord := (x.result, x.records)

/-! ## What a computation results in -/

@[simp] theorem result_pure (a : α) : (pure a : Logged α).result = .ok a := rfl

@[simp] theorem result_ofExcept (x : Except Error α) : (ofExcept x).result = x := rfl

@[simp] theorem result_logAll (rs : List LogRecord) : (logAll rs).result = .ok () := rfl

@[simp] theorem result_bind (x : Logged α) (f : α → Logged β) :
    (x >>= f).result = x.result >>= fun a => (f a).result := by
  show (x.andThen f).result = _
  unfold andThen
  cases x.result <;> rfl

/-- A value without a log goes on as it is. -/
theorem pure_andThen (a : α) (f : α → Logged β) : (ofExcept (.ok a)).andThen f = f a := by
  simp [andThen, ofExcept]

theorem andThen_pure (x : Logged α) : x.andThen (fun a => ofExcept (.ok a)) = x := by
  rcases x with ⟨_ | a, rs⟩ <;> simp [andThen, ofExcept]

/-- What is logged in three steps is logged in order, however the steps are grouped. -/
theorem andThen_assoc {γ : Type} (x : Logged α) (f : α → Logged β) (g : β → Logged γ) :
    (x.andThen f).andThen g = x.andThen fun a => (f a).andThen g := by
  rcases x with ⟨_ | a, rs⟩
  · rfl
  · simp only [andThen]
    rcases f a with ⟨_ | b, more⟩ <;> simp

instance : LawfulMonad Logged := LawfulMonad.mk' Logged andThen_pure pure_andThen andThen_assoc

/-- Whether a list of computations succeeds, and in what, does not depend on what they log. -/
theorem result_mapM (f : α → Logged β) (xs : List α) : (xs.mapM f).result = xs.mapM fun x => (f x).result := by
  induction xs with
  | nil => rfl
  | cons x xs ih =>
    simp only [List.mapM_cons, result_bind, result_pure, ih]
    rfl

end Logged
end PackageGraph
