import ScenarioScript.Diagnostic.Failure
import ScenarioScript.Files

/-!
# Load/Attempt — results that remember which files were tried

Reading a script may load others.  A **traced** result is an outcome together with the attempts to
load that were made on the way to it, in order; they are kept when the outcome is a failure.
-/

namespace ScenarioScript

/-- How an attempt to load a script came out. -/
inductive Attempt.Outcome where
  /-- The script is in the middle of being read, so no file was touched. -/
  | cycle
  | unreadable (reason : Unreadable)
  | read
  deriving DecidableEq, Repr

/-- An attempt to load a script: the scripts in the middle of being read, outermost first, the
statement that asked, the path it asked for, and how that came out. -/
structure Attempt where
  loading : List Path
  origin : Location
  target : Path
  outcome : Attempt.Outcome
  deriving DecidableEq

/-- Was a file touched? -/
def Attempt.touchesFile (a : Attempt) : Bool := a.outcome != .cycle

/-- An outcome and the attempts made on the way to it. -/
structure Traced (α : Type) where
  outcome : Except Failure α
  attempts : List Attempt := []

namespace Traced

variable {α β : Type}

/-- An outcome that took no attempt. -/
def ofExcept (outcome : Except Failure α) : Traced α := ⟨outcome, []⟩

/-- Note an attempt. -/
def note (attempt : Attempt) : Traced Unit := ⟨.ok (), [attempt]⟩

/-- One result after another: the attempts of both, or those of the first if it failed. -/
def andThen (first : Traced α) (next : α → Traced β) : Traced β :=
  match first.outcome with
  | .error failure => ⟨.error failure, first.attempts⟩
  | .ok a => ⟨(next a).outcome, first.attempts ++ (next a).attempts⟩

instance : Monad Traced where
  pure a := ⟨.ok a, []⟩
  bind := andThen

instance : MonadLift (Except Failure) Traced := ⟨ofExcept⟩

/-- The paths of the files that were touched, in order. -/
def reads (t : Traced α) : List Path := (t.attempts.filter (·.touchesFile)).map (·.target)

/-- A refusal of the statement that asked, after an attempt that came to nothing. -/
def refused (attempt : Attempt) (cause : Cause) : Traced α :=
  ⟨.error (.atPosition cause attempt.origin.line attempt.origin.column), [attempt]⟩

/-- Change the diagnostic of a failure that has one. -/
def mapFault (f : Diagnostic → Diagnostic) (t : Traced α) : Traced α :=
  { t with outcome := t.outcome.mapError (·.mapFault f) }

@[simp] theorem outcome_pure (a : α) : (pure a : Traced α).outcome = .ok a := rfl

@[simp] theorem attempts_pure (a : α) : (pure a : Traced α).attempts = [] := rfl

theorem bind_eq (first : Traced α) (next : α → Traced β) : first >>= next = first.andThen next :=
  rfl

/-- **A failure ends it**, and keeps the attempts made so far. -/
theorem andThen_of_error {first : Traced α} {failure : Failure} (h : first.outcome = .error failure)
    (next : α → Traced β) : first.andThen next = ⟨.error failure, first.attempts⟩ := by
  simp [andThen, h]

theorem andThen_of_ok {first : Traced α} {a : α} (h : first.outcome = .ok a)
    (next : α → Traced β) :
    first.andThen next = ⟨(next a).outcome, first.attempts ++ (next a).attempts⟩ := by
  simp [andThen, h]

theorem bind_pure_map (t : Traced α) : id <$> t = t := by
  obtain ⟨outcome, attempts⟩ := t
  cases outcome <;> simp [Functor.map, andThen]

theorem pure_andThen (a : α) (next : α → Traced β) : pure a >>= next = next a := by
  simp [bind, pure, andThen]

theorem andThen_assoc {γ : Type} (t : Traced α) (next : α → Traced β) (last : β → Traced γ) :
    t >>= next >>= last = t >>= fun a => next a >>= last := by
  obtain ⟨outcome, attempts⟩ := t
  cases outcome with
  | error failure => rfl
  | ok a =>
    simp only [bind, andThen]
    cases (next a).outcome <;> simp [List.append_assoc]

instance : LawfulMonad Traced := .mk' Traced bind_pure_map pure_andThen andThen_assoc

end Traced

end ScenarioScript
