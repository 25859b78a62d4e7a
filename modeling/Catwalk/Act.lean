import Catwalk.Fault

/-!
# Acts

An act works on a state and yields a value or a fault, and leaves a state in either case: what a
failed act has already done stays done. An act that takes back its own effects says so itself.
-/

namespace Catwalk

/-- An act on a state `σ`. -/
abbrev Act (σ α : Type) := EStateM Fault σ α

namespace Act

/-- An act on a part of the state. -/
def within (part : σ → τ) (update : τ → σ → σ) (act : Act τ α) : Act σ α := fun s =>
  match act (part s) with
  | .ok a t => .ok a (update t s)
  | .error fault t => .error fault (update t s)

/-- The value of a computation that touches no state. -/
def ofExcept : Except Fault α → Act σ α
  | .ok a => pure a
  | .error fault => throw fault

/-- The outcome of an act as a value; the act's effects stay. -/
def outcome (act : Act σ α) : Act σ (Except Fault α) := fun s =>
  match act s with
  | .ok a s => .ok (.ok a) s
  | .error fault s => .ok (.error fault) s

/-- Follows a fault of `act` by `cleanup`, and passes the fault on. -/
def onFault (act : Act σ α) (cleanup : Act σ Unit) : Act σ α := fun s =>
  match act s with
  | .ok a s => .ok a s
  | .error fault s =>
    match cleanup s with
    | .ok _ s => .error fault s
    | .error second s => .error second s

theorem outcome_of_ok {act : Act σ α} {s t : σ} {a : α} (run : act s = .ok a t) :
    act.outcome s = .ok (.ok a) t := by
  simp only [outcome, run]

theorem outcome_of_error {act : Act σ α} {s t : σ} {fault : Fault} (run : act s = .error fault t) :
    act.outcome s = .ok (.error fault) t := by
  simp only [outcome, run]

theorem onFault_of_ok {act : Act σ α} {cleanup : Act σ Unit} {s t : σ} {a : α}
    (run : act s = .ok a t) : act.onFault cleanup s = .ok a t := by
  simp only [onFault, run]

/-- An act whose cleanup succeeds fails with its own fault, in the state after the cleanup. -/
theorem onFault_of_error {act : Act σ α} {cleanup : Act σ Unit} {s t u : σ} {fault : Fault}
    (run : act s = .error fault t) (cleaned : cleanup t = .ok () u) :
    act.onFault cleanup s = .error fault u := by
  simp only [onFault, run, cleaned]

end Act

end Catwalk
