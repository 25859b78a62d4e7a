import Catwalk.Act

/-!
# The ledger

A ledger counts the bytes that are in use, up to a limit if it has one. A reservation is refused
when it would pass the limit, or when an armed countdown has run out: armed with `n`, the ledger
lets `n` reservations be judged by the limit and refuses the one after them, once. Sizes of zero
and less ask for nothing and change nothing.
-/

namespace Catwalk

/-- A count of bytes in use. -/
structure Ledger where
  limit : Option Nat
  used : Nat
  /-- How many reservations have been granted. -/
  allocations : Nat
  /-- How many reservations the ledger judges before it refuses one. -/
  countdown : Option Nat
deriving DecidableEq, Repr

namespace Ledger

/-- An empty ledger with room for `limit` bytes, or without end. -/
def ofLimit? : Option Int → Except Fault Ledger
  | none => .ok ⟨none, 0, 0, none⟩
  | some limit =>
    if limit < 0 then .error (.negativeLimit limit) else .ok ⟨some limit.toNat, 0, 0, none⟩

/-- The bytes that are free, if there is a limit. -/
def free? (ledger : Ledger) : Option Nat := ledger.limit.map (· - ledger.used)

/-- Whether a refusal is pending. -/
def armed (ledger : Ledger) : Bool := ledger.countdown.isSome

/-- The refusal of a reservation. -/
def refusal (ledger : Ledger) (size : Int) : Fault :=
  .outOfMemory size.toNat (ledger.free?.getD 0)

/-- Whether a reservation passes the limit. -/
def exceeds (ledger : Ledger) (size : Int) : Bool :=
  match ledger.free? with
  | some free => free < size
  | none => false

/-- Puts `size` bytes to use, or refuses to. -/
def reserve (size : Int) : Act Ledger Unit := fun ledger =>
  if size ≤ 0 then .ok () ledger
  else
    match ledger.countdown with
    | some 0 => .error (ledger.refusal size) { ledger with countdown := none }
    | countdown =>
      let ledger := { ledger with countdown := countdown.map (· - 1) }
      if ledger.exceeds size then .error (ledger.refusal size) ledger
      else
        .ok ()
          { ledger with
            used := ledger.used + size.toNat
            allocations := ledger.allocations + 1 }

theorem reserve_of_nonpos {size : Int} (small : size ≤ 0) (ledger : Ledger) :
    reserve size ledger = .ok () ledger := by
  simp only [reserve, small, if_true]

/-- Takes back a reservation that was granted for something that then could not be made. -/
def refund (size : Int) (ledger : Ledger) : Ledger :=
  if size ≤ 0 then ledger
  else { ledger with used := ledger.used - size.toNat, allocations := ledger.allocations - 1 }

/-- Reserves `size` bytes for what `body` makes of the ledger; a body that fails is refunded. -/
def reserveFor (size : Int) (body : Ledger → Except Fault α) : Act Ledger α := do
  reserve size
  let ledger ← get
  match body ledger with
  | .ok a => pure a
  | .error fault => modify (refund size); throw fault

/-- Gives back `size` bytes, or all of them if fewer are in use. -/
def release (size : Int) (ledger : Ledger) : Ledger :=
  if size ≤ 0 then ledger else { ledger with used := ledger.used - size.toNat }

/-- Arms the countdown, in place of one that is running. -/
def arm (n : Int) : Act Ledger Unit := do
  if n < 0 then throw (.negativeCountdown n)
  modify fun ledger => { ledger with countdown := some n.toNat }

/-- Stops the countdown. -/
def disarm (ledger : Ledger) : Ledger := { ledger with countdown := none }

end Ledger

end Catwalk
