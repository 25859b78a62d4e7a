import Catwalk.Level.Basic
import Catwalk.World

/-!
# Refilling a level

A level on its last record is refilled: that record moves to the front of the buffer, and fresh
records are read behind it. Reads are repeated until at least one record arrives or the catalogue
ends; a read that overflows is repeated with a buffer of twice the size. A refill that fails leaves
the size of the buffer, the ledger, the cursor and the current record as they were.

A source may go on without end, so the number of reads is bounded by the caller's patience.
-/

namespace Catwalk

/-- What every read of a refill asks for. -/
structure Request where
  path : Text
  pattern : Option Text
  maxEntries : Int
deriving DecidableEq, Repr

namespace Level

/-- Where fresh records go: behind the current record once that is at the front. -/
def keep (level : Level) : Nat :=
  match level.current with
  | some place => Record.extent place.nameLength
  | none => 0

/-- The level with its current record at the front of the buffer. -/
def moveToFront (level : Level) : Level :=
  match level.current with
  | some place =>
    let length := Record.nameOffset + place.nameLength + 1
    { level with
      buffer := level.buffer.overwrite 0 (level.buffer.slice place.offset length)
      current := some { place with offset := 0 } }
  | none => level

/-- Reads once, from `cursor` on, into the buffer behind the records that are kept. -/
def ask (reader : Reader ρ) (request : Request) (cursor : Int) : Act (Level × World ρ) Batch :=
  fun (level, world) =>
    let (deposit, source) := reader.read
      { path := request.path
        buffer := level.buffer
        offset := level.keep
        cursor
        maxEntries := request.maxEntries
        pattern := request.pattern } world.source
    let state :=
      ({ level with buffer := deposit.into level.buffer level.keep }, { world with source })
    match deposit.result with
    | .ok batch => .ok batch state
    | .error fault => .error fault state

/-- Doubles the buffer of the level at hand. -/
def growInPlace : Act (Level × World ρ) Unit := do
  let (level, _) ← get
  let level ← Act.within Prod.snd (fun world state => (state.1, world)) (World.charging level.grow)
  modify fun state => (level, state.2)

/-- Reads until records arrive or the catalogue ends, with as much room as it takes. -/
def fetch (reader : Reader ρ) (request : Request) : Nat → Int → Act (Level × World ρ) Batch
  | 0, _ => throw .outOfPatience
  | patience + 1, cursor => do
    match ← (ask reader request cursor).outcome with
    | .ok batch =>
      if batch.count = 0 ∧ batch.next ≠ cursorEnd then fetch reader request patience batch.next
      else return batch
    | .error fault =>
      if fault.kind = .overflow then
        growInPlace
        fetch reader request patience cursor
      else throw fault

/-- Cuts the buffer back to `size` bytes. -/
def shrink (size : Nat) : Act (Level × World ρ) Unit :=
  modify fun (level, world) =>
    ({ level with buffer := level.buffer.take size },
      world.updateLedger (·.release ((level.buffer.length - size : Nat) : Int)))

/-- The level with a batch of fresh records taken in. -/
def accept (level : Level) (batch : Batch) : Except Fault Level :=
  match level.current, batch.count with
  | some place, count =>
    .ok
      { level with
        cursor := batch.next
        current := some { place with later := place.later + count } }
  | none, 0 => .ok { level with cursor := batch.next }
  | none, later + 1 => do
    let nameLength ← Record.nameLength level.buffer 0
    return { level with cursor := batch.next, current := some ⟨0, nameLength, later⟩ }

/-- Reads fresh records behind the current one, and yields their number. -/
def refill (reader : Reader ρ) (patience : Nat) (request : Request) :
    Act (Level × World ρ) Nat := do
  let (level, _) ← get
  if level.isExhausted then throw .levelAtEnd
  if 1 < level.remaining then throw .levelNotLast
  let level := level.moveToFront
  modify fun state => (level, state.2)
  let batch ← Act.onFault
    (do
      let batch ← fetch reader request patience level.cursor
      let (fetched, _) ← get
      Act.ofExcept (Record.check fetched.buffer batch.count level.keep)
      return batch)
    (shrink level.buffer.length)
  let (fetched, _) ← get
  let accepted ← Act.ofExcept (fetched.accept batch)
  modify fun state => (accepted, state.2)
  return batch.count

/-- A level for a directory, read for the first time; none if the directory is empty. Nothing stays
charged for a level that is not made. -/
def enter? (reader : Reader ρ) (patience : Nat) (request : Request) (pathLength : Nat)
    (size : Nat) : Act (World ρ) (Option Level) := do
  let level ← World.charging (allocate pathLength size)
  fun world =>
    match refill reader patience request (level, world) with
    | .ok _ (level, world) =>
      if level.remaining = 0 then .ok none (world.updateLedger level.release)
      else .ok (some level) world
    | .error fault (level, world) => .error fault (world.updateLedger level.release)

end Level

end Catwalk
