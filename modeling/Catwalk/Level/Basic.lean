import Catwalk.Ledger
import Catwalk.Reader

/-!
# Levels

A level is one directory on a walk's way: a buffer of catalogue records, the cursor behind the
entries that were read, and the place of the current record, which the other unvisited records
follow. Its memory is charged to a ledger: a header, and the buffer.
-/

namespace Catwalk

/-- The place of a record in a buffer, and how many records follow it. -/
structure Place where
  offset : Nat
  nameLength : Nat
  later : Nat
deriving DecidableEq, Repr

/-- One directory on a walk's way. -/
structure Level where
  /-- The length of the directory's path. -/
  pathLength : Nat
  buffer : Bytes
  /-- The cursor behind the entries that were read. -/
  cursor : Int
  /-- The current record, unless every record that was read has been visited. Its offset, the length
  of its name and the number of records left stand here together: none of them is without the
  others, so that a level with no record left has no current one. -/
  current : Option Place
deriving DecidableEq, Repr

namespace Level

/-- What a level is charged besides its buffer. -/
def headerSize : Nat := 32

/-- The bytes that a level is charged. -/
def charge (level : Level) : Nat := headerSize + level.buffer.length

/-- The number of records from the current one on. -/
def remaining (level : Level) : Nat :=
  match level.current with
  | some place => place.later + 1
  | none => 0

/-- Whether every entry has been read. -/
def isExhausted (level : Level) : Bool := level.cursor = cursorEnd

/-- A level at the start of its directory. -/
def allocate (pathLength : Nat) (size : Int) : Act Ledger Level :=
  Ledger.reserveFor (headerSize + size) fun _ =>
    if size < 0 then .error .negativeSize
    else .ok ⟨pathLength, Bytes.zeros size.toNat, cursorStart, none⟩

/-- Gives a level's memory back. -/
def release (level : Level) (ledger : Ledger) : Ledger := ledger.release level.charge

/-- What is left of a level whose memory was given back. -/
def emptied (level : Level) : Level := { level with buffer := [], current := none }

/-- The place of the current record. -/
def place (level : Level) : Except Fault Place :=
  match level.current with
  | some place => .ok place
  | none => .error .noEntry

/-- The header of the current record. -/
def header (level : Level) : Except Fault Header := do
  let place ← level.place
  Record.header level.buffer place.offset

/-- The number of the kind of the current object. -/
def objectType (level : Level) : Except Fault Word := do return (← level.header).objectType

/-- The name of the current object, as stored. -/
def storedName (level : Level) : Except Fault Bytes := do
  let place ← level.place
  return Record.nameBytes level.buffer place.offset place.nameLength

/-- The name of the current object. -/
def name (level : Level) : Except Fault Text := do
  let place ← level.place
  return Record.name level.buffer place.offset place.nameLength

/-- The level one record on. -/
def advance (level : Level) : Except Fault Level := do
  let place ← level.place
  match place.later with
  | 0 => return { level with current := none }
  | later + 1 =>
    let offset := place.offset + Record.extent place.nameLength
    let nameLength ← Record.nameLength level.buffer offset
    return { level with current := some ⟨offset, nameLength, later⟩ }

/-- The level with a buffer of twice the size. -/
def grow (level : Level) : Act Ledger Level := do
  Ledger.reserve level.buffer.length
  return { level with buffer := level.buffer ++ Bytes.zeros level.buffer.length }

end Level

end Catwalk
