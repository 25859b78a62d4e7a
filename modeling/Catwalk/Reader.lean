import Catwalk.Pattern
import Catwalk.Record

/-!
# Catalogue reads

A reader answers bulk reads of a directory's catalogue. It deposits the records of some entries,
from a cursor on, and says how many they are and which cursor comes next. Entries that fail the
pattern of the call count as read, so a reader may deposit nothing before the end. When not even
one entry fits it overflows, and is to be asked again with more room and the same cursor.

A reader can do nothing to a buffer but write from the offset of the call on, since its answer is a
`Deposit`. `fill` is the answer from a listing that is at hand.
-/

namespace Catwalk

/-- The cursor at the start of every catalogue. -/
def cursorStart : Int := 0

/-- The cursor behind the last entry of every catalogue. -/
def cursorEnd : Int := -1

/-- A bulk read. -/
structure ReadCall where
  path : Text
  buffer : Bytes
  offset : Nat
  cursor : Int
  maxEntries : Int
  pattern : Option Text
deriving DecidableEq, Repr

/-- How many records a read deposited, and the cursor behind their entries. -/
structure Batch where
  count : Nat
  next : Int
deriving DecidableEq, Repr

/-- A source of catalogues, with a state of type `ρ`. -/
structure Reader (ρ : Type) where
  /-- Stands between the elements of the source's paths. -/
  separator : Text
  read : ReadCall → ρ → Deposit Batch × ρ

namespace ReadCall

/-- The bytes from the offset to the end of the buffer, fewer than none if it is outside. -/
def room (call : ReadCall) : Int := (call.buffer.length : Int) - call.offset

/-- Deposits the records of the entries that match, until one does not fit. `index` is the first
entry's place in its listing, and `count` the number of records deposited before. -/
def gather (pattern : Option Text) : List Entry → Int → Nat → Nat → Deposit (Nat × Nat)
  | [], _, index, count => ⟨[], .ok (count, index)⟩
  | entry :: entries, room, index, count =>
    if Pattern.matchesName pattern entry.name then
      match entry.storedName with
      | .error fault => .refuse fault
      | .ok raw =>
        let size := Record.extent raw.length
        if room < size then
          if count = 0 then .refuse (.overflow size room) else ⟨[], .ok (count, index)⟩
        else
          let record := entry.record raw
          match record.result with
          | .error fault => ⟨record.bytes, .error fault⟩
          | .ok () =>
            (gather pattern entries (room - size) (index + 1) (count + 1)).after record.bytes
    else gather pattern entries room (index + 1) count

/-- Answers a call from a listing. The cursor is a place in the listing, and the batch that a call
looks at is the next `maxEntries` entries. -/
def fill (call : ReadCall) (listing : List Entry) : Deposit Batch :=
  if call.cursor < 0 then .refuse (.badCursor call.cursor)
  else
    let start := call.cursor.toNat
    let batch := (listing.drop start).take call.maxEntries.toNat
    let gathered := gather call.pattern batch call.room start 0
    { bytes := gathered.bytes
      result := gathered.result.map fun (count, index) =>
        { count, next := if listing.length ≤ index then cursorEnd else index } }

end ReadCall

end Catwalk
