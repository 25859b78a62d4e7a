import Catwalk.Act
import Catwalk.Bytes

/-!
# Catalogue records

A record is a header of five words (load, exec, length, attributes, object type), the name's bytes,
a zero byte, and zero bytes up to a multiple of four. Records stand back to back in a buffer and
are parsed in place.
-/

namespace Catwalk

/-- The least multiple of four that is not below `n`. -/
def wordAlign (n : Int) : Int := (n + 3) / 4 * 4

/-- What kind of object a catalogue speaks of. -/
inductive ObjectType where
  | notFound
  | file
  | directory
  | image
deriving DecidableEq, Repr

namespace ObjectType

/-- The number that stands for a kind in a record. -/
def code : ObjectType → Nat
  | notFound => 0
  | file => 1
  | directory => 2
  | image => 3

/-- The kind that a number stands for. -/
def ofCode? : Nat → Option ObjectType
  | 0 => some notFound
  | 1 => some file
  | 2 => some directory
  | 3 => some image
  | _ => none

@[simp] theorem ofCode?_code (objectType : ObjectType) :
    ofCode? objectType.code = some objectType := by
  cases objectType <;> rfl

end ObjectType

/-- What a catalogue says about one object. -/
structure Entry where
  name : Text
  objectType : Int
  load : Int := 0
  exec : Int := 0
  length : Int := 0
  attributes : Int := 0
deriving DecidableEq, Repr

/-- The header of a record. -/
structure Header where
  load : Word
  exec : Word
  length : Word
  attributes : Word
  objectType : Word
deriving DecidableEq, Repr

/-- The bytes of a header. -/
def Header.bytes (header : Header) : Bytes :=
  header.load.bytes ++ header.exec.bytes ++ header.length.bytes ++ header.attributes.bytes ++
    header.objectType.bytes

@[simp] theorem Header.length_bytes (header : Header) : header.bytes.length = 20 := rfl

/-- What is written into a buffer from some offset on, and how the writing ends. Bytes may have
been written also when it fails. -/
structure Deposit (α : Type) where
  bytes : Bytes
  result : Except Fault α

namespace Deposit

/-- The buffer after a deposit at `offset`. -/
def into (deposit : Deposit α) (buffer : Bytes) (offset : Nat) : Bytes :=
  buffer.overwrite offset deposit.bytes

/-- A deposit of nothing. -/
def refuse (fault : Fault) : Deposit α := ⟨[], .error fault⟩

/-- A deposit with more bytes in front. -/
def after (bytes : Bytes) (deposit : Deposit α) : Deposit α :=
  { deposit with bytes := bytes ++ deposit.bytes }

end Deposit

namespace Record

/-- The length of a header, after which the name begins. -/
def nameOffset : Nat := 20

/-- The size of a record whose name has `nameLength` bytes. -/
def size (nameLength : Int) : Int := wordAlign (nameOffset + nameLength + 1)

/-- The size of a record in a buffer. -/
def extent (nameLength : Nat) : Nat := (nameOffset + nameLength + 4) / 4 * 4

theorem size_natCast (nameLength : Nat) : size nameLength = extent nameLength := by
  simp only [size, wordAlign, extent, nameOffset]
  omega

/-- A record has room for its header, its name and a zero byte. -/
theorem nameOffset_lt_extent (nameLength : Nat) : nameOffset + nameLength < extent nameLength := by
  simp only [extent, nameOffset]
  omega

theorem extent_mod_four (nameLength : Nat) : extent nameLength % 4 = 0 := by
  simp only [extent]
  omega

/-- The header at the start of some bytes. -/
def header? : Bytes → Option Header
  | a0 :: a1 :: a2 :: a3 :: b0 :: b1 :: b2 :: b3 :: c0 :: c1 :: c2 :: c3 ::
    d0 :: d1 :: d2 :: d3 :: e0 :: e1 :: e2 :: e3 :: _ =>
    some
      { load := Word.ofBytes a0 a1 a2 a3
        exec := Word.ofBytes b0 b1 b2 b3
        length := Word.ofBytes c0 c1 c2 c3
        attributes := Word.ofBytes d0 d1 d2 d3
        objectType := Word.ofBytes e0 e1 e2 e3 }
  | _ => none

/-- The header of the record at `offset`. -/
def header (buffer : Bytes) (offset : Nat) : Except Fault Header :=
  match header? (buffer.drop offset) with
  | some header => .ok header
  | none => .error .layout

/-- The length of the name of the record at `offset`. The name has to end in a zero byte, and the
whole record has to lie inside the buffer. -/
def nameLength (buffer : Bytes) (offset : Nat) : Except Fault Nat :=
  let start := offset + nameOffset
  if buffer.length < start then .error (.malformedRecord offset)
  else
    match (buffer.drop start).findIdx? (· == 0) with
    | none => .error (.malformedRecord offset)
    | some length =>
      if buffer.length < offset + extent length then .error (.malformedRecord offset)
      else .ok length

/-- The bytes of a name of known length in the record at `offset`. -/
def nameBytes (buffer : Bytes) (offset length : Nat) : Bytes :=
  buffer.slice (offset + nameOffset) length

/-- The name of known length in the record at `offset`. -/
def name (buffer : Bytes) (offset length : Nat) : Text :=
  Text.decode (nameBytes buffer offset length)

/-- Checks that `count` records stand back to back from `offset` on. -/
def check (buffer : Bytes) : Nat → Nat → Except Fault Unit
  | 0, _ => .ok ()
  | count + 1, offset => do
    let length ← nameLength buffer offset
    check buffer count (offset + extent length)

end Record

namespace Entry

/-- The stored form of the entry's name. -/
def storedName (entry : Entry) : Except Fault Bytes :=
  match Text.encode? entry.name with
  | some raw => .ok raw
  | none => .error .unencodable

/-- The size of the entry's record. -/
def size (entry : Entry) : Except Fault Nat := do
  return Record.extent (← entry.storedName).length

/-- The header of the entry's record, every field modulo the size of a word. -/
def header (entry : Entry) : Header :=
  { load := Word.ofInt entry.load
    exec := Word.ofInt entry.exec
    length := Word.ofInt entry.length
    attributes := Word.ofInt entry.attributes
    objectType := Word.ofInt entry.objectType }

/-- The entry's record, which has `raw` as its name. An object type that is not a word is found out
when the words before it stand, and leaves zeros in its own place. -/
def record (entry : Entry) (raw : Bytes) : Deposit Unit :=
  if 0 ≤ entry.objectType ∧ entry.objectType < 0x100000000 then
    { bytes := entry.header.bytes ++ raw ++
        Bytes.zeros (Record.extent raw.length - Record.nameOffset - raw.length)
      result := .ok () }
  else { bytes := { entry.header with objectType := 0 }.bytes, result := .error .layout }

/-- The entry's record in a room of `room` bytes; the result is the record's size. -/
def deposit (entry : Entry) (room : Int) : Deposit Nat :=
  match entry.storedName with
  | .error fault => .refuse fault
  | .ok raw =>
    let size := Record.extent raw.length
    if room < size then .refuse (.overflow size room)
    else
      let record := entry.record raw
      ⟨record.bytes, record.result.map fun _ => size⟩

/-- Writes the entry's record at `offset`, and yields the buffer and where the next record goes. -/
def pack (entry : Entry) (buffer : Bytes) (offset : Nat) : Bytes × Except Fault Nat :=
  let deposit := entry.deposit ((buffer.length : Int) - offset)
  (deposit.into buffer offset, deposit.result.map (offset + ·))

end Entry

end Catwalk
