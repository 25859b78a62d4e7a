import Catwalk.Text.Quoted
import Catwalk.Walk.Run

/-!
# What a walk shows

The names and the information of the object that a walk shows. Names are put together from stored
bytes, and can be copied into a buffer of the caller's.
-/

namespace Catwalk

/-- What callers are told about an object. -/
structure Information where
  dateStamp : Bytes
  length : Nat
  attributes : Nat
  fileType : Nat
deriving DecidableEq, Repr

/-- The three names of an object. -/
inductive NameKind where
  /-- The whole path. -/
  | path
  /-- The path below the root. -/
  | subPath
  /-- The last element. -/
  | leaf
deriving DecidableEq, Repr

namespace Position

/-- The information about an object. Directories and images have no length, and are told apart by
the mark of an application at the start of their names. -/
def information (position : Position) : Information :=
  let header := position.header
  let isFolder := header.objectType.val = ObjectType.directory.code ∨
    header.objectType.val = ObjectType.image.code
  { dateStamp := Stamp.bytes header.load.val header.exec.val
    length := if isFolder then 0 else header.length.val
    attributes := header.attributes.val
    fileType :=
      if isFolder then
        if (Text.decode position.storedName).head? = some 0x21 then Stamp.typeApplication
        else Stamp.typeDirectory
      else Stamp.fileType header.load.val }

/-- The kind of an object, if its record holds the number of one. -/
def objectType (position : Position) : Except Fault ObjectType :=
  match ObjectType.ofCode? position.header.objectType.val with
  | some objectType => .ok objectType
  | none => .error (.badObjectType position.header.objectType.val)

end Position

/-- The number of bytes that a copy of a name may take. Without a size the whole buffer may be used;
a size beyond the buffer is refused. -/
def copyRoom (buffer : Option Bytes) (size : Option Int) : Except Fault Nat :=
  let whole := (buffer.map List.length).getD 0
  let size := size.getD whole
  if 0 < size ∧ (buffer.isNone ∨ whole < size) then .error (.smallBuffer size) else .ok size.toNat

/-- The buffer with a name at its start, cut so that a zero byte after it stays within the room. -/
def copyInto (buffer : Bytes) (room : Nat) (name : Bytes) : Bytes :=
  if room = 0 then buffer else buffer.overwrite 0 (name.take (room - 1) ++ [0])

namespace Walk

/-- How many code points of the directory's path a name leaves out; none at all for all of them. -/
def omitted (walk : Walk) : NameKind → Option Nat
  | .path => some 0
  | .subPath => some (walk.rootLength + 1)
  | .leaf => none

/-- The bytes of a name of the object shown. -/
def storedName (walk : Walk) (kind : NameKind) : Except Fault Bytes := do
  match ← walk.position with
  | none => return []
  | some position =>
    match walk.omitted kind with
    | some skip =>
      if skip < position.directory.length then
        match Text.encode? (position.directory.drop skip ++ walk.settings.separator) with
        | some front => return front ++ position.storedName
        | none => throw .unencodable
      else return position.storedName
    | none => return position.storedName

/-- A name of the object shown. -/
def name (walk : Walk) (kind : NameKind) : Except Fault Text := do
  return Text.decode (← walk.storedName kind)

/-- Copies a name of the object shown into a buffer, as far as there is room, and yields the length
of the whole name. -/
def copyName (walk : Walk) (kind : NameKind) (buffer : Option Bytes) (size : Option Int) :
    Except Fault (Nat × Option Bytes) := do
  let room ← copyRoom buffer size
  let name ← walk.storedName kind
  return (name.length, buffer.map fun buffer => copyInto buffer room name)

/-- The information about the object shown, and its kind. -/
def information (walk : Walk) : Except Fault (Option Information × Except Fault ObjectType) := do
  match ← walk.position with
  | none => return (none, .ok .notFound)
  | some position => return (some position.information, position.objectType)

/-- The walk and the object it shows, on one line. -/
def summary (walk : Walk) : Except Fault Text := do
  let state ←
    if walk.closed then pure (Text.ofString "closed")
    else if walk.isEmpty then pure (Text.ofString "empty")
    else pure (Text.quoted (← walk.name .path))
  return Text.ofString "<DirIterator " ++ state ++ Text.ofString ">"

end Walk

end Catwalk
