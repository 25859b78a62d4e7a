import Catwalk.Text.Basic

/-!
# Faults

Every way in which an operation can fail, by its cause. `Fault.kind` sorts the causes into the
classes that callers tell apart, and `Fault.message` words them; a cause that callers only ever
tell by its class has no wording.
-/

namespace Catwalk

/-- Why an operation failed. -/
inductive Fault where
  /-- The ledger refused a reservation. -/
  | outOfMemory (requested available : Nat)
  | negativeLimit (limit : Int)
  | negativeCountdown (n : Int)
  /-- The body of a reservation gave up, having seen this many bytes in use. -/
  | abandoned (used : Nat)
  /-- A buffer of this size cannot be made. -/
  | negativeSize
  | truncation (length : Nat) (target : Int)
  | restoration (length capacity : Nat)
  /-- A record does not fit behind the offset it is meant for. -/
  | overflow (needed available : Int)
  | malformedRecord (offset : Nat)
  /-- A header lies outside its buffer, or a field outside its word. -/
  | layout
  /-- A name holds a surrogate that stands for no byte. -/
  | unencodable
  | badCursor (cursor : Int)
  | badFileType (fileType : Int)
  | badStampLength (length : Nat)
  /-- A time outside the years 1 to 9999. -/
  | badYear
  | badNodeLimit (limit : Int)
  | hostFull (count limit : Nat)
  | badLength (length : Int)
  | badOffset (offset : Int) (path : Text)
  | nulInName (path : Text)
  | noObject (path : Text)
  | noFile (path : Text)
  | noDirectory (path : Text)
  | noParent (parent : Text)
  | directoryExists (path : Text)
  | fileExists (path : Text)
  | fileAtPath (path : Text)
  | fileOnPath (element : Text)
  | isDirectory (path : Text)
  | notDirectory (path : Text)
  | rootRemoval
  /-- A spelling of the root that names no child of any directory. -/
  | rootUnlinked
  | noListing (path : Text)
  | scriptExhausted
  | scriptedFailure (number : Int)
  | discError
  | levelAtEnd
  | levelNotLast
  | noEntry
  /-- An index outside a stack of levels. -/
  | badIndex
  | badFlags (flags : Int)
  | badBufferSize (size : Int)
  | badMaxEntries (maxEntries : Int)
  | badObjectType (objectType : Nat)
  | closed
  | smallBuffer (size : Int)
  | noWalk
  /-- A loop ran for as many rounds as it was given without an end in sight. -/
  | outOfPatience
deriving DecidableEq, Repr

namespace Fault

/-- The classes of faults that callers tell apart. -/
inductive Kind where
  | memory
  | value
  | abandoned
  | overflow
  | device
  | layout
  | encoding
  | notFound
  | alreadyExists
  | isDirectory
  | notDirectory
  | key
  | lookup
  | index
  | patience
deriving DecidableEq, Repr

/-- The class of a fault. -/
def kind : Fault → Kind
  | outOfMemory .. => .memory
  | abandoned .. => .abandoned
  | overflow .. => .overflow
  | malformedRecord .. | hostFull .. | scriptExhausted | scriptedFailure .. | discError => .device
  | layout => .layout
  | unencodable => .encoding
  | noObject .. | noFile .. | noDirectory .. | noParent .. | noListing .. => .notFound
  | directoryExists .. | fileExists .. | fileAtPath .. | fileOnPath .. => .alreadyExists
  | isDirectory .. => .isDirectory
  | notDirectory .. => .notDirectory
  | rootUnlinked => .key
  | noEntry | noWalk => .lookup
  | badIndex => .index
  | outOfPatience => .patience
  | negativeLimit .. | negativeCountdown .. | negativeSize | truncation .. | restoration ..
  | badCursor .. | badFileType .. | badStampLength .. | badYear | badNodeLimit .. | badLength ..
  | badOffset .. | nulInName .. | rootRemoval | levelAtEnd | levelNotLast | badFlags ..
  | badBufferSize .. | badMaxEntries .. | badObjectType .. | closed | smallBuffer .. => .value

/-- The error number of a fault that a device reports. -/
def number? : Fault → Option Int
  | overflow .. => some 484
  | malformedRecord .. | scriptExhausted | discError => some 5
  | hostFull .. => some 28
  | scriptedFailure number => some number
  | _ => none

open Text in
/-- The wording of a fault's cause, without its error number. -/
private def wording? : Fault → Option Text
  | outOfMemory requested available =>
    some ("Not enough memory: requested " ++ ofNat requested ++ " bytes, only " ++
      ofNat available ++ " bytes available.")
  | negativeLimit limit =>
    some ("Invalid limit: " ++ ofInt limit ++ ". Expected None or >= 0.")
  | negativeCountdown n => some ("Invalid failure index: " ++ ofInt n ++ ". Expected >= 0.")
  | abandoned used => some ("used " ++ ofNat used)
  | negativeSize => some "negative count"
  | truncation length target =>
    some ("Cannot truncate path of length " ++ ofNat length ++ " to " ++ ofInt target)
  | restoration length capacity =>
    some ("Cannot restore a path of length " ++ ofNat length ++ " into capacity " ++
      ofNat capacity)
  | overflow needed available =>
    some ("Buffer overflow: entry needs " ++ ofInt needed ++ " bytes, only " ++
      ofInt available ++ " bytes available.")
  | malformedRecord offset => some ("Malformed catalogue entry at offset " ++ ofNat offset)
  | layout | unencodable | badYear | rootUnlinked | badIndex => none
  | badCursor cursor => some ("Cannot read from cursor " ++ ofInt cursor ++ ".")
  | badFileType fileType =>
    some ("Invalid file type: " ++ ofInt fileType ++ ". Expected 0..0xFFF.")
  | badStampLength length =>
    some ("Date stamp must be 5 bytes, got " ++ ofNat length ++ ".")
  | badNodeLimit limit =>
    some ("Invalid max_nodes value: " ++ ofInt limit ++ ". Expected None or >= 1.")
  | hostFull count limit =>
    some ("Host node limit exceeded: current " ++ ofNat count ++ " nodes, limit is " ++
      ofNat limit ++ ".")
  | badLength length => some ("Invalid length: " ++ ofInt length)
  | badOffset offset path =>
    some ("Offset " ++ ofInt offset ++ " is outside path '" ++ path ++ "'")
  | nulInName path => some ("Object name contains a NUL character: '" ++ path ++ "'")
  | noObject path => some ("No such file or directory: '" ++ path ++ "'")
  | noFile path => some ("No such file: '" ++ path ++ "'")
  | noDirectory path => some ("No such directory: '" ++ path ++ "'")
  | noParent parent => some ("Parent directory does not exist: '" ++ parent ++ "'")
  | directoryExists path => some ("Directory exists: '" ++ path ++ "'")
  | fileExists path => some ("File exists: '" ++ path ++ "'")
  | fileAtPath path => some ("File exists at path: '" ++ path ++ "'")
  | fileOnPath element => some ("A file exists at path component: '" ++ element ++ "'")
  | isDirectory path => some ("Is a directory: '" ++ path ++ "'")
  | notDirectory path => some ("Not a directory: '" ++ path ++ "'")
  | rootRemoval => some "Cannot remove the root directory."
  | noListing path => some ("No listing: '" ++ path ++ "'")
  | scriptExhausted => some "Script exhausted"
  | scriptedFailure _ => some "Scripted failure"
  | discError => some "Disc error"
  | levelAtEnd => some "Directory level has already been read to the end."
  | levelNotLast => some "Only a level on its last entry can be refilled."
  | noEntry => some "Directory level has no current entry."
  | badFlags flags =>
    some ("Invalid flags value: " ++ (if flags < 0 then ofString "-0x" else ofString "0x") ++
      ofHex 1 flags.natAbs ++ ".")
  | badBufferSize size =>
    some ("Invalid buffer_size value: " ++ ofInt size ++ ". Expected >= 24.")
  | badMaxEntries maxEntries =>
    some ("Invalid max_entries value: " ++ ofInt maxEntries ++ ". Expected >= 1.")
  | badObjectType objectType => some (ofNat objectType ++ " is not a valid ObjectType")
  | closed => some "Operation on closed iterator."
  | smallBuffer size => some ("Buffer too small for size " ++ ofInt size)
  | noWalk => some "no such iterator"
  | outOfPatience => some "No end in sight"

open Text in
/-- What a fault says; a device's fault says its error number first. -/
def message? (fault : Fault) : Option Text :=
  match fault.number?, fault.wording? with
  | some number, some text => some ("[Errno " ++ ofInt number ++ "] " ++ text)
  | _, wording => wording

end Fault

end Catwalk
