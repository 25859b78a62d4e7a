import Catwalk.Level.Refill
import Catwalk.Level.Stack
import Catwalk.PathBuffer
import Catwalk.Stamp

/-!
# Walks

A walk visits the objects below a root directory depth first, each before what is below it. It
stands on the current record of its deepest level. Directories and images are entered as its
settings say; of the objects with names that fail its pattern none is shown. A walk that enters
directories reads them whole and passes over such objects itself, and any other leaves that to the
reader. When it fails on the way from one shown object to the next, it holds on to the first: that
is what it then shows.
-/

namespace Catwalk

/-- How a walk goes. -/
structure Settings where
  entersDirectories : Bool
  entersImages : Bool
  /-- The pattern that names have to match, unless all do. -/
  pattern : Option Text
  /-- The size of the buffer that a level starts with. -/
  bufferSize : Nat
  /-- The number of entries that one read may look at. -/
  maxEntries : Int
  /-- Stands between the elements of paths. -/
  separator : Text
deriving DecidableEq, Repr

/-- What a walk shows: an object's record and the path of its directory. -/
structure Position where
  directory : Text
  storedName : Bytes
  header : Header
deriving DecidableEq, Repr

/-- A walk on its way. -/
structure Walk where
  settings : Settings
  /-- The path of the deepest directory; its start is the root. -/
  path : PathBuffer
  rootLength : Nat
  levels : LevelStack
  /-- The object that is shown in place of the current record. -/
  held : Option Position
  closed : Bool
deriving DecidableEq, Repr

namespace Settings

/-- Whether the walk passes over objects by itself. -/
def filters (settings : Settings) : Bool :=
  (settings.entersDirectories || settings.entersImages) && settings.pattern.isSome

/-- The pattern that the reader is given. -/
def readPattern (settings : Settings) : Option Text :=
  if settings.filters then none else settings.pattern

/-- What reading a directory asks for. -/
def request (settings : Settings) (path : Text) : Request :=
  { path, pattern := settings.readPattern, maxEntries := settings.maxEntries }

/-- The bytes that are charged for the pattern. -/
def patternCharge (settings : Settings) : Nat :=
  match settings.pattern with
  | some pattern => pattern.length + 1
  | none => 0

/-- Whether an object is entered, by the number of its kind. -/
def enters (settings : Settings) (objectType : Word) : Bool :=
  if objectType.val = ObjectType.image.code then settings.entersImages
  else if objectType.val = ObjectType.directory.code then settings.entersDirectories
  else false

end Settings

namespace Walk

/-- Whether the walk shows nothing. -/
def isEmpty (walk : Walk) : Bool := walk.held.isNone && walk.levels.isEmpty

/-- The number of levels. -/
def depth (walk : Walk) : Nat := walk.levels.length

/-- The path of the root; a closed walk has none. -/
def rootPath (walk : Walk) : Text :=
  if walk.closed then [] else walk.path.text.take walk.rootLength

/-- The object of the current record. -/
def livePosition (walk : Walk) : Except Fault (Option Position) :=
  match walk.levels with
  | [] => .ok none
  | level :: _ => do
    return some
      { directory := walk.path.text.take level.pathLength
        storedName := ← level.storedName
        header := ← level.header }

/-- The object that the walk shows. -/
def position (walk : Walk) : Except Fault (Option Position) :=
  match walk.held with
  | some held => .ok (some held)
  | none => walk.livePosition

/-- The bytes that a walk is charged. -/
def charge (walk : Walk) : Nat :=
  walk.settings.patternCharge + walk.path.capacity +
    (walk.levels.map Level.charge).foldr (· + ·) 0

end Walk

end Catwalk
