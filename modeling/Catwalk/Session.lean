import Catwalk.Device
import Catwalk.Host.Plant
import Catwalk.Host.Survey
import Catwalk.Walk.Tour

/-!
# Sessions

A session holds a device, a ledger, and things that are charged to it: named walks, a path buffer, a
level and a stack of levels. Every operation is an act on the session; one that fails keeps what it
has done by then.
-/

namespace Catwalk

/-- A device, a ledger and what is charged to it. -/
structure Session where
  world : World Device
  now : Moment
  separator : Text
  buffer : PathBuffer
  level : Option Level
  stack : LevelStack
  walks : List (Text × Walk)

namespace Session

/-- The number of rounds that a loop may go: far more than any catalogue at hand has entries. -/
def patience : Nat := 1000000

/-- A session at its start. -/
def make? (limit maxNodes : Option Int) (source : Source) (separator : Text) (now : Moment) :
    Except Fault Session := do
  let ledger ← Ledger.ofLimit? limit
  let host ← Host.make? maxNodes now
  return {
    world := ⟨ledger, { host, source, countdown := none, calls := [] }⟩
    now, separator
    buffer := .empty
    level := none
    stack := []
    walks := [] }

/-- The reader of the session's device. -/
def reader (session : Session) : Reader Device := Device.reader session.separator

/-- An act on the session's world. -/
def onWorld (act : Act (World Device) α) : Act Session α :=
  Act.within Session.world (fun world session => { session with world }) act

/-- An act on the session's ledger. -/
def onLedger (act : Act Ledger α) : Act Session α := onWorld (World.charging act)

/-- An act on the session's device. -/
def onDevice (act : Act Device α) : Act Session α :=
  onWorld (Act.within World.source (fun source world => { world with source }) act)

/-- An act on the session's host. -/
def onHost (act : Act Host α) : Act Session α :=
  onDevice (Act.within Device.host (fun host device => { device with host }) act)

/-- The session's host. -/
def host (session : Session) : Host := session.world.source.host

/-- An answer of the session's host. -/
def askHost (question : Host → Except Fault α) : Act Session α := do
  Act.ofExcept (question (← get).host)

/-! ## The device and the ledger -/

/-- The calls to the device since they were last taken, the earliest first. -/
def takeCalls (session : Session) : List ReadCall × Session :=
  let device := session.world.source
  (device.calls.reverse,
    { session with world := { session.world with source := { device with calls := [] } } })

/-- Lets `n` reads pass and fails the next one, in place of one that was to fail. -/
def failRead (n : Nat) : Act Session Unit :=
  onDevice (modify fun device => { device with countdown := some n })

/-- Reserves bytes for nothing, and yields the number of bytes in use. A reservation to be abandoned
fails with that number. -/
def reserve (size : Int) (abandon : Bool) : Act Session Nat :=
  onLedger <| Ledger.reserveFor size fun ledger =>
    if abandon then .error (.abandoned ledger.used) else .ok ledger.used

/-- Sets the clock. -/
def setClock (now : Moment) : Act Session Unit := modify fun session => { session with now }

/-- A catalogue read from the host, into a buffer. -/
def readCatalogue (call : ReadCall) : Act Session (Batch × Bytes) := do
  let listing ← askHost (·.catalogue call.path)
  let deposit := call.fill listing
  return (← Act.ofExcept deposit.result, deposit.into call.buffer call.offset)

/-! ## The path buffer -/

/-- An operation on the path buffer that may need memory. -/
def onBuffer (act : PathBuffer → Act Ledger PathBuffer) : Act Session Unit := do
  let buffer ← onLedger (act (← get).buffer)
  modify fun session => { session with buffer }

/-- Empties the path buffer and gives its memory back. -/
def destroyBuffer : Act Session Unit := do
  let buffer := (← get).buffer
  onLedger (modify buffer.release)
  modify fun session => { session with buffer := .empty }

/-! ## The level -/

/-- Makes a level in place of the session's own, which stays charged. -/
def allocateLevel (pathLength : Nat) (size : Int) : Act Session Unit := do
  let level ← onLedger (Level.allocate pathLength size)
  modify fun session => { session with level := some level }

/-- The session's level. -/
def theLevel : Act Session Level := do
  match (← get).level with
  | some level => return level
  | none => throw .noEntry

/-- Refills the session's level. -/
def refillLevel (request : Request) : Act Session Nat := do
  let level ← theLevel
  fun session =>
    let run := Level.refill session.reader patience request (level, session.world)
    match run with
    | .ok count (level, world) => .ok count { session with level := some level, world }
    | .error fault (level, world) => .error fault { session with level := some level, world }

/-- Moves the session's level on by one record. -/
def advanceLevel : Act Session Unit := do
  let level ← Act.ofExcept (← theLevel).advance
  modify fun session => { session with level := some level }

/-- Doubles the buffer of the session's level. -/
def growLevel : Act Session Unit := do
  let level ← onLedger (← theLevel).grow
  modify fun session => { session with level := some level }

/-- Gives back the memory of the session's level, which stays without any. -/
def releaseLevel : Act Session Unit := do
  let level ← theLevel
  onLedger (modify level.release)
  modify fun session => { session with level := some level.emptied }

/-! ## The stack of levels -/

/-- Makes a level and puts it below the others. -/
def pushLevel (pathLength : Nat) (size : Int) : Act Session Unit := do
  let level ← onLedger (Level.allocate pathLength size)
  modify fun session => { session with stack := level :: session.stack }

/-- Takes the deepest level off the stack. Its memory stays charged. -/
def popLevel : Act Session Level := do
  let (level, stack) ← Act.ofExcept (← get).stack.pop
  modify fun session => { session with stack }
  return level

/-- Gives up the levels deeper than a place. -/
def discardLevels (index : Int) : Act Session Unit :=
  Act.within (fun session => (session.stack, session.world.ledger))
    (fun (stack, ledger) session =>
      { session with stack, world := { session.world with ledger } })
    (LevelStack.discardDeeperThan index)

/-! ## Walks -/

/-- The walk of a name. -/
def walk? (session : Session) (name : Text) : Option Walk := session.walks.lookup name

/-- The walk of a name, which has to exist. -/
def theWalk (name : Text) : Act Session Walk := do
  match (← get).walk? name with
  | some walk => return walk
  | none => throw .noWalk

/-- The session without the walk of a name. -/
def forget (name : Text) (session : Session) : Session :=
  { session with walks := session.walks.filter (·.1 ≠ name) }

/-- The session with a walk under a name. -/
def keep (name : Text) (walk : Walk) (session : Session) : Session :=
  { session with walks := (name, walk) :: (session.forget name).walks }

/-- Starts a walk under a name. A walk of that name is forgotten first, and stays charged. -/
def startWalk (name : Text) (plan : Walk.Plan) : Act Session Unit := do
  modify (forget name)
  let walk ← onWorld (Walk.start (← get).reader patience plan)
  modify (keep name walk)

/-- An act of the walk of a name. -/
def onWalk (name : Text) (act : Reader Device → Act (Walk.Scene Device) α) : Act Session α := do
  let walk ← theWalk name
  fun session =>
    match act session.reader (walk, session.world) with
    | .ok a (walk, world) => .ok a ({ session with world }.keep name walk)
    | .error fault (walk, world) => .error fault ({ session with world }.keep name walk)

/-- Advances a walk a number of times, up to the first fault. -/
def advanceWalk (name : Text) : Nat → Act Session Unit
  | 0 => do
    let _ ← theWalk name
  | times + 1 => do
    onWalk name fun reader => Walk.advance reader patience
    advanceWalk name times

/-- Resets a walk. -/
def resetWalk (name : Text) : Act Session Unit :=
  onWalk name fun reader => Walk.reset reader patience

/-- Closes a walk. -/
def closeWalk (name : Text) : Act Session Unit := onWalk name fun _ => modify Walk.close

/-- Closes a walk if there is one. -/
def destroyWalk (name : Text) : Act Session Unit := do
  if ((← get).walk? name).isSome then closeWalk name

/-- Tours with a walk, for at most a number of stops. -/
def tour (name : Text) (stops : Nat) : Act Session (List Walk.Stop × Option Fault) :=
  onWalk name fun reader => Walk.tour reader patience stops

/-- What a tour under faults injects before every advance. -/
inductive Injection where
  /-- The ledger refuses a reservation after `n` others. -/
  | refusal (n : Int)
  /-- The device fails a read after `n` others. -/
  | discError (n : Nat)

/-- Injects a fault. -/
def Injection.arm : Injection → Act (World Device) Unit
  | refusal n => World.charging (Ledger.arm n)
  | discError n => modify fun world =>
    { world with source := { world.source with countdown := some n } }

/-- Takes back the faults that have not struck. -/
def disarm : Act (World Device) Unit :=
  modify fun world =>
    { ledger := world.ledger.disarm, source := { world.source with countdown := none } }

/-- Tours with a walk under faults, until there are `limit` notes. -/
def faultyTour (name : Text) (injection : Injection) (limit : Nat) :
    Act Session (List Walk.Note) :=
  onWalk name fun reader =>
    Walk.faultyTour reader patience (Walk.around injection.arm) (Walk.around disarm) limit limit []

/-- Lists objects with a walk of its own. -/
def list (plan : Walk.Plan) (count : Nat) : Act Session (List Walk.Listed × Walk.ListEnd) := do
  onWorld (Walk.list (← get).reader patience plan count)

end Session

end Catwalk
