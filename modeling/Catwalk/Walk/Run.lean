import Catwalk.Walk.Step

/-!
# The life of a walk

A walk is started, advanced from one shown object to the next, reset to the first, and closed. A
start that fails leaves nothing charged; an advance or a reset that fails leaves what the walk
shows as it was, so that it can be tried again.

A source may go on without end, so every loop is bounded by the caller's patience.
-/

namespace Catwalk.Walk

variable {ρ : Type} (reader : Reader ρ) (patience : Nat)

/-- What a walk is started with. -/
structure Plan where
  path : Text
  /-- 1 to enter directories, and 2 to enter images. -/
  flags : Int := 0
  pattern : Option Text := none
  bufferSize : Int := 512
  maxEntries : Int := 16
deriving DecidableEq, Repr

/-- The settings of a plan, which has to be in order. -/
def Plan.settings? (plan : Plan) (separator : Text) : Except Fault Settings :=
  if plan.flags < 0 ∨ 4 ≤ plan.flags then .error (.badFlags plan.flags)
  else if plan.bufferSize < Record.nameOffset + 4 then .error (.badBufferSize plan.bufferSize)
  else if plan.maxEntries < 1 then .error (.badMaxEntries plan.maxEntries)
  else
    .ok
      { entersDirectories := plan.flags % 2 = 1
        entersImages := plan.flags / 2 = 1
        pattern := if Pattern.isMatchAll plan.pattern then none else plan.pattern
        bufferSize := plan.bufferSize.toNat
        maxEntries := plan.maxEntries
        separator }

/-- A walk that has not set out. -/
def unstarted (settings : Settings) : Walk :=
  { settings, path := .empty, rootLength := 0, levels := [], held := none, closed := false }

/-- Gives back the memory of a walk. -/
def release (walk : Walk) (ledger : Ledger) : Ledger :=
  (walk.path.release (LevelStack.release walk.levels ledger)).release walk.settings.patternCharge

/-- Reads the root directory and stands on the first object to be shown. -/
def setOut (path : Text) : Act (Scene ρ) Unit := do
  let root ← around (World.charging ((← getWalk).path.append path))
  change fun walk => { walk with path := root, rootLength := root.text.length }
  openRoot reader patience
  skipUnmatched reader patience none patience

/-- Starts a walk. -/
def start (plan : Plan) : Act (World ρ) Walk := do
  let settings ← Act.ofExcept (plan.settings? reader.separator)
  World.charging (Ledger.reserve settings.patternCharge)
  fun world =>
    match setOut reader patience plan.path (unstarted settings, world) with
    | .ok _ (walk, world) => .ok walk world
    | .error fault (walk, world) => .error fault (world.updateLedger walk.release)

/-- Moves to the next object to be shown. An empty walk stays empty. -/
def advance : Act (Scene ρ) Unit := do
  let walk ← getWalk
  if walk.closed then throw .closed
  unless walk.isEmpty do
    let start ←
      match walk.held with
      | some held => pure (some held)
      | none => if walk.settings.filters then Act.ofExcept walk.livePosition else pure none
    step reader patience
    skipUnmatched reader patience start patience

/-- Gives up the levels that a reset has made, and puts back those it began with. -/
def takeBack (before : Walk) : Act (Scene ρ) Unit := do
  modify fun (walk, world) =>
    ({ walk with levels := before.levels, held := before.held },
      world.updateLedger (LevelStack.release walk.levels))
  changePath (·.restore before.path.text)

/-- Goes back to the first object. -/
def reset : Act (Scene ρ) Unit := do
  let before ← getWalk
  if before.closed then throw .closed
  changePath (·.truncate before.rootLength)
  change fun walk => { walk with levels := [], held := none }
  Act.onFault
    (do
      openRoot reader patience
      skipUnmatched reader patience none patience)
    (takeBack before)
  modify fun (walk, world) => (walk, world.updateLedger (LevelStack.release before.levels))

/-- Closes a walk and gives its memory back, once. -/
def close (scene : Scene ρ) : Scene ρ :=
  let (walk, world) := scene
  if walk.closed then scene
  else
    ({ walk with
        settings := { walk.settings with pattern := none }
        path := .empty
        levels := []
        held := none
        closed := true },
      world.updateLedger walk.release)

end Catwalk.Walk
