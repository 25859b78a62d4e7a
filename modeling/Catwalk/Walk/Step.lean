import Catwalk.Walk.Basic

/-!
# Steps of a walk

`Walk.step` moves a walk by one record: into the current object if it may be entered and is not
empty, and else on to the next record of its level, up through the levels that are done. Everything
that can fail comes before the walk lets go of the record that it stands on.
-/

namespace Catwalk.Walk

variable {ρ : Type} (reader : Reader ρ) (patience : Nat)

/-- A walk and the world it goes through. -/
abbrev Scene (ρ : Type) := Walk × World ρ

/-- The walk at hand. -/
def getWalk : Act (Scene ρ) Walk := do return (← get).1

/-- Changes the walk at hand. -/
def change (update : Walk → Walk) : Act (Scene ρ) Unit :=
  modify fun (walk, world) => (update walk, world)

/-- Changes the path of the walk at hand. -/
def changePath (update : PathBuffer → Except Fault PathBuffer) : Act (Scene ρ) Unit := do
  let path ← Act.ofExcept (update (← getWalk).path)
  change fun walk => { walk with path }

/-- Puts back the path as it was before its last change. -/
def undoPath : Act (Scene ρ) Unit := change fun walk => { walk with path := walk.path.undo }

/-- An act on the world around the walk. -/
def around (act : Act (World ρ) α) : Act (Scene ρ) α :=
  Act.within Prod.snd (fun world scene => (scene.1, world)) act

/-- Reads the directory at the walk's path, for a level to be put below the others. -/
def openDirectory : Act (Scene ρ) (Option Level) := do
  let walk ← getWalk
  around <| Level.enter? reader patience (walk.settings.request walk.path.text)
    walk.path.text.length walk.settings.bufferSize

/-- Reads the directory of the root, and stands on its first record if it has any. -/
def openRoot : Act (Scene ρ) Unit := do
  match ← openDirectory reader patience with
  | some level => change fun walk => { walk with levels := level :: walk.levels }
  | none => pure ()

/-- Reads the current object of a level as a directory, if it may be entered. The path then ends in
its name, but only if there is something in it. -/
def descend? (level : Level) : Act (Scene ρ) (Option Level) := do
  let walk ← getWalk
  if walk.settings.enters (← Act.ofExcept level.objectType) then
    let name ← Act.ofExcept level.name
    let path ← around (World.charging (walk.path.appendSeparated walk.settings.separator name))
    change fun walk => { walk with path }
    match ← Act.onFault (openDirectory reader patience) undoPath with
    | some inner => return some inner
    | none =>
      undoPath
      return none
  else return none

/-- Refills one of the levels at the walk's path: the one between `deeper` and `shallower`. -/
def refillBetween (deeper : LevelStack) (level : Level) (shallower : LevelStack) :
    Act (Scene ρ) Level := fun (walk, world) =>
  match Level.refill reader patience (walk.settings.request walk.path.text) (level, world) with
  | .ok _ (level, world) => .ok level ({ walk with levels := deeper ++ level :: shallower }, world)
  | .error fault (level, world) =>
    .error fault ({ walk with levels := deeper ++ level :: shallower }, world)

/-- Refills a level above the deepest one under its own path, and puts the path back. -/
def refillAbove (deeper : LevelStack) (level : Level) (shallower : LevelStack) :
    Act (Scene ρ) Level := do
  changePath (·.truncate level.pathLength)
  let refilled ← Act.onFault (refillBetween reader patience deeper level shallower) undoPath
  undoPath
  return refilled

/-- Gives up the levels that are done, and stands on the deepest one left. -/
def settle (done left : LevelStack) : Act (Scene ρ) Unit := do
  modify fun (walk, world) =>
    ({ walk with levels := left }, world.updateLedger (LevelStack.release done))
  let walk ← getWalk
  changePath (·.truncate
    (match left with
    | level :: _ => level.pathLength
    | [] => walk.rootLength))

/-- Goes up from the levels that are `done` to the first with a record left, refilling those that
have not been read to the end. Nothing is given up before that level is found. -/
def climb (done : LevelStack) : LevelStack → Act (Scene ρ) Unit
  | [] => settle done []
  | level :: shallower => do
    if 0 < level.remaining then settle done (level :: shallower)
    else if level.isExhausted then climb (done ++ [level]) shallower
    else
      let level ← refillAbove reader patience done level shallower
      if 0 < level.remaining then settle done (level :: shallower)
      else climb (done ++ [level]) shallower

/-- Moves on to the next record of the deepest level, or up if there is none. -/
def moveOn (level : Level) (shallower : LevelStack) : Act (Scene ρ) Unit := do
  let level ←
    if level.remaining < 2 ∧ !level.isExhausted then
      refillBetween reader patience [] level shallower
    else pure level
  if level.remaining < 2 then climb reader patience [level] shallower
  else
    let level ← Act.ofExcept level.advance
    change fun walk => { walk with levels := level :: shallower }

/-- Moves by one record. -/
def step : Act (Scene ρ) Unit := do
  match (← getWalk).levels with
  | [] => pure ()
  | level :: shallower =>
    match ← descend? reader patience level with
    | some inner =>
      let level ← Act.ofExcept level.advance
      change fun walk => { walk with levels := inner :: level :: shallower }
    | none => moveOn reader patience level shallower

/-- Whether the walk stands on a record that it passes over. -/
def isUnmatched (walk : Walk) : Except Fault Bool :=
  if walk.settings.filters then
    match walk.levels with
    | [] => .ok false
    | level :: _ => do return !Pattern.matchesName walk.settings.pattern (← level.name)
  else .ok false

/-- Whether the record that the walk stands on is to be passed over. If so, the walk shows `start`
in its place, unless it holds on to an object already; if not, it lets go of any. -/
def passesOver (start : Option Position) : Act (Scene ρ) Bool := do
  let unmatched ← Act.ofExcept (← getWalk).isUnmatched
  change fun walk => { walk with held := if unmatched then walk.held.or start else none }
  return unmatched

/-- Steps until the walk stands on a record to be shown, or has none left. Meanwhile `start` is
shown, and stays so if a step fails. -/
def skipUnmatched (start : Option Position) : Nat → Act (Scene ρ) Unit
  | 0 => do
    if ← passesOver start then throw .outOfPatience
  | rounds + 1 => do
    if ← passesOver start then
      step reader patience
      skipUnmatched start rounds

end Catwalk.Walk
