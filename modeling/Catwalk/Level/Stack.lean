import Catwalk.Level.Basic

/-!
# Stacks of levels

The levels on a walk's way, the deepest first. Places in a stack are counted from the shallowest
level, or backwards from the deepest one, which is at -1.
-/

namespace Catwalk

/-- Levels, the deepest first. -/
abbrev LevelStack := List Level

namespace LevelStack

/-- Gives back the memory of every level. -/
def release (stack : LevelStack) (ledger : Ledger) : Ledger :=
  stack.foldl (fun ledger level => level.release ledger) ledger

/-- The deepest level and the stack above it. -/
def pop (stack : LevelStack) : Except Fault (Level × LevelStack) :=
  match stack with
  | level :: rest => .ok (level, rest)
  | [] => .error .badIndex

/-- The level at a place. -/
def item (stack : LevelStack) (index : Int) : Except Fault Level :=
  let found := if index < 0 then stack[(-1 - index).toNat]? else stack.reverse[index.toNat]?
  match found with
  | some level => .ok level
  | none => .error .badIndex

/-- Gives up every level deeper than the one at `index`, all of them for -1. There is nothing left
to give up before an index below that is reached. -/
def discardDeeperThan (index : Int) : Act (LevelStack × Ledger) Unit := fun (stack, ledger) =>
  let excess := stack.length - (index + 1).toNat
  let state := (stack.drop excess, LevelStack.release (stack.take excess) ledger)
  if index < -1 then .error .badIndex state else .ok () state

end LevelStack

end Catwalk
