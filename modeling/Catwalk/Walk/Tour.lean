import Catwalk.Walk.Show

/-!
# Tours

Tours drive a walk to its end and note what it shows: plainly, under faults that are injected before
every advance, or as a list of entries from a walk of their own.
-/

namespace Catwalk.Walk

variable {ρ : Type} (reader : Reader ρ) (patience : Nat)

/-- What a walk shows at one stop of a tour. -/
structure Stop where
  subPath : Text
  depth : Nat
  /-- The bytes that are in use. -/
  used : Nat
deriving DecidableEq, Repr

/-- What a walk shows, and the bytes that are in use. -/
def stop : Act (Scene ρ) Stop := do
  let (walk, world) ← get
  let subPath ← Act.ofExcept (walk.name .subPath)
  return { subPath, depth := walk.depth, used := world.ledger.used }

/-- Notes what the walk shows and advances, for at most a number of stops. The tour ends at the
first advance that fails, with its fault. -/
def tour : Nat → Act (Scene ρ) (List Stop × Option Fault)
  | 0 => return ([], none)
  | stops + 1 => do
    if (← getWalk).isEmpty then return ([], none)
    let here ← stop
    match ← (advance reader patience).outcome with
    | .ok () =>
      let (rest, fault) ← tour stops
      return (here :: rest, fault)
    | .error fault => return ([here], some fault)

/-- A note of a tour under faults: what the walk shows before an advance, or after one that failed
and with the class of its fault. -/
structure Note where
  fault : Option Fault
  stop : Stop
deriving DecidableEq, Repr

/-- Notes what the walk shows and advances after `arm`, until there are `limit` notes. An advance
that fails is noted and repeated; it has to succeed then. After every advance comes `disarm`. There
are no more rounds than `rounds`. -/
def faultyTour (arm disarm : Act (Scene ρ) Unit) (limit : Nat) :
    Nat → List Note → Act (Scene ρ) (List Note)
  | 0, notes => return notes
  | rounds + 1, notes => do
    if (← getWalk).isEmpty ∨ limit ≤ notes.length then return notes
    let notes := notes ++ [⟨none, ← stop⟩]
    arm
    match ← (advance reader patience).outcome with
    | .ok () =>
      disarm
      faultyTour arm disarm limit rounds notes
    | .error fault =>
      let notes := notes ++ [⟨some fault, ← stop⟩]
      advance reader patience
      disarm
      faultyTour arm disarm limit rounds notes

/-- An object that a walk shows, with all that there is to know about it. -/
structure Listed where
  path : Text
  subPath : Text
  leaf : Text
  objectType : ObjectType
  information : Option Information
deriving DecidableEq, Repr

/-- How a list of entries ends. -/
inductive ListEnd where
  /-- As many were taken as were asked for. -/
  | taken
  /-- There are no more. -/
  | noMore
  | failed (fault : Fault)
deriving DecidableEq, Repr

/-- The object that the walk shows. -/
def listed (walk : Walk) : Except Fault Listed := do
  let (information, objectType) ← walk.information
  let objectType ← objectType
  return {
    path := ← walk.name .path
    subPath := ← walk.name .subPath
    leaf := ← walk.name .leaf
    objectType
    information }

/-- Takes entries from a walk, and advances between them. -/
def take : Nat → Act (Scene ρ) (List Listed × ListEnd)
  | 0 => return ([], .taken)
  | count + 1 => do
    let walk ← getWalk
    if walk.isEmpty then return ([], .noMore)
    match walk.listed with
    | .error fault => return ([], .failed fault)
    | .ok entry =>
      if count = 0 then return ([entry], .taken)
      match ← (advance reader patience).outcome with
      | .error fault => return ([entry], .failed fault)
      | .ok () =>
        let (rest, ending) ← take count
        return (entry :: rest, ending)

/-- Takes entries from a walk, and closes it. -/
def takeAndClose (count : Nat) (walk : Walk) : Act (World ρ) (List Listed × ListEnd) := fun world =>
  match take reader patience count (walk, world) with
  | .ok listed scene => .ok listed (close scene).2
  | .error fault scene => .error fault (close scene).2

/-- Starts a walk, takes entries from it, and closes it. To take none, it is not even started. -/
def list (plan : Plan) (count : Nat) : Act (World ρ) (List Listed × ListEnd) := do
  if count = 0 then return ([], .taken)
  match ← (start reader patience plan).outcome with
  | .error fault => return ([], .failed fault)
  | .ok walk => takeAndClose reader patience count walk

end Catwalk.Walk
