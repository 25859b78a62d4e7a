import Catwalk.Host.Edit

/-!
# Planting objects

Plants are objects to be made below a directory, in order, each with what goes into it.
-/

namespace Catwalk

/-- Objects to be made, the first of them with what goes into it and the others behind it. -/
inductive Plants where
  | done
  | file (name : Text) (plan : FilePlan) (others : Plants)
  | directory (name : Text) (inside others : Plants)
  | image (name : Text) (plan : ImagePlan) (inside others : Plants)
deriving Inhabited

namespace Plants

/-- The path of a child. -/
def childPath (parent name : Text) : Text := parent ++ CodePoint.solidus :: name

/-- Makes objects below a path, each before what goes into it, up to the first fault. One moment
serves for all of them. -/
def make (now : Moment) (parent : Text) : Plants → Act Host Unit
  | done => pure ()
  | file name plan others => do
    Host.createFile now (childPath parent name) plan
    others.make now parent
  | directory name inside others => do
    Host.makeDirectory now (childPath parent name) false
    inside.make now (childPath parent name)
    others.make now parent
  | image name plan inside others => do
    Host.createImage now (childPath parent name) plan
    inside.make now (childPath parent name)
    others.make now parent

/-- Makes a directory, which may exist, and objects below it. -/
def makeIn (plants : Plants) (now : Moment) (root : Text) : Act Host Unit := do
  Host.makeDirectory now root true
  plants.make now root

end Plants

end Catwalk
