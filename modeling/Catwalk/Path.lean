import Catwalk.Text.Basic

/-!
# Paths

A path names an object of the host by the elements on the way to it from the root. Elements are
separated by solidi or reverse solidi; an empty element and `.` stay in place, and `..` goes up one,
or stays at the root. `Path.ofText` evaluates a text to a path and `Path.text` spells a path out.
Texts that begin with exactly two separators keep both, which changes the spelling only.
-/

namespace Catwalk

/-- A path from the root. -/
structure Path where
  /-- Whether the path is spelt with two solidi in front. -/
  doubled : Bool
  elements : List Text
deriving DecidableEq, Repr

namespace Path

/-- Whether a code point separates elements. -/
def isSeparator (c : CodePoint) : Bool := c = CodePoint.solidus || c = CodePoint.reverseSolidus

/-- Where an element leads from `trail`, the elements so far with the latest first. -/
def visit (trail : List Text) (element : Text) : List Text :=
  if element = [] ∨ element = [CodePoint.fullStop] then trail
  else if element = [CodePoint.fullStop, CodePoint.fullStop] then trail.tail
  else element :: trail

/-- Whether a text begins with exactly two separators. -/
def isDoubled (t : Text) : Bool := (t.takeWhile isSeparator).length = 2

/-- The path that a text names. -/
def ofText (t : Text) : Path where
  doubled := isDoubled t
  elements := ((t.split isSeparator).foldl visit []).reverse

/-- The canonical spelling of a path. -/
def text (path : Path) : Text :=
  (if path.doubled then [CodePoint.solidus, CodePoint.solidus] else [CodePoint.solidus]) ++
    List.intercalate [CodePoint.solidus] path.elements

/-- The path of the directory that holds the object; the root's parent is the root. -/
def parent (path : Path) : Path := { path with elements := path.elements.dropLast }

/-- The object's own name, which is empty for the root. -/
def name (path : Path) : Text := path.elements.getLast?.getD []

/-- An object that is not the root is in a directory. -/
theorem elements_eq_concat {path : Path} (below : path.elements ≠ []) :
    path.elements = path.parent.elements ++ [path.name] := by
  unfold parent name
  rw [List.getLast?_eq_some_getLast below, Option.getD_some, List.dropLast_concat_getLast]

/-- Whether the path is the root in its plain spelling. -/
def isPlainRoot (path : Path) : Bool := !path.doubled && path.elements.isEmpty

/-- Looks back from `position` for `n` separators, each before the one found last, and yields where
the last of them begins. An empty separator is found on the spot, however often. -/
def lookBack? (separator path : Text) : Nat → Nat → Option Nat
  | 0, position => some position
  | n + 1, position =>
    match Text.lastOccurrence? separator (path.take position) with
    | none => none
    | some found => if found = position then some found else lookBack? separator path n found

/-- The last `n` elements of a path, or the whole path if it has no more. -/
def tail (path : Text) (n : Int) (separator : Text) : Text :=
  if n ≤ 0 then []
  else
    match lookBack? separator path n.toNat path.length with
    | some position => path.drop (position + 1)
    | none => path

end Path

end Catwalk
