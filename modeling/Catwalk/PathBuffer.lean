import Catwalk.Ledger
import Catwalk.Text.Quoted

/-!
# The path buffer

A text that grows and shrinks at its end, with the text before the last change saved beside it. Its
capacity is charged to a ledger and counts one code point more than the text needs. An operation
that fails leaves the buffer as it was.
-/

namespace Catwalk

/-- A growable text with one level of undo. -/
structure PathBuffer where
  text : Text
  saved : Text
  capacity : Nat
deriving DecidableEq, Repr

namespace PathBuffer

/-- A buffer without text or capacity. -/
def empty : PathBuffer := ⟨[], [], 0⟩

/-- The least capacity of a buffer that has any. -/
def minCapacity : Nat := 64

/-- The capacity at which a buffer has room for `needed`. -/
def capacityFor (buffer : PathBuffer) (needed : Nat) : Nat :=
  if needed ≤ buffer.capacity then buffer.capacity
  else max needed (max (buffer.capacity * 2) minCapacity)

/-- The buffer with `text` at its end. -/
def append (buffer : PathBuffer) (text : Text) : Act Ledger PathBuffer := do
  let capacity := buffer.capacityFor (buffer.text.length + text.length + 1)
  Ledger.reserve (capacity - buffer.capacity : Nat)
  return { text := buffer.text ++ text, saved := buffer.text, capacity }

/-- The buffer with `text` at its end, after a separator if there is anything to separate. -/
def appendSeparated (buffer : PathBuffer) (separator text : Text) : Act Ledger PathBuffer :=
  if buffer.text.isEmpty then buffer.append text else buffer.append (separator ++ text)

/-- The buffer cut to its first `length` code points. -/
def truncate (buffer : PathBuffer) (length : Int) : Except Fault PathBuffer :=
  if 0 ≤ length ∧ length ≤ buffer.text.length then
    .ok { buffer with text := buffer.text.take length.toNat, saved := buffer.text }
  else .error (.truncation buffer.text.length length)

/-- The buffer with another text in place of its own, which has to fit the capacity. -/
def restore (buffer : PathBuffer) (text : Text) : Except Fault PathBuffer :=
  if text.length + 1 > buffer.capacity then .error (.restoration text.length buffer.capacity)
  else .ok { buffer with text, saved := buffer.text }

/-- The buffer with its text and the saved text exchanged. -/
def undo (buffer : PathBuffer) : PathBuffer :=
  { buffer with text := buffer.saved, saved := buffer.text }

theorem le_capacityFor (buffer : PathBuffer) (needed : Nat) :
    needed ≤ buffer.capacityFor needed ∧ buffer.capacity ≤ buffer.capacityFor needed := by
  unfold capacityFor
  split <;> omega

/-- The buffer and its text, on one line. -/
def summary (buffer : PathBuffer) : Text :=
  Text.ofString "PathBuffer(" ++ Text.quoted buffer.text ++ Text.ofString ")"

/-- Gives a buffer's capacity back. -/
def release (buffer : PathBuffer) (ledger : Ledger) : Ledger := ledger.release buffer.capacity

end PathBuffer

end Catwalk
