import Catwalk.Proofs.Reservations
import Catwalk.Session

/-!
# Path buffers over time

A path buffer goes through any operations, while others use the same ledger and refusals are armed.
It is charged for its capacity and for nothing else, and an operation that fails changes neither.
Any text that it has held since it was last emptied fits in, so that it can be put back whatever
the ledger says (`PathBuffer.reliable_of_history`).
-/

namespace Catwalk

namespace PathBuffer

variable {buffer : PathBuffer} {session : Session} {base : Nat} {texts : List Text}

/-- What can be done with a path buffer. -/
inductive Operation where
  | append (text : Text)
  | appendSeparated (separator text : Text)
  | truncate (length : Int)
  | restore (text : Text)
  | undo
  | destroy

namespace Operation

/-- What an operation does. -/
def perform : Operation → Act Session Unit
  | append text => Session.onBuffer (·.append text)
  | appendSeparated separator text => Session.onBuffer (·.appendSeparated separator text)
  | truncate length => Session.onBuffer fun buffer => Act.ofExcept (buffer.truncate length)
  | restore text => Session.onBuffer fun buffer => Act.ofExcept (buffer.restore text)
  | undo => Session.onBuffer fun buffer => pure buffer.undo
  | destroy => Session.destroyBuffer

/-- Whether an operation puts a text in place of another, which it saves. -/
def edits : Operation → Bool
  | append _ | appendSeparated _ _ | truncate _ | restore _ => true
  | undo | destroy => false

end Operation

/-- A text fits into a buffer with one code point to spare. An empty text needs no room. -/
def HasRoom (buffer : PathBuffer) (text : Text) : Prop :=
  text ≠ [] → text.length + 1 ≤ buffer.capacity

/-- A buffer and the bytes in use, before and after a text was put in place of another. -/
structure Edited (before : PathBuffer) (used : Nat) (after : PathBuffer) (used' : Nat) : Prop where
  saved : after.saved = before.text
  room : before.capacity ≤ after.capacity
  fits : before.HasRoom before.text → after.HasRoom after.text
  charged : used' + before.capacity = used + after.capacity

/-- The texts that a buffer has held since it was last emptied, after an operation that left it as
it is in a session. -/
def held (texts : List Text) (operation : Operation) (after : Session) : List Text :=
  match operation with
  | .destroy => [after.buffer.text]
  | _ => after.buffer.text :: texts

/-- The sessions that operations on an empty buffer can lead to, with what others than the buffer
use of the ledger, and the texts that the buffer has held since it was last emptied. Between two
operations others may do anything to the session but to the buffer, if they account for the bytes
that they take and give back. -/
inductive History : Session → Nat → List Text → Prop
  | start {session : Session} : session.buffer = .empty →
      History session session.world.ledger.used [[]]
  | perform {session : Session} {base : Nat} {texts : List Text} (operation : Operation) :
      History session base texts →
      History (operation.perform.leaves session) base
        (held texts operation (operation.perform.leaves session))
  | others {session after : Session} {base base' : Nat} {texts : List Text} :
      History session base texts → after.buffer = session.buffer →
      after.world.ledger.used + base = session.world.ledger.used + base' →
      History after base' texts

/-- What a buffer in a session can be relied on for. -/
structure Reliable (base : Nat) (texts : List Text) (session : Session) : Prop where
  charged : session.world.ledger.used = base + session.buffer.capacity
  fits : session.buffer.HasRoom session.buffer.text ∧ session.buffer.HasRoom session.buffer.saved
  /-- An operation that fails changes nothing. -/
  failed : ∀ operation fault after, Operation.perform operation session = .error fault after →
    after.buffer = session.buffer ∧ after.world.ledger.used = session.world.ledger.used
  /-- The text before an edit comes back when it is undone, and goes when that is undone. -/
  undone : ∀ operation after, Operation.edits operation = true →
    operation.perform session = .ok () after → ∃ once twice,
      Operation.undo.perform after = .ok () once ∧ once.buffer.text = session.buffer.text ∧
      Operation.undo.perform once = .ok () twice ∧ twice.buffer.text = after.buffer.text
  capacity : ∀ operation, operation ≠ Operation.destroy →
    session.buffer.capacity ≤ (operation.perform.leaves session).buffer.capacity
  /-- A text that the buffer has held can be put back, without any memory. -/
  restored : ∀ text ∈ texts, text ≠ [] → ∃ after,
    (Operation.restore text).perform session = .ok () after ∧ after.buffer.text = text

/-! ## Edits -/

theorem HasRoom.mono {before after : PathBuffer} {text : Text} (room : before.HasRoom text)
    (more : before.capacity ≤ after.capacity) : after.HasRoom text :=
  fun filled => Nat.le_trans (room filled) more

private theorem append_edits_meets (buffer : PathBuffer) (text : Text) (ledger : Ledger) :
    (buffer.append text).Meets ledger (fun after left => buffer.Edited ledger.used after left.used)
      fun _ left => left.used = ledger.used := by
  obtain ⟨enough, more⟩ := buffer.le_capacityFor (buffer.text.length + text.length + 1)
  unfold append
  simp only [Act.meets_bind, Act.meets_pure]
  refine (Ledger.reserve_used_meets _ ledger).mono ?_ fun _ _ failed => failed
  intro _ left used
  refine ⟨rfl, more, fun _ _ => ?_, ?_⟩
  · rw [List.length_append]
    exact enough
  · dsimp only
    omega

private theorem appendSeparated_edits_meets (buffer : PathBuffer) (separator text : Text)
    (ledger : Ledger) : (buffer.appendSeparated separator text).Meets ledger
      (fun after left => buffer.Edited ledger.used after left.used)
      fun _ left => left.used = ledger.used := by
  unfold appendSeparated
  split
  · exact buffer.append_edits_meets text ledger
  · exact buffer.append_edits_meets _ ledger

private theorem edited_of_truncate {after : PathBuffer} {length : Int}
    (cut : buffer.truncate length = .ok after) (used : Nat) : buffer.Edited used after used := by
  unfold truncate at cut
  split at cut
  · cases cut
    refine ⟨rfl, Nat.le_refl _, fun room filled => ?_, rfl⟩
    have whole := room fun empty => filled (by rw [empty, List.take_nil])
    have := List.length_take_le length.toNat buffer.text
    dsimp only at *
    omega
  · cases cut

private theorem edited_of_restore {after : PathBuffer} {text : Text}
    (restored : buffer.restore text = .ok after) (used : Nat) :
    buffer.Edited used after used := by
  unfold restore at restored
  split at restored
  · cases restored
  · next fits =>
    cases restored
    exact ⟨rfl, Nat.le_refl _, fun _ _ => Nat.le_of_not_lt fits, rfl⟩

/-- A text that fits can be put in place of any other. -/
private theorem restore_of_hasRoom {text : Text} (room : buffer.HasRoom text) (filled : text ≠ []) :
    buffer.restore text = .ok { buffer with text, saved := buffer.text } :=
  if_neg (Nat.not_lt.mpr (room filled))

/-! ## Operations -/

/-- What an act makes of the buffer, the session has for its buffer. -/
private theorem onBuffer_meets (act : PathBuffer → Act Ledger PathBuffer)
    (meets : (act session.buffer).Meets session.world.ledger
      (fun after left => session.buffer.Edited session.world.ledger.used after left.used)
      fun _ left => left.used = session.world.ledger.used) :
    (Session.onBuffer act).Meets session
      (fun _ after => session.buffer.Edited session.world.ledger.used after.buffer
        after.world.ledger.used)
      fun _ after => after.buffer = session.buffer ∧
        after.world.ledger.used = session.world.ledger.used := by
  unfold Session.onBuffer Session.onLedger Session.onWorld World.charging
  simp only [Act.meets_bind, Act.meets_get, Act.meets_within, Act.meets_modify]
  exact meets.mono (fun _ _ edited => edited) fun _ _ same => ⟨trivial, same⟩

private theorem perform_undo (session : Session) : Operation.undo.perform session =
    .ok () { session with buffer := session.buffer.undo } := rfl

private theorem perform_destroy (session : Session) : Operation.destroy.perform session =
    .ok () { session with
      buffer := .empty
      world := { session.world with ledger := session.buffer.release session.world.ledger } } :=
  rfl

private theorem perform_restore {text : Text} {after : PathBuffer}
    (restored : session.buffer.restore text = .ok after) :
    (Operation.restore text).perform session = .ok () { session with buffer := after } := by
  unfold Operation.perform Session.onBuffer
  dsimp only
  rw [Act.get_bind, restored]
  rfl

/-- An edit that fails leaves the buffer and the bytes in use as they are. -/
private theorem perform_meets {operation : Operation} (edits : operation.edits = true)
    (session : Session) : operation.perform.Meets session
      (fun _ after => session.buffer.Edited session.world.ledger.used after.buffer
        after.world.ledger.used)
      fun _ after => after.buffer = session.buffer ∧
        after.world.ledger.used = session.world.ledger.used := by
  cases operation with
  | append text => exact onBuffer_meets (·.append text) (append_edits_meets _ text _)
  | appendSeparated separator text =>
    exact onBuffer_meets (·.appendSeparated separator text)
      (appendSeparated_edits_meets _ separator text _)
  | truncate length =>
    refine onBuffer_meets (fun buffer => Act.ofExcept (buffer.truncate length))
      (Act.meets_ofExcept.mpr ?_)
    split
    · next cut => exact edited_of_truncate cut _
    · rfl
  | restore text =>
    refine onBuffer_meets (fun buffer => Act.ofExcept (buffer.restore text))
      (Act.meets_ofExcept.mpr ?_)
    split
    · next restored => exact edited_of_restore restored _
    · rfl
  | undo => cases edits
  | destroy => cases edits

private theorem eq_of_not_edits {operation : Operation} (other : ¬operation.edits = true) :
    operation = .undo ∨ operation = .destroy := by
  cases operation with
  | append _ | appendSeparated _ _ | truncate _ | restore _ => exact absurd rfl other
  | undo => exact .inl rfl
  | destroy => exact .inr rfl

private theorem held_of_edits {operation : Operation} (edits : operation.edits = true)
    (after : Session) : held texts operation after = after.buffer.text :: texts := by
  cases operation with
  | append _ | appendSeparated _ _ | truncate _ | restore _ => rfl
  | undo | destroy => cases edits

/-- What operations keep: the buffer is charged for its capacity, and all that it has held has
room. -/
structure Kept (base : Nat) (texts : List Text) (session : Session) : Prop where
  charged : session.world.ledger.used = base + session.buffer.capacity
  text : session.buffer.text ∈ texts
  saved : session.buffer.saved ∈ texts
  fits : ∀ text ∈ texts, session.buffer.HasRoom text

private theorem Edited.kept {after : Session} (kept : Kept base texts session)
    (edited : session.buffer.Edited session.world.ledger.used after.buffer
      after.world.ledger.used) : Kept base (after.buffer.text :: texts) after := by
  refine ⟨?_, List.mem_cons_self, ?_, List.forall_mem_cons.mpr ⟨?_, ?_⟩⟩
  · have := kept.charged
    have := edited.charged
    omega
  · rw [edited.saved]
    exact List.mem_cons_of_mem _ kept.text
  · exact edited.fits (kept.fits _ kept.text)
  · exact fun text member => (kept.fits text member).mono edited.room

private theorem Kept.same {after : Session} (kept : Kept base texts session)
    (buffer : after.buffer = session.buffer)
    (used : after.world.ledger.used = session.world.ledger.used) :
    Kept base (after.buffer.text :: texts) after := by
  obtain ⟨charged, text, saved, fits⟩ := kept
  refine ⟨?_, List.mem_cons_self, ?_, List.forall_mem_cons.mpr ⟨?_, ?_⟩⟩
  · rw [used, buffer, charged]
  · rw [buffer]
    exact List.mem_cons_of_mem _ saved
  · rw [buffer]
    exact fits _ text
  · rw [buffer]
    exact fits

private theorem Kept.perform (kept : Kept base texts session) (operation : Operation) :
    Kept base (held texts operation (operation.perform.leaves session))
      (operation.perform.leaves session) := by
  by_cases edits : operation.edits = true
  · rw [held_of_edits edits]
    exact ((perform_meets edits session).mono (fun _ _ edited => edited.kept kept)
      fun _ _ failed => kept.same failed.1 failed.2).leaves
  obtain ⟨charged, text, saved, fits⟩ := kept
  obtain rfl | rfl := eq_of_not_edits edits
  · rw [Act.leaves, perform_undo]
    refine ⟨charged, List.mem_cons_self, List.mem_cons_of_mem _ text, ?_⟩
    exact List.forall_mem_cons.mpr ⟨fits _ saved, fits⟩
  · rw [Act.leaves, perform_destroy]
    refine ⟨?_, List.mem_singleton_self _, List.mem_singleton_self _, ?_⟩
    · change (session.world.ledger.release session.buffer.capacity).used = base + 0
      rw [Ledger.release_eq, charged, Int.toNat_natCast, Nat.add_sub_cancel, Nat.add_zero]
    · intro text member filled
      exact absurd (List.mem_singleton.mp member) filled

private theorem History.kept (history : History session base texts) : Kept base texts session := by
  induction history with
  | @start session empty =>
    refine ⟨?_, ?_, ?_, ?_⟩
    · simp [empty, PathBuffer.empty]
    · simp [empty, PathBuffer.empty]
    · simp [empty, PathBuffer.empty]
    · intro text member filled
      exact absurd (List.mem_singleton.mp member) filled
  | perform operation _ kept => exact kept.perform operation
  | others _ same used kept =>
    obtain ⟨charged, text, saved, fits⟩ := kept
    refine ⟨?_, same ▸ text, same ▸ saved, same ▸ fits⟩
    rw [same]
    omega

/-- Whatever operations an empty buffer has gone through, and however they ended. -/
theorem reliable_of_history (session : Session) (base : Nat) (texts : List Text)
    (history : History session base texts) : Reliable base texts session := by
  obtain ⟨charged, text, saved, fits⟩ := history.kept
  refine ⟨charged, ⟨fits _ text, fits _ saved⟩, ?_, ?_, ?_, ?_⟩
  · intro operation fault after failed
    by_cases edits : operation.edits = true
    · exact (perform_meets edits session).of_error failed
    · obtain rfl | rfl := eq_of_not_edits edits
      · cases failed
      · cases failed
  · intro operation after edits done
    have edited := (perform_meets edits session).of_ok done
    exact ⟨_, _, perform_undo after, edited.saved, perform_undo _, rfl⟩
  · intro operation kept
    by_cases edits : operation.edits = true
    · exact ((perform_meets edits session).mono (fun _ _ edited => edited.room)
        fun _ _ failed => Nat.le_of_eq (congrArg capacity failed.1.symm)).leaves
    · obtain rfl := (eq_of_not_edits edits).resolve_right kept
      exact Nat.le_refl _
  · intro text member filled
    exact ⟨_, perform_restore (restore_of_hasRoom (fits text member) filled), rfl⟩

/-- Others hold 20 bytes of 100. A text of 70 code points is charged with 71 bytes and cut to one
code point. There is no memory for 100 more, but the 70 can still be put back. -/
theorem reliable_of_history_after_refusal :
    let start : Session := {
      world := ⟨⟨some 100, 0, 0, none⟩, ⟨⟨none, 0, []⟩, .host, none, []⟩⟩
      now := 0, separator := [0x2F], buffer := .empty, level := none, stack := [], walks := [] }
    let shared := { start with world.ledger := ⟨some 100, 20, 1, none⟩ }
    let long : Text := List.replicate 70 0x61
    let longer : Text := List.replicate 100 0x61
    let filled := (Operation.append long).perform.leaves shared
    let cut := (Operation.truncate 1).perform.leaves filled
    let refused := (Operation.append longer).perform.leaves cut
    History refused 20 [[0x61], [0x61], long, []] ∧
      Reliable 20 [[0x61], [0x61], long, []] refused ∧
      refused.world.ledger.used = 91 ∧
      ∃ after, (Operation.restore long).perform refused = .ok () after ∧
        after.buffer.text = long := by
  intro start shared long longer filled cut refused
  have begun : History start 0 [[]] := .start rfl
  have joined : History shared 20 [[]] := .others begun rfl rfl
  have first : History filled 20 [long, []] := by
    have text : filled.buffer.text = long := by decide +kernel
    have run : History filled 20 (held [[]] (.append long) filled) := joined.perform _
    rwa [held_of_edits rfl, text] at run
  have second : History cut 20 [[0x61], long, []] := by
    have text : cut.buffer.text = [0x61] := by decide +kernel
    have run : History cut 20 (held [long, []] (.truncate 1) cut) := first.perform _
    rwa [held_of_edits rfl, text] at run
  have history : History refused 20 [[0x61], [0x61], long, []] := by
    have text : refused.buffer.text = [0x61] := by decide +kernel
    have run : History refused 20 (held [[0x61], long, []] (.append longer) refused) :=
      second.perform _
    rwa [held_of_edits rfl, text] at run
  have reliable := reliable_of_history refused 20 [[0x61], [0x61], long, []] history
  have used : refused.world.ledger.used = 91 := by decide +kernel
  exact ⟨history, reliable, used, reliable.restored long (by simp) (by simp [long])⟩

end PathBuffer

end Catwalk
