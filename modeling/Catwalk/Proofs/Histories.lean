import Catwalk.Proofs.Reservations
import Catwalk.Proofs.Runs

/-!
# Histories of walks

A walk is reachable if calls lead to it, one after another, each in a world of its own: between two
calls the ledger may be armed, filled and emptied, and what the reader reads may change. Every
reachable walk that is open is sound (`Reachable.live`), whatever the reader answers. So it is in
order, in terms of what the program itself checks, and its faults come from outside
(`inOrder_of_reachable`).
-/

namespace Catwalk

variable {ρ : Type}

/-- The faults that a walk has from outside: those that its reader raises, and those for want of
memory, of well-formed records and of an end. -/
inductive Reader.Causes (reader : Reader ρ) : Fault → Prop
  | raised {call : ReadCall} {source : ρ} {fault : Fault} :
      (reader.read call source).1.result = .error fault → fault.kind ≠ .overflow →
      Causes reader fault
  | memory (requested available : Nat) : Causes reader (.outOfMemory requested available)
  | malformed (offset : Nat) : Causes reader (.malformedRecord offset)
  | patience : Causes reader .outOfPatience

/-- A reservation is refused for want of memory only. -/
private theorem Ledger.reserve_error {size : Int} {before after : Ledger} {fault : Fault}
    (refused : reserve size before = .error fault after) :
    ∃ requested available, fault = .outOfMemory requested available := by
  obtain ⟨rfl, -⟩ := (reserve_meets size before).of_error refused
  exact ⟨_, _, rfl⟩

/-- Nothing is known of the world, and faults come from outside. -/
def Terms.outside (reader : Reader ρ) : Terms ρ where
  world _ := True
  cause := reader.Causes
  reserve size world _ := by
    unfold World.charging
    rw [Act.meets_within, Act.meets_iff]
    refine ⟨fun _ _ _ => trivial, ?_⟩
    intro fault ledger refused
    obtain ⟨requested, available, rfl⟩ := Ledger.reserve_error refused
    exact ⟨trivial, .memory requested available⟩
  release _ _ _ := trivial

private theorem Terms.outside_covers (reader : Reader ρ) : (Terms.outside reader).Covers reader :=
  ⟨fun _ _ _ => trivial, fun _ _ _ => .raised, .malformed, .patience⟩

namespace Walk

variable {terms : Terms ρ} {reader : Reader ρ} {patience : Nat} {root : Text} {walk : Walk}
  {world : World ρ} {plan : Plan} {settings : Settings}

/-! ## Readers without restriction -/

/-- A step of a sound walk leaves a sound walk. -/
theorem step_sound_meets (covers : terms.Covers reader) (sound : walk.Sound root)
    (w : terms.world world) :
    (step reader patience).Meets (walk, world)
      (fun _ s => terms.world s.2 ∧ walk.Same s.1 ∧ s.1.Sound root)
      fun fault s => terms.world s.2 ∧ terms.cause fault ∧ walk.Stayed terms reader s.1 := by
  have serves : ∀ level ∈ walk.levels, terms.Serves reader patience
      (walk.settings.requestAt walk.path.text level) level := by
    intro level member
    obtain ⟨kept, holds⟩ := sound.stack.holds level member
    exact covers.serves _ holds
  refine (step_meets sound serves (fun _ _ _ _ _ _ _ =>
    covers.serves _ (Level.fresh_holds _ _)) w).mono ?_ fun _ _ failed => failed
  rintro _ s ⟨w, same, ⟨-, unchanged⟩ | stepped⟩
  · exact ⟨w, same, unchanged ▸ sound⟩
  · exact ⟨w, same, stepped.sound same sound⟩

theorem rounds_of_covers (covers : terms.Covers reader) :
    Rounds terms reader patience root fun _ walk => walk.Sound root where
  sound sound := sound
  holdOn held sound := sound.holdOn held
  stays sound stayed := stayed.sound sound
  last _ _ := covers.patience
  step sound _ w := step_sound_meets covers sound w

/-! ## Reachable walks -/

/-- The walks that calls can lead to. -/
inductive Reachable (reader : Reader ρ) (plan : Plan) : Walk → Prop
  | start {patience : Nat} {world after : World ρ} {walk : Walk} :
      start reader patience plan world = .ok walk after → Reachable reader plan walk
  | advance {walk : Walk} (patience : Nat) (world : World ρ) :
      Reachable reader plan walk →
      Reachable reader plan ((advance reader patience).leaves (walk, world)).1
  | reset {walk : Walk} (patience : Nat) (world : World ρ) :
      Reachable reader plan walk →
      Reachable reader plan ((reset reader patience).leaves (walk, world)).1
  | close {walk : Walk} (world : World ρ) :
      Reachable reader plan walk → Reachable reader plan (close (walk, world)).1

/-- A walk is open and sound, or closed and bare. -/
inductive Live (settings : Settings) (root : Text) (walk : Walk) : Prop
  | open : walk.closed = false → walk.settings = settings → walk.Sound root →
      Live settings root walk
  | shut : walk.closed = true → walk.levels = [] → walk.held = none → Live settings root walk

private theorem Settled.live (settled : walk.Settled settings fun _ walk => walk.Sound root) :
    walk.Live settings root := by
  obtain ⟨n, sound⟩ := settled.inv
  exact .open settled.opened settled.settings sound

private theorem Interrupted.live {before after : Walk}
    (interrupted : before.Interrupted terms reader (fun _ walk => walk.Sound root) after)
    (opened : before.closed = false) (sound : before.Sound root) :
    after.Live before.settings root := by
  cases interrupted with
  | stayed stayed =>
    exact .open (stayed.same.closed.trans opened) stayed.same.settings (stayed.sound sound)
  | under _ setup sound => exact .open (setup.closed.trans opened) setup.settings sound

theorem start_settled_meets (covers : terms.Covers reader) (w : terms.world world) :
    (start reader patience plan).Meets world
      (fun walk w => terms.world w ∧ ∃ settings, plan.settings? reader.separator = .ok settings ∧
        walk.Settled settings fun _ walk => walk.Sound plan.path)
      fun fault _ => plan.settings? reader.separator = .error fault ∨ terms.cause fault := by
  cases checked : plan.settings? reader.separator with
  | error fault =>
    unfold start
    simp only [Act.meets_bind, Act.meets_ofExcept, checked]
    exact .inl trivial
  | ok settings =>
    refine (start_meets (rounds_of_covers covers) checked (covers.serves _ (Level.fresh_holds _ _))
      (fun before after rooted opened => opened.sound rooted.sound rooted.bare) w).mono ?_ ?_
    · rintro walk world ⟨w, settled⟩
      exact ⟨w, settings, rfl, settled⟩
    · rintro fault world ⟨-, cause⟩
      exact .inr cause

private theorem start_live_meets (covers : terms.Covers reader) (w : terms.world world) :
    (start reader patience plan).Meets world
      (fun walk w => terms.world w ∧ ∃ settings,
        plan.settings? reader.separator = .ok settings ∧ walk.Live settings plan.path)
      fun fault _ => plan.settings? reader.separator = .error fault ∨ terms.cause fault := by
  refine (start_settled_meets covers w).mono ?_ fun _ _ failed => failed
  rintro walk world ⟨w, settings, planned, settled⟩
  exact ⟨w, settings, planned, settled.live⟩

private theorem advance_live_meets (covers : terms.Covers reader) (live : walk.Live settings root)
    (w : terms.world world) :
    (advance reader patience).Meets (walk, world)
      (fun _ s => s.1.Live settings root)
      fun fault s => s.1.Live settings root ∧
        (walk.closed = true ∧ fault = .closed ∨ walk.closed = false ∧ terms.cause fault) := by
  cases live with
  | shut closed bare unheld =>
    rw [Act.Meets, advance_of_closed closed]
    exact ⟨.shut closed bare unheld, .inl ⟨closed, rfl⟩⟩
  | «open» opened same sound =>
    subst same
    by_cases ended : walk.isEmpty = true
    · rw [Act.Meets, advance_of_isEmpty opened ended]
      exact .open opened rfl sound
    · refine (advance_meets (rounds_of_covers covers) sound opened (eq_false_of_ne_true ended)
        (step_sound_meets covers sound w)).mono ?_ ?_
      · rintro _ s ⟨-, settled⟩
        exact settled.live
      · rintro fault s ⟨-, cause, interrupted⟩
        exact ⟨interrupted.live opened sound, .inr ⟨opened, cause⟩⟩

private theorem reset_live_meets (covers : terms.Covers reader) (live : walk.Live settings root)
    (w : terms.world world) :
    (reset reader patience).Meets (walk, world)
      (fun _ s => s.1.Live settings root)
      fun fault s => s.1.Live settings root ∧
        (walk.closed = true ∧ fault = .closed ∨ walk.closed = false ∧ terms.cause fault) := by
  cases live with
  | shut closed bare unheld =>
    rw [Act.Meets, reset_of_closed closed]
    exact ⟨.shut closed bare unheld, .inl ⟨closed, rfl⟩⟩
  | «open» opened same sound =>
    subst same
    refine (reset_meets (rounds_of_covers covers) sound opened
      (covers.serves _ (Level.fresh_holds _ _))
      (fun before after rooted opened => opened.sound rooted.sound rooted.bare) w).mono ?_ ?_
    · rintro _ s ⟨-, settled⟩
      exact settled.live
    · rintro fault s ⟨-, cause, same, levels, text⟩
      have stayed : walk.Stayed terms reader s.1 := by
        refine ⟨same, text, ?_⟩
        rw [levels]
        exact .refl terms reader _ _
      exact ⟨.open (same.closed.trans opened) same.settings (stayed.sound sound),
        .inr ⟨opened, cause⟩⟩

/-- No advance closes a walk, and no reset does. -/
theorem advance_opened_meets (sound : walk.Sound root) (opened : walk.closed = false) :
    (advance reader patience).Meets (walk, world) (fun _ s => s.1.closed = false)
      fun _ s => s.1.closed = false := by
  have covers := Terms.any_covers reader
  by_cases ended : walk.isEmpty = true
  · rw [Act.Meets, advance_of_isEmpty opened ended]
    exact opened
  · refine (advance_meets (rounds_of_covers covers) sound opened (eq_false_of_ne_true ended)
      (step_sound_meets covers sound trivial)).mono (fun _ _ done => done.2.opened) ?_
    rintro fault s ⟨-, -, interrupted⟩
    cases interrupted with
    | stayed stayed => exact stayed.same.closed.trans opened
    | under _ setup => exact setup.closed.trans opened

theorem reset_opened_meets (sound : walk.Sound root) (opened : walk.closed = false) :
    (reset reader patience).Meets (walk, world) (fun _ s => s.1.closed = false)
      fun _ s => s.1.closed = false := by
  have covers := Terms.any_covers reader
  refine (reset_meets (rounds_of_covers covers) sound opened
    (covers.serves _ (Level.fresh_holds _ _))
    (fun before after rooted opened => opened.sound rooted.sound rooted.bare) trivial).mono
    (fun _ _ done => done.2.opened) ?_
  rintro fault s ⟨-, -, same, -⟩
  exact same.closed.trans opened

theorem Live.of_opened (live : walk.Live settings root) (opened : walk.closed = false) :
    walk.settings = settings ∧ walk.Sound root := by
  cases live with
  | shut closed _ _ =>
    rw [opened] at closed
    cases closed
  | «open» _ same sound => exact ⟨same, sound⟩

/-- Advances leave sound walks that are open, and so do resets. -/
theorem advance_sound_meets (sound : walk.Sound root) (opened : walk.closed = false) :
    (advance reader patience).Meets (walk, world) (fun _ s => s.1.closed = false ∧ s.1.Sound root)
      fun _ s => s.1.closed = false ∧ s.1.Sound root := by
  have live : (advance reader patience).Meets (walk, world) _ _ :=
    advance_live_meets (Terms.any_covers reader) (.open opened rfl sound) trivial
  exact ((advance_opened_meets sound opened).and live).mono
    (fun _ _ done => ⟨done.1, (done.2.of_opened done.1).2⟩)
    fun _ _ failed => ⟨failed.1, (failed.2.1.of_opened failed.1).2⟩

theorem reset_sound_meets (sound : walk.Sound root) (opened : walk.closed = false) :
    (reset reader patience).Meets (walk, world) (fun _ s => s.1.closed = false ∧ s.1.Sound root)
      fun _ s => s.1.closed = false ∧ s.1.Sound root := by
  have live : (reset reader patience).Meets (walk, world) _ _ :=
    reset_live_meets (Terms.any_covers reader) (.open opened rfl sound) trivial
  exact ((reset_opened_meets sound opened).and live).mono
    (fun _ _ done => ⟨done.1, (done.2.of_opened done.1).2⟩)
    fun _ _ failed => ⟨failed.1, (failed.2.1.of_opened failed.1).2⟩

theorem Reachable.live (reached : Reachable reader plan walk) :
    ∃ settings, plan.settings? reader.separator = .ok settings ∧
      walk.Live settings plan.path := by
  have covers := Terms.any_covers reader
  induction reached with
  | start run => exact ((start_live_meets covers trivial).of_ok run).2
  | advance patience world _ ih =>
    obtain ⟨settings, planned, live⟩ := ih
    exact ⟨settings, planned, Act.Meets.leaves
      ((advance_live_meets covers live trivial).mono (fun _ _ live => live)
        fun _ _ failed => failed.1)⟩
  | reset patience world _ ih =>
    obtain ⟨settings, planned, live⟩ := ih
    exact ⟨settings, planned, Act.Meets.leaves
      ((reset_live_meets covers live trivial).mono (fun _ _ live => live)
        fun _ _ failed => failed.1)⟩
  | @close walk world _ ih =>
    obtain ⟨settings, planned, live⟩ := ih
    refine ⟨settings, planned, ?_⟩
    cases live with
    | shut closed bare unheld =>
      rw [Walk.close, closed]
      exact .shut closed bare unheld
    | «open» opened _ _ =>
      rw [Walk.close, opened]
      exact .shut rfl rfl rfl

end Walk

/-! ## Walks in order -/

deriving instance DecidableEq for World

/-- A reader of one listing, which it has for every path. -/
def Reader.ofListing (listing : List Entry) : Reader Unit :=
  ⟨[CodePoint.solidus], fun call source => (call.fill listing, source)⟩

/-- The record of a file with a name of one byte. -/
def Record.ofFile (name : UInt8) : Bytes := Bytes.zeros 16 ++ [1, 0, 0, 0, name, 0, 0, 0]

/-- A walk at `A` on the first record of a buffer, which is such a file's. -/
def Walk.atFile (settings : Settings) (buffer : Bytes) (cursor : Int) : Walk :=
  ⟨settings, ⟨[0x41], [], 64⟩, 1, [⟨1, buffer, cursor, some ⟨0, 1, 0⟩⟩], none, false⟩

/-- The current record of a level and those behind it parse inside the buffer. -/
structure Level.Parsed (level : Level) : Prop where
  none_iff : level.remaining = 0 ↔ level.current = none
  records : ∀ place, level.current = some place →
    Record.check level.buffer level.remaining place.offset = .ok ()
  nameLength : ∀ place, level.current = some place →
    Record.nameLength level.buffer place.offset = .ok place.nameLength

private theorem Level.Holds.parsed {level : Level} {records : List Stored}
    (holds : level.Holds records) : level.Parsed := by
  cases records with
  | nil =>
    have none' := Level.holds_nil_iff.mp holds
    refine ⟨⟨fun _ => none', fun _ => holds.remaining⟩, ?_, ?_⟩ <;>
    · intro place found
      rw [none'] at found
      cases found
  | cons record records =>
    obtain ⟨offset, current, row⟩ := Level.holds_cons_iff.mp holds
    refine ⟨⟨?_, ?_⟩, ?_, ?_⟩
    · intro ended
      rw [holds.remaining] at ended
      cases ended
    · intro none'
      rw [none'] at current
      cases current
    · intro place found
      rw [current] at found
      cases found
      rw [holds.remaining]
      exact row.check
    · intro place found
      rw [current] at found
      cases found
      exact row.1.nameLength

namespace Walk

variable {reader : Reader ρ} {root : Text} {walk : Walk} {plan : Plan} {settings : Settings}

/-- The invariants of an open walk between two calls. -/
structure InOrder (root : Text) (walk : Walk) : Prop where
  parsed : ∀ level ∈ walk.levels, level.Parsed
  standing : ∀ level, walk.levels.head? = some level → 1 ≤ level.remaining
  top : ∀ level, walk.levels.head? = some level → level.pathLength = walk.path.text.length
  deeper : walk.levels.Pairwise fun deeper shallower => shallower.pathLength ≤ deeper.pathLength
  bottom : ∀ level, walk.levels.getLast? = some level → level.pathLength = root.length
  rootLength : walk.rootLength = root.length
  below : root <+: walk.path.text
  drained : walk.levels = [] → walk.path.text = root

private theorem Sound.inOrder (sound : walk.Sound root) : walk.InOrder root where
  parsed level member :=
    have ⟨_, holds⟩ := sound.stack.holds level member
    holds.parsed
  standing level found := (sound.top level found).1
  top level found := (sound.top level found).2
  deeper := sound.stack.deeper
  bottom := sound.stack.bottom
  rootLength := sound.rootLength
  below := sound.below
  drained := sound.drained

/-- What the questions about a walk can be refused for. -/
structure Answers (walk : Walk) : Prop where
  information : ∃ shown, walk.information = .ok shown
  objectType : ∀ shown fault, walk.information = .ok (shown, .error fault) →
    ∃ objectType, fault = .badObjectType objectType
  name : ∀ kind fault, walk.name kind = .error fault → fault = .unencodable
  copyName : ∀ kind buffer size fault, walk.copyName kind buffer size = .error fault →
    fault = .unencodable ∨ ∃ size, fault = .smallBuffer size
  summary : ∀ fault, walk.summary = .error fault → fault = .unencodable

private theorem storedName_error {shown : Option Position} (position : walk.position = .ok shown)
    {kind : NameKind} {fault : Fault} (refused : walk.storedName kind = .error fault) :
    fault = .unencodable := by
  unfold storedName at refused
  rw [position] at refused
  cases shown with
  | none => cases refused
  | some shown =>
    simp only [bind, Except.bind] at refused
    split at refused
    · split at refused
      · split at refused
        · cases refused
        · cases refused
          rfl
      · cases refused
    · cases refused

private theorem name_error {shown : Option Position} (position : walk.position = .ok shown)
    {kind : NameKind} {fault : Fault} (refused : walk.name kind = .error fault) :
    fault = .unencodable := by
  unfold name at refused
  cases stored : walk.storedName kind with
  | ok bytes =>
    rw [stored] at refused
    cases refused
  | error cause =>
    rw [stored] at refused
    cases refused
    exact storedName_error position stored

private theorem information_error {found : Option Information} {fault : Fault}
    (told : walk.information = .ok (found, .error fault)) :
    ∃ objectType, fault = .badObjectType objectType := by
  unfold information at told
  cases position : walk.position with
  | error cause =>
    rw [position] at told
    cases told
  | ok shown =>
    rw [position] at told
    cases shown with
    | none => cases told
    | some shown =>
      simp only [bind, Except.bind, pure, Except.pure, Except.ok.injEq, Prod.mk.injEq] at told
      have refused := told.2
      unfold Position.objectType at refused
      split at refused
      · cases refused
      · cases refused
        exact ⟨_, rfl⟩

private theorem copyRoom_error {buffer : Option Bytes} {size : Option Int} {fault : Fault}
    (refused : copyRoom buffer size = .error fault) : ∃ size, fault = .smallBuffer size := by
  unfold copyRoom at refused
  dsimp only at refused
  split at refused
  · cases refused
    exact ⟨_, rfl⟩
  · cases refused

private theorem copyName_error {shown : Option Position} (position : walk.position = .ok shown)
    {kind : NameKind} {buffer : Option Bytes} {size : Option Int} {fault : Fault}
    (refused : walk.copyName kind buffer size = .error fault) :
    fault = .unencodable ∨ ∃ size, fault = .smallBuffer size := by
  unfold copyName at refused
  cases room : copyRoom buffer size with
  | error cause =>
    rw [room] at refused
    cases refused
    exact .inr (copyRoom_error room)
  | ok room' =>
    rw [room] at refused
    cases stored : walk.storedName kind with
    | ok bytes =>
      simp only [stored, bind, Except.bind] at refused
      cases refused
    | error cause =>
      simp only [stored, bind, Except.bind] at refused
      cases refused
      exact .inl (storedName_error position stored)

private theorem summary_error {shown : Option Position} (position : walk.position = .ok shown)
    {fault : Fault} (refused : walk.summary = .error fault) : fault = .unencodable := by
  unfold summary at refused
  by_cases closed : walk.closed = true
  · simp only [closed, if_true, pure, Except.pure, bind, Except.bind] at refused
    cases refused
  by_cases ended : walk.isEmpty = true
  · simp only [eq_false_of_ne_true closed, ended, Bool.false_eq_true, if_false, if_true, pure,
      Except.pure, bind, Except.bind] at refused
    cases refused
  simp only [eq_false_of_ne_true closed, eq_false_of_ne_true ended, Bool.false_eq_true, if_false,
    pure, Except.pure, bind, Except.bind] at refused
  cases named : walk.name .path with
  | ok name =>
    rw [named] at refused
    cases refused
  | error cause =>
    rw [named] at refused
    cases refused
    exact name_error position named

/-- A walk that knows what it shows answers every question. -/
private theorem answers_of_position {shown : Option Position}
    (position : walk.position = .ok shown) : walk.Answers where
  information := by
    unfold Walk.information
    rw [position]
    cases shown with
    | none => exact ⟨_, rfl⟩
    | some shown => exact ⟨_, rfl⟩
  objectType _ _ := information_error
  name _ _ := name_error position
  copyName _ _ _ _ := copyName_error position
  summary _ := summary_error position

private theorem Live.exists_position (live : walk.Live settings root) :
    ∃ shown, walk.position = .ok shown := by
  cases live with
  | «open» _ _ sound => exact sound.exists_position
  | shut _ bare unheld =>
    refine ⟨none, ?_⟩
    rw [position, unheld]
    exact livePosition_of_nil bare

/-- Whatever its reader answers and however often its memory is refused, a walk is in order between
two calls, it can be asked anything then, and the faults of its calls come from outside. -/
theorem inOrder_of_reachable (reader : Reader ρ) (plan : Plan) :
    (∀ patience world fault after, start reader patience plan world = .error fault after →
      plan.settings? reader.separator = .error fault ∨ reader.Causes fault) ∧
    ∀ walk, Reachable reader plan walk →
      (walk.closed = false → walk.InOrder plan.path) ∧ walk.Answers ∧
      (∀ patience world fault after,
        (advance reader patience (walk, world) = .error fault after ∨
          reset reader patience (walk, world) = .error fault after) →
        walk.closed = true ∧ fault = .closed ∨ walk.closed = false ∧ reader.Causes fault) := by
  have covers := Terms.outside_covers reader
  constructor
  · intro patience world fault after failed
    exact (start_live_meets covers trivial).of_error failed
  · intro walk reached
    obtain ⟨settings, -, live⟩ := reached.live
    obtain ⟨shown, position⟩ := live.exists_position
    refine ⟨?_, answers_of_position position, ?_⟩
    · intro opened
      cases live with
      | «open» _ _ sound => exact sound.inOrder
      | shut closed _ _ =>
        rw [opened] at closed
        cases closed
    · rintro patience world fault after (failed | failed)
      · exact ((advance_live_meets covers live trivial).of_error failed).2
      · exact ((reset_live_meets covers live trivial).of_error failed).2

/-- A walk on the first of two files, which a full ledger keeps from the second. -/
theorem inOrder_on_first_of_two :
    let reader := Reader.ofListing [⟨[0x61], 1, 0, 0, 0, 0⟩, ⟨[0x62], 1, 0, 0, 0, 0⟩]
    let plan : Plan := ⟨[0x41], 0, none, 24, 1⟩
    let walk := atFile ⟨false, false, none, 24, 1, [0x2F]⟩ (Record.ofFile 0x61) 1
    let full : World Unit := ⟨⟨some 0, 0, 0, none⟩, ()⟩
    start reader 3 plan ⟨⟨none, 0, 0, none⟩, ()⟩ = .ok walk ⟨⟨none, 120, 2, none⟩, ()⟩ ∧
    walk.InOrder plan.path ∧ walk.Answers ∧
    start reader 3 plan full = .error (.outOfMemory 64 0) full ∧
    reader.Causes (.outOfMemory 64 0) ∧
    advance reader 3 (walk, full) = .error (.outOfMemory 24 0) (walk, full) ∧
    reader.Causes (.outOfMemory 24 0) := by
  intro reader plan walk full
  have started : start reader 3 plan ⟨⟨none, 0, 0, none⟩, ()⟩ =
      .ok walk ⟨⟨none, 120, 2, none⟩, ()⟩ := by decide +kernel
  have refused : start reader 3 plan full = .error (.outOfMemory 64 0) full := by
    decide +kernel
  have failed : advance reader 3 (walk, full) = .error (.outOfMemory 24 0) (walk, full) := by
    decide +kernel
  obtain ⟨starts, calls⟩ := inOrder_of_reachable reader plan
  obtain ⟨order, answers, faults⟩ := calls walk (.start started)
  refine ⟨started, order rfl, answers, refused, ?_, failed, ?_⟩
  · exact (starts 3 full _ _ refused).resolve_left fun unplanned => by cases unplanned
  · exact ((faults 3 full _ _ (.inl failed)).resolve_left fun closed => by cases closed.1).2

end Walk

end Catwalk
