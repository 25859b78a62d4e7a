import Catwalk.Proofs.Walks
import Mathlib.Data.List.Forall2

/-!
# Outcomes of steps

What one step of a sound walk can do, said once for every reader. A step that succeeds enters the
current object, or moves on in its directory, or leaves that for the first directory above with a
record left (`Stepped`). A step that fails leaves the walk where it is: its levels may have been
refilled, but each still holds what it held in front of what it took in (`Stayed`).
-/

namespace Catwalk

variable {ρ : Type} {reader : Reader ρ} {patience : Nat}

/-- Refills of a level keep to the terms. -/
def Terms.Serves (terms : Terms ρ) (reader : Reader ρ) (patience : Nat) (request : Request)
    (level : Level) : Prop :=
  level.isExhausted = false → level.remaining ≤ 1 → ∀ world, terms.world world →
    (Level.refill reader patience request).Meets (level, world) (fun _ s => terms.world s.2)
      fun fault s => terms.world s.2 ∧ terms.cause fault

theorem Terms.releaseAll (terms : Terms ρ) (levels : LevelStack) {world : World ρ}
    (w : terms.world world) : terms.world (world.updateLedger (LevelStack.release levels)) := by
  induction levels generalizing world with
  | nil => exact w
  | cons level levels ih => exact ih (terms.release level.charge world w)

theorem Terms.Covers.serves {terms : Terms ρ} (covers : terms.Covers reader) (request : Request)
    {level : Level} {kept : List Stored} (holds : level.Holds kept) :
    terms.Serves reader patience request level := by
  intro more last world w
  rw [holds.remaining] at last
  exact (Level.refill_meets terms covers holds last more w).mono (fun _ _ done => done.1)
    fun _ _ failed => ⟨failed.1, failed.2.1⟩

namespace Level

/-- A level for a directory that has not been read. -/
def fresh (pathLength size : Nat) : Level := ⟨pathLength, Bytes.zeros size, cursorStart, none⟩

theorem fresh_holds (pathLength size : Nat) : (fresh pathLength size).Holds [] :=
  holds_nil_iff.mpr rfl

variable {terms : Terms ρ} {request : Request}

private theorem refill_serves {level : Level} {world : World ρ} {kept : List Stored}
    (serves : terms.Serves reader patience request level) (holds : level.Holds kept)
    (last : kept.length ≤ 1) (more : level.isExhausted = false) (w : terms.world world) :
    (refill reader patience request).Meets (level, world)
      (fun _ s => terms.world s.2 ∧ level.Filled terms reader request s.1 ∧
        (s.1.remaining ≤ level.remaining → s.1.isExhausted = true))
      fun fault s => terms.world s.2 ∧ terms.cause fault ∧
        level.Tried terms reader request s.1 := by
  have few : level.remaining ≤ 1 := by
    rw [holds.remaining]
    exact last
  have served := serves more few world w
  have filled : (refill reader patience request).Meets (level, world) _ _ :=
    refill_meets (Terms.any ρ) (Terms.any_covers reader) holds last more trivial
  rw [Act.meets_iff] at served filled ⊢
  constructor
  · intro n s run
    obtain ⟨-, -, ended, fresh, number, holds'⟩ := filled.1 n s run
    refine ⟨served.1 n s run, ⟨patience, world, s.2, n, w, run⟩, fun none' => ended ?_⟩
    rw [holds'.remaining, holds.remaining, List.length_append] at none'
    omega
  · intro fault s run
    obtain ⟨held, cause⟩ := served.2 fault s run
    exact ⟨held, cause, Tried.of_error w run⟩

theorem allocate_meets {world : World ρ} (pathLength size : Nat) (w : terms.world world) :
    (World.charging (allocate pathLength size)).Meets world
      (fun level w => terms.world w ∧ level = fresh pathLength size)
      fun fault w => terms.world w ∧ terms.cause fault := by
  have reserved := terms.reserve (headerSize + size) world w
  have whole : ¬ (size : Int) < 0 := by omega
  unfold World.charging allocate Ledger.reserveFor at *
  simp only [Act.meets_within, Act.meets_bind, Act.meets_get, if_neg whole, Act.meets_pure]
    at reserved ⊢
  exact reserved.mono (fun _ _ w => ⟨w, rfl⟩) fun _ _ failed => failed

/-- Entering a directory yields its level with a record to stand on, or nothing when it is found to
be empty. -/
private theorem enter?_meets {world : World ρ} {pathLength size : Nat}
    (serves : terms.Serves reader patience request (fresh pathLength size))
    (w : terms.world world) :
    (enter? reader patience request pathLength size).Meets world
      (fun found w => terms.world w ∧
        match found with
        | some inner =>
          (fresh pathLength size).Filled terms reader request inner ∧ 0 < inner.remaining
        | none =>
          ∃ filled, (fresh pathLength size).Filled terms reader request filled ∧
            filled.remaining = 0)
      fun fault w => terms.world w ∧ terms.cause fault := by
  refine Act.meets_bind.mpr ((allocate_meets pathLength size w).mono ?_ fun _ _ failed => failed)
  rintro _ world ⟨w, rfl⟩
  have filled := refill_serves serves (fresh_holds pathLength size) (Nat.zero_le _) rfl w
  unfold Act.Meets
  dsimp only
  cases run : refill reader patience request (fresh pathLength size, world) with
  | ok n s =>
    obtain ⟨w, filled, -⟩ := filled.of_ok run
    dsimp only
    by_cases empty : s.1.remaining = 0
    · rw [if_pos empty]
      exact ⟨terms.release _ _ w, s.1, filled, empty⟩
    · rw [if_neg empty]
      exact ⟨w, filled, Nat.pos_of_ne_zero empty⟩
  | error fault s =>
    obtain ⟨w, cause, -⟩ := filled.of_error run
    exact ⟨terms.release _ _ w, cause⟩

end Level

namespace PathBuffer

variable {terms : Terms ρ} {world : World ρ}

theorem append_meets (buffer : PathBuffer) (text : Text) (w : terms.world world) :
    (World.charging (buffer.append text)).Meets world
      (fun path w => terms.world w ∧ path.text = buffer.text ++ text ∧ path.saved = buffer.text ∧
        buffer.capacity ≤ path.capacity ∧ path.text.length < path.capacity)
      fun fault w => terms.world w ∧ terms.cause fault := by
  have room := buffer.le_capacityFor (buffer.text.length + text.length + 1)
  have reserved := terms.reserve
    (buffer.capacityFor (buffer.text.length + text.length + 1) - buffer.capacity : Nat) world w
  unfold World.charging append at *
  simp only [Act.meets_within, Act.meets_bind, Act.meets_pure] at reserved ⊢
  refine reserved.mono ?_ fun _ _ failed => failed
  intro _ ledger w
  refine ⟨w, trivial, trivial, room.2, ?_⟩
  rw [List.length_append]
  exact room.1

theorem appendSeparated_meets (buffer : PathBuffer) (settings : Settings) (text : Text)
    (w : terms.world world) :
    (World.charging (buffer.appendSeparated settings.separator text)).Meets world
      (fun path w => terms.world w ∧ path.text = settings.child buffer.text text ∧
        path.saved = buffer.text ∧ buffer.capacity ≤ path.capacity ∧
        path.text.length < path.capacity)
      fun fault w => terms.world w ∧ terms.cause fault := by
  unfold appendSeparated Settings.child
  by_cases empty : buffer.text.isEmpty = true
  · rw [if_pos empty, if_pos empty]
    have appended := buffer.append_meets text w
    rw [List.isEmpty_iff.mp empty] at appended ⊢
    exact appended
  · rw [if_neg empty, if_neg empty]
    exact buffer.append_meets _ w

end PathBuffer

namespace Walk

/-- Walks that differ in their levels, their paths and what they hold on to at most, the second with
as much room for its path as the first or more. -/
structure SameSetup (before after : Walk) : Prop where
  settings : after.settings = before.settings
  rootLength : after.rootLength = before.rootLength
  closed : after.closed = before.closed
  capacity : before.path.capacity ≤ after.path.capacity

protected theorem SameSetup.refl (walk : Walk) : walk.SameSetup walk :=
  ⟨rfl, rfl, rfl, Nat.le_refl _⟩

theorem SameSetup.trans {first second third : Walk} (left : first.SameSetup second)
    (right : second.SameSetup third) : first.SameSetup third :=
  ⟨right.settings.trans left.settings, right.rootLength.trans left.rootLength,
    right.closed.trans left.closed, Nat.le_trans left.capacity right.capacity⟩

/-- Walks that differ in their levels and paths at most. -/
structure Same (before after : Walk) : Prop extends before.SameSetup after where
  held : after.held = before.held

protected theorem Same.refl (walk : Walk) : walk.Same walk := ⟨.refl walk, rfl⟩

theorem Same.trans {first second third : Walk} (left : first.Same second)
    (right : second.Same third) : first.Same third :=
  ⟨left.toSameSetup.trans right.toSameSetup, right.held.trans left.held⟩

/-- The path of what is below the walk's directory under a stored name. -/
def childPath (walk : Walk) (record : Stored) : Text :=
  walk.settings.child walk.path.text (Text.decode record.name)

/-- The level of a directory below the walk's before it is read. -/
def freshLevel (walk : Walk) (record : Stored) : Level :=
  .fresh (walk.childPath record).length walk.settings.bufferSize

/-- What reading that directory asks for. -/
def childRequest (walk : Walk) (record : Stored) : Request :=
  walk.settings.request (walk.childPath record)

/-- The walk does not go into an object: it may not, or it finds nothing there. -/
def Declines (terms : Terms ρ) (reader : Reader ρ) (walk : Walk) (record : Stored) : Prop :=
  walk.settings.enters record.header.objectType = false ∨
    ∃ filled, (walk.freshLevel record).Filled terms reader (walk.childRequest record) filled ∧
      filled.remaining = 0

variable {terms : Terms ρ} {walk : Walk} {world : World ρ}

theorem openDirectory_meets (w : terms.world world)
    (serves : terms.Serves reader patience (walk.settings.request walk.path.text)
      (.fresh walk.path.text.length walk.settings.bufferSize)) :
    (openDirectory reader patience).Meets (walk, world)
      (fun found s => s.1 = walk ∧ terms.world s.2 ∧
        match found with
        | some inner =>
          (Level.fresh walk.path.text.length walk.settings.bufferSize).Filled terms reader
            (walk.settings.request walk.path.text) inner ∧ 0 < inner.remaining
        | none =>
          ∃ filled, (Level.fresh walk.path.text.length walk.settings.bufferSize).Filled terms reader
            (walk.settings.request walk.path.text) filled ∧ filled.remaining = 0)
      fun fault s => s.1 = walk ∧ terms.world s.2 ∧ terms.cause fault := by
  unfold openDirectory getWalk around
  simp only [Act.meets_bind, Act.meets_get, Act.meets_pure, Act.meets_within]
  exact (Level.enter?_meets serves w).mono (fun _ _ done => ⟨trivial, done⟩)
    fun _ _ failed => ⟨trivial, failed⟩

/-- Going down ends in the directory below with a record to stand on, or where it began. -/
theorem descend?_meets {level : Level} {record : Stored} {records : List Stored}
    (holds : level.Holds (record :: records)) (w : terms.world world)
    (serves : walk.settings.enters record.header.objectType = true →
      terms.Serves reader patience (walk.childRequest record) (walk.freshLevel record)) :
    (descend? reader patience level).Meets (walk, world)
      (fun found s => terms.world s.2 ∧ walk.Same s.1 ∧ s.1.levels = walk.levels ∧
        match found with
        | some inner => walk.settings.enters record.header.objectType = true ∧
            s.1.path.text = walk.childPath record ∧ s.1.path.text.length < s.1.path.capacity ∧
            (walk.freshLevel record).Filled terms reader (walk.childRequest record) inner ∧
            0 < inner.remaining
        | none => s.1.path.text = walk.path.text ∧ walk.Declines terms reader record)
      fun fault s => terms.world s.2 ∧ terms.cause fault ∧ walk.Same s.1 ∧
        s.1.levels = walk.levels ∧ s.1.path.text = walk.path.text := by
  unfold descend? getWalk
  simp only [Act.meets_bind, Act.meets_get, Act.meets_pure, Act.meets_ofExcept, holds.objectType,
    holds.name]
  by_cases enters : walk.settings.enters record.header.objectType = true
  · rw [if_pos enters]
    unfold around change undoPath change
    simp only [Act.meets_bind, Act.meets_within, Act.meets_ofExcept, Act.meets_modify]
    refine (walk.path.appendSeparated_meets walk.settings _ w).mono ?_ ?_
    · rintro path world ⟨w, text, saved, capacity, fits⟩
      have opened : (openDirectory reader patience).Meets ({ walk with path }, world) _ _ :=
        openDirectory_meets w (by rw [text]; exact serves enters)
      simp only [Act.meets_onFault, Act.meets_modify]
      refine opened.mono ?_ ?_
      · rintro found ⟨_, world⟩ ⟨rfl, w, entered⟩
        rw [text] at entered
        cases found with
        | some inner =>
          exact ⟨w, ⟨⟨rfl, rfl, rfl, capacity⟩, rfl⟩, rfl, enters, text, fits, entered⟩
        | none =>
          exact ⟨w, ⟨⟨rfl, rfl, rfl, capacity⟩, rfl⟩, rfl, saved, .inr entered⟩
      · rintro fault ⟨_, world⟩ ⟨rfl, w, cause⟩
        exact ⟨w, cause, ⟨⟨rfl, rfl, rfl, capacity⟩, rfl⟩, rfl, saved⟩
    · rintro fault world ⟨w, cause⟩
      exact ⟨w, cause, .refl walk, trivial, trivial⟩
  · rw [if_neg enters]
    exact ⟨w, .refl walk, rfl, rfl, .inl (Bool.not_eq_true _ ▸ enters)⟩

/-! ## Going up -/

theorem settle_meets (done : LevelStack) {left : LevelStack} (w : terms.world world)
    (short : left.ground walk.rootLength ≤ walk.path.text.length) :
    (settle done left).Meets (walk, world)
      (fun _ s => terms.world s.2 ∧ walk.Same s.1 ∧ s.1.levels = left ∧
        s.1.path.text = walk.path.text.take (left.ground walk.rootLength))
      fun _ _ => False := by
  have target : ((match left with
      | level :: _ => level.pathLength
      | [] => walk.rootLength : Nat) : Int) = (left.ground walk.rootLength : Nat) := by
    cases left <;> rfl
  have cut : walk.path.truncate (left.ground walk.rootLength : Nat) =
      .ok { walk.path with
        text := walk.path.text.take (left.ground walk.rootLength)
        saved := walk.path.text } := by
    rw [PathBuffer.truncate, if_pos ⟨Int.natCast_nonneg _, Int.ofNat_le.mpr short⟩]
    rfl
  unfold settle changePath getWalk change
  simp only [Act.meets_bind, Act.meets_get, Act.meets_pure, Act.meets_modify, Act.meets_ofExcept]
  cases left with
  | nil =>
    rw [LevelStack.ground] at cut
    rw [cut]
    exact ⟨terms.releaseAll _ w, ⟨⟨rfl, rfl, rfl, Nat.le_refl _⟩, rfl⟩, trivial, rfl⟩
  | cons level shallower =>
    rw [LevelStack.ground] at cut
    dsimp only
    rw [cut]
    exact ⟨terms.releaseAll _ w, ⟨⟨rfl, rfl, rfl, Nat.le_refl _⟩, rfl⟩, trivial, rfl⟩

/-- Refilling one of the levels at the walk's path. -/
private theorem refillBetween_meets {deeper shallower : LevelStack} {level : Level}
    {kept : List Stored}
    (holds : level.Holds kept) (last : kept.length ≤ 1) (more : level.isExhausted = false)
    (serves : terms.Serves reader patience (walk.settings.request walk.path.text) level)
    (w : terms.world world) :
    (refillBetween reader patience deeper level shallower).Meets (walk, world)
      (fun filled s => terms.world s.2 ∧
        s.1 = { walk with levels := deeper ++ filled :: shallower } ∧
        level.Filled terms reader (walk.settings.request walk.path.text) filled ∧
        (filled.remaining ≤ level.remaining → filled.isExhausted = true))
      fun fault s => terms.world s.2 ∧ terms.cause fault ∧
        ∃ tried, level.Tried terms reader (walk.settings.request walk.path.text) tried ∧
          s.1 = { walk with levels := deeper ++ tried :: shallower } := by
  have outcome := Level.refill_serves serves holds last more w
  unfold Act.Meets refillBetween
  dsimp only
  cases run : Level.refill reader patience (walk.settings.request walk.path.text)
      (level, world) with
  | ok n s =>
    obtain ⟨w, filled, ended⟩ := outcome.of_ok run
    exact ⟨w, rfl, filled, ended⟩
  | error fault s =>
    obtain ⟨w, cause, tried⟩ := outcome.of_error run
    exact ⟨w, cause, s.1, tried, rfl⟩

/-- Refilling a level above the deepest one leaves the path as it was, whatever comes of it. -/
theorem refillAbove_meets {deeper shallower : LevelStack} {level : Level}
    (holds : level.Holds []) (more : level.isExhausted = false)
    (short : level.pathLength ≤ walk.path.text.length)
    (serves : terms.Serves reader patience (walk.settings.requestAt walk.path.text level) level)
    (w : terms.world world) :
    (refillAbove reader patience deeper level shallower).Meets (walk, world)
      (fun filled s => terms.world s.2 ∧ walk.Same s.1 ∧ s.1.path.text = walk.path.text ∧
        level.Filled terms reader (walk.settings.requestAt walk.path.text level) filled ∧
        (filled.remaining ≤ level.remaining → filled.isExhausted = true))
      fun fault s => terms.world s.2 ∧ terms.cause fault ∧ walk.Same s.1 ∧
        s.1.path.text = walk.path.text ∧
        ∃ tried, level.Tried terms reader (walk.settings.requestAt walk.path.text level) tried ∧
          s.1.levels = deeper ++ tried :: shallower := by
  have cut : walk.path.truncate level.pathLength =
      .ok { walk.path with
        text := walk.path.text.take level.pathLength, saved := walk.path.text } := by
    rw [PathBuffer.truncate, if_pos ⟨Int.natCast_nonneg _, Int.ofNat_le.mpr short⟩]
    rfl
  unfold refillAbove changePath undoPath getWalk change
  simp only [Act.meets_bind, Act.meets_get, Act.meets_pure, Act.meets_modify, Act.meets_ofExcept,
    Act.meets_onFault]
  rw [cut]
  have filled : (refillBetween reader patience deeper level shallower).Meets
      ({ walk with path := { walk.path with
        text := walk.path.text.take level.pathLength, saved := walk.path.text } }, world) _ _ :=
    refillBetween_meets holds (Nat.zero_le _) more serves w
  refine filled.mono ?_ ?_
  · rintro filled ⟨_, world⟩ ⟨w, rfl, filled, ended⟩
    exact ⟨w, ⟨⟨rfl, rfl, rfl, Nat.le_refl _⟩, rfl⟩, rfl, filled, ended⟩
  · rintro fault ⟨_, world⟩ ⟨w, cause, tried, attempt, rfl⟩
    exact ⟨w, cause, ⟨⟨rfl, rfl, rfl, Nat.le_refl _⟩, rfl⟩, rfl, tried, attempt, rfl⟩

end Walk

/-- Levels that have been refilled at most. -/
def LevelStack.Tried (terms : Terms ρ) (reader : Reader ρ) (ask : Level → Request)
    (levels tried : LevelStack) : Prop :=
  List.Forall₂ (fun level left => level.Tried terms reader (ask level) left) levels tried

theorem LevelStack.Tried.refl (terms : Terms ρ) (reader : Reader ρ) (ask : Level → Request)
    (levels : LevelStack) : LevelStack.Tried terms reader ask levels levels :=
  List.forall₂_same.mpr fun _ _ => .inl rfl

/-- Where a walk lands when it goes up through levels: on the first that has a record left once it
has been refilled if need be, and nowhere if there is none. -/
inductive Landing (terms : Terms ρ) (reader : Reader ρ) (ask : Level → Request) :
    LevelStack → LevelStack → Prop
  | nowhere : Landing terms reader ask [] []
  | here {level landed : Level} {levels : LevelStack} :
      level.Tried terms reader (ask level) landed → 0 < landed.remaining →
      Landing terms reader ask (level :: levels) (landed :: levels)
  | past {level done : Level} {levels landed : LevelStack} :
      level.Tried terms reader (ask level) done → done.remaining = 0 → done.isExhausted = true →
      Landing terms reader ask levels landed → Landing terms reader ask (level :: levels) landed

namespace Walk

variable {terms : Terms ρ} {walk : Walk} {world : World ρ}

/-- What going up through the levels that are `left` comes to. -/
structure Landed (terms : Terms ρ) (reader : Reader ρ) (walk : Walk) (left : LevelStack)
    (s : Scene ρ) : Prop where
  world : terms.world s.2
  same : walk.Same s.1
  landing : Landing terms reader (walk.settings.requestAt walk.path.text) left s.1.levels
  text : s.1.path.text = walk.path.text.take (s.1.levels.ground walk.rootLength)

/-- What going up leaves when it fails: the levels that were `done`, and those that were `left` as
far as they have been refilled. -/
structure Stuck (terms : Terms ρ) (reader : Reader ρ) (walk : Walk) (done left : LevelStack)
    (fault : Fault) (s : Scene ρ) : Prop where
  world : terms.world s.2
  cause : terms.cause fault
  same : walk.Same s.1
  text : s.1.path.text = walk.path.text
  levels : ∃ tried, s.1.levels = done ++ tried ∧
    LevelStack.Tried terms reader (walk.settings.requestAt walk.path.text) left tried

section
variable {after : Walk} {level spent : Level} {done shallower : LevelStack} {fault : Fault}
  {s : Scene ρ}

/-- A walk that lands further up has passed the level before. -/
private theorem Landed.past (landed : after.Landed terms reader shallower s)
    (same : walk.Same after) (text : after.path.text = walk.path.text)
    (attempt : level.Tried terms reader (walk.settings.requestAt walk.path.text level) spent)
    (none' : spent.remaining = 0) (ended : spent.isExhausted = true) :
    walk.Landed terms reader (level :: shallower) s := by
  obtain ⟨w, same', landing, text'⟩ := landed
  rw [same.settings, text] at landing
  rw [same.rootLength, text] at text'
  exact ⟨w, same.trans same', .past attempt none' ended landing, text'⟩

private theorem Stuck.past (stuck : after.Stuck terms reader (done ++ [spent]) shallower fault s)
    (same : walk.Same after) (text : after.path.text = walk.path.text)
    (attempt : level.Tried terms reader (walk.settings.requestAt walk.path.text level) spent) :
    walk.Stuck terms reader done (level :: shallower) fault s := by
  obtain ⟨w, cause, same', text', tried, levels, attempts⟩ := stuck
  rw [same.settings, text] at attempts
  refine ⟨w, cause, same.trans same', text'.trans text, spent :: tried, ?_, .cons attempt attempts⟩
  rw [levels, List.append_assoc]
  rfl

/-- A walk lands on a level that has a record left, refilled or not. -/
private theorem settle_here_meets (done : LevelStack) (same : walk.Same after)
    (text : after.path.text = walk.path.text)
    (attempt : level.Tried terms reader (walk.settings.requestAt walk.path.text level) spent)
    (standing : 0 < spent.remaining) (near : spent.pathLength ≤ walk.path.text.length)
    (w : terms.world world) :
    (settle done (spent :: shallower)).Meets (after, world)
      (fun _ => walk.Landed terms reader (level :: shallower)) fun _ _ => False := by
  refine (settle_meets done w ?_).mono ?_ fun _ _ never => never
  · rw [text]
    exact near
  · rintro _ s ⟨w, same', levels, text'⟩
    rw [text, same.rootLength] at text'
    refine ⟨w, same.trans same', ?_, ?_⟩
    · rw [levels]
      exact .here attempt standing
    · rw [levels]
      exact text'

end

/-- Going up lands on the first level with a record left. Nothing is given up before. -/
private theorem climb_meets {left : LevelStack} : ∀ {done : LevelStack} {walk : Walk}
    {world : World ρ},
    left.Sound walk.rootLength → left.ground walk.rootLength ≤ walk.path.text.length →
    (∀ level ∈ left,
      terms.Serves reader patience (walk.settings.requestAt walk.path.text level) level) →
    terms.world world →
    (climb reader patience done left).Meets (walk, world)
      (fun _ => walk.Landed terms reader left) (walk.Stuck terms reader done left) := by
  induction left with
  | nil =>
    intro done walk world _ short _ w
    refine (settle_meets done w short).mono ?_ fun _ _ never => never.elim
    rintro _ s ⟨w, same, levels, text⟩
    refine ⟨w, same, ?_, ?_⟩
    · rw [levels]
      exact .nowhere
    · rw [levels]
      exact text
  | cons level shallower ih =>
    intro done walk world sound short serves w
    obtain ⟨⟨kept, holds⟩, higher, -, tail⟩ := LevelStack.sound_cons_iff.mp sound
    have served := serves level List.mem_cons_self
    have others := fun other member => serves other (List.mem_cons_of_mem level member)
    have near : level.pathLength ≤ walk.path.text.length := short
    -- what the levels further up come to, once this one is done
    have further : ∀ {after : Walk} {world : World ρ} {spent : Level},
        walk.Same after → after.path.text = walk.path.text → terms.world world →
        level.Tried terms reader (walk.settings.requestAt walk.path.text level) spent →
        spent.remaining = 0 → spent.isExhausted = true →
        (climb reader patience (done ++ [spent]) shallower).Meets (after, world)
          (fun _ => walk.Landed terms reader (level :: shallower))
          (walk.Stuck terms reader done (level :: shallower)) := by
      intro after world spent same text w attempt none' ended
      refine (ih ?_ ?_ ?_ w).mono ?_ ?_
      · rw [same.rootLength]
        exact tail
      · rw [same.rootLength, text]
        exact Nat.le_trans higher near
      · rw [same.settings, text]
        exact others
      · exact fun _ _ landed => landed.past same text attempt none' ended
      · exact fun _ _ stuck => stuck.past same text attempt
    unfold climb
    by_cases standing : 0 < level.remaining
    · rw [if_pos standing]
      exact (settle_here_meets done (.refl walk) rfl (.inl rfl) standing near w).mono
        (fun _ _ landed => landed) fun _ _ never => never.elim
    · rw [if_neg standing]
      have none' : level.remaining = 0 := Nat.eq_zero_of_not_pos standing
      by_cases ended : level.isExhausted = true
      · rw [if_pos ended]
        exact further (.refl walk) rfl w (.inl rfl) none' ended
      · rw [if_neg ended, Act.meets_bind]
        have nothing : kept = [] := by
          rw [holds.remaining] at none'
          exact List.eq_nil_of_length_eq_zero none'
        subst nothing
        have more : level.isExhausted = false := Bool.not_eq_true _ ▸ ended
        refine (refillAbove_meets holds more near served w).mono ?_ ?_
        · rintro filled s ⟨w, same, text, run, ended⟩
          have pathLength := (run.tried.holds holds).1
          by_cases found : 0 < filled.remaining
          · rw [if_pos found]
            exact (settle_here_meets done same text run.tried found (pathLength ▸ near) w).mono
              (fun _ _ landed => landed) fun _ _ never => never.elim
          · rw [if_neg found]
            have nothing := Nat.eq_zero_of_not_pos found
            exact further same text w run.tried nothing (ended (by omega))
        · rintro fault s ⟨w, cause, same, text, tried, attempt, levels⟩
          exact ⟨w, cause, same, text, tried :: shallower, levels,
            .cons attempt (LevelStack.Tried.refl terms reader _ shallower)⟩

/-! ## One step -/

/-- What a step that fails leaves: the same way, with levels that have been refilled at most. -/
structure Stayed (terms : Terms ρ) (reader : Reader ρ) (before after : Walk) : Prop where
  same : before.Same after
  text : after.path.text = before.path.text
  levels : LevelStack.Tried terms reader (before.settings.requestAt before.path.text) before.levels
    after.levels

/-- What a step that succeeds makes of a walk that stands on a record. -/
inductive Stepped (terms : Terms ρ) (reader : Reader ρ) (before after : Walk) : Prop
  /-- Into the current object, which its level then has behind it. -/
  | entered {level inner : Level} {shallower : LevelStack} {record : Stored}
      {records : List Stored} {current : Option Place} :
      before.levels = level :: shallower → level.Holds (record :: records) →
      before.settings.enters record.header.objectType = true →
      after.path.text = before.childPath record →
      after.path.text.length < after.path.capacity →
      (before.freshLevel record).Filled terms reader (before.childRequest record) inner →
      0 < inner.remaining → { level with current }.Holds records →
      after.levels = inner :: { level with current } :: shallower →
      Stepped terms reader before after
  /-- On to the next record of the level. -/
  | moved {level filled : Level} {shallower : LevelStack} {record next : Stored}
      {records later : List Stored} {current : Option Place} :
      before.levels = level :: shallower → level.Holds (record :: records) →
      before.Declines terms reader record →
      level.Tried terms reader (before.settings.requestAt before.path.text level) filled →
      filled.Holds (record :: next :: later) → { filled with current }.Holds (next :: later) →
      after.path.text = before.path.text →
      after.levels = { filled with current } :: shallower → Stepped terms reader before after
  /-- Up from a level without another record. -/
  | climbed {level filled : Level} {shallower : LevelStack} {record : Stored} :
      before.levels = level :: shallower → level.Holds [record] →
      before.Declines terms reader record →
      level.Tried terms reader (before.settings.requestAt before.path.text level) filled →
      filled.Holds [record] → filled.isExhausted = true →
      Landing terms reader (before.settings.requestAt before.path.text) shallower after.levels →
      after.path.text = before.path.text.take (after.levels.ground before.rootLength) →
      Stepped terms reader before after

section
variable {root : Text} {level : Level} {shallower : LevelStack} {record : Stored}
  {records : List Stored} {begun : Walk}

/-- Moving on once the walk's level has been refilled, if that was to be done. -/
private theorem moveOn_filled_meets {filled : Level} {rest : List Stored} (sound : walk.Sound root)
    (levels : walk.levels = level :: shallower) (holds : level.Holds (record :: records))
    (declines : walk.Declines terms reader record)
    (serves : ∀ level ∈ walk.levels,
      terms.Serves reader patience (walk.settings.requestAt walk.path.text level) level)
    (same : walk.Same begun) (text : begun.path.text = walk.path.text)
    (attempt : level.Tried terms reader (walk.settings.requestAt walk.path.text level) filled)
    (left : filled.Holds (record :: rest))
    (done : rest = [] → records = [] ∧ filled.isExhausted = true) (w : terms.world world) :
    Act.Meets (if filled.remaining < 2 then climb reader patience [filled] shallower
      else do
        let level ← Act.ofExcept filled.advance
        change fun walk => { walk with levels := level :: shallower }) (begun, world)
      (fun _ s => terms.world s.2 ∧ walk.Same s.1 ∧ walk.Stepped terms reader s.1)
      fun fault s => terms.world s.2 ∧ terms.cause fault ∧ walk.Stayed terms reader s.1 := by
  cases rest with
  | nil =>
    obtain ⟨rfl, ended⟩ := done rfl
    have few : filled.remaining < 2 := by
      rw [left.remaining]
      exact Nat.lt_succ_self 1
    have pathLength := sound.pathLength_top levels
    obtain ⟨-, higher, -, tail⟩ := LevelStack.sound_cons_iff.mp (levels ▸ sound.stack)
    rw [if_pos few]
    refine Act.Meets.mono (climb_meets ?_ ?_ ?_ w) ?_ ?_
    · rw [same.rootLength, sound.rootLength]
      exact tail
    · rw [same.rootLength, sound.rootLength, text, ← pathLength]
      exact higher
    · intro other member
      rw [same.settings, text]
      exact serves other (levels ▸ List.mem_cons_of_mem level member)
    · rintro _ s ⟨w, same', landing, text'⟩
      rw [same.settings, text] at landing
      rw [same.rootLength, text] at text'
      exact ⟨w, same.trans same', .climbed levels holds declines attempt left ended landing text'⟩
    · rintro fault s ⟨w, cause, same', text', tried, levels', attempts⟩
      rw [same.settings, text] at attempts
      refine ⟨w, cause, same.trans same', text'.trans text, ?_⟩
      rw [levels, levels']
      exact .cons attempt attempts
  | cons next later =>
    have many : ¬ filled.remaining < 2 := by
      rw [left.remaining, List.length_cons, List.length_cons]
      omega
    rw [if_neg many]
    obtain ⟨current, advanced, left'⟩ := left.advance
    unfold change
    simp only [Act.meets_bind, Act.meets_ofExcept, advanced, Act.meets_modify]
    exact ⟨w, ⟨⟨same.settings, same.rootLength, same.closed, same.capacity⟩, same.held⟩,
      .moved levels holds declines attempt left left' text rfl⟩

/-- Moving on from a level's current object, whether or not it takes a refill. -/
private theorem moveOn_meets (sound : walk.Sound root) (levels : walk.levels = level :: shallower)
    (holds : level.Holds (record :: records)) (declines : walk.Declines terms reader record)
    (serves : ∀ level ∈ walk.levels,
      terms.Serves reader patience (walk.settings.requestAt walk.path.text level) level)
    (same : walk.Same begun) (text : begun.path.text = walk.path.text) (w : terms.world world) :
    (moveOn reader patience level shallower).Meets (begun, world)
      (fun _ s => terms.world s.2 ∧ walk.Same s.1 ∧ walk.Stepped terms reader s.1)
      fun fault s => terms.world s.2 ∧ terms.cause fault ∧ walk.Stayed terms reader s.1 := by
  unfold moveOn
  dsimp only
  by_cases refills : level.remaining < 2 ∧ (!level.isExhausted) = true
  · obtain ⟨few, more⟩ := refills
    have ended : level.isExhausted = false := by
      rwa [Bool.not_eq_true'] at more
    have pathLength := sound.pathLength_top levels
    have request : begun.settings.request begun.path.text =
        walk.settings.requestAt walk.path.text level := by
      rw [same.settings, text, Settings.requestAt, pathLength, List.take_length]
    have last : (record :: records).length ≤ 1 := by
      rw [← holds.remaining]
      omega
    have served := serves level (levels ▸ List.mem_cons_self)
    rw [if_pos ⟨few, more⟩, Act.meets_bind]
    have filled : (refillBetween reader patience [] level shallower).Meets (begun, world) _ _ :=
      refillBetween_meets holds last ended (request ▸ served) w
    rw [request] at filled
    refine filled.mono ?_ ?_
    · rintro filled ⟨_, world⟩ ⟨w, rfl, run, spent⟩
      obtain ⟨-, fresh, left⟩ := run.tried.holds holds
      refine moveOn_filled_meets sound levels holds declines serves
        (same.trans ⟨⟨rfl, rfl, rfl, Nat.le_refl _⟩, rfl⟩) text run.tried left ?_ w
      intro nothing
      have none' : records = [] ∧ fresh = [] := List.append_eq_nil_iff.mp nothing
      rw [none'.2, List.append_nil] at left
      exact ⟨none'.1, spent (Nat.le_of_eq (left.remaining.trans holds.remaining.symm))⟩
    · rintro fault ⟨_, world⟩ ⟨w, cause, tried, attempt, rfl⟩
      refine ⟨w, cause, same.trans ⟨⟨rfl, rfl, rfl, Nat.le_refl _⟩, rfl⟩, text, ?_⟩
      rw [levels]
      exact .cons attempt (LevelStack.Tried.refl terms reader _ shallower)
  · rw [if_neg refills]
    refine moveOn_filled_meets sound levels holds declines serves same text (.inl rfl) holds ?_ w
    rintro rfl
    have few : level.remaining < 2 := by
      rw [holds.remaining]
      exact Nat.lt_succ_self 1
    refine ⟨rfl, ?_⟩
    cases more : level.isExhausted with
    | true => rfl
    | false => exact absurd ⟨few, by rw [more]; rfl⟩ refills

end

/-- One step of a sound walk. -/
theorem step_meets {root : Text} (sound : walk.Sound root)
    (serves : ∀ level ∈ walk.levels,
      terms.Serves reader patience (walk.settings.requestAt walk.path.text level) level)
    (opens : ∀ level shallower record records, walk.levels = level :: shallower →
      level.Holds (record :: records) → walk.settings.enters record.header.objectType = true →
      terms.Serves reader patience (walk.childRequest record) (walk.freshLevel record))
    (w : terms.world world) :
    (step reader patience).Meets (walk, world)
      (fun _ s => terms.world s.2 ∧ walk.Same s.1 ∧
        (walk.levels = [] ∧ s.1 = walk ∨ walk.Stepped terms reader s.1))
      fun fault s => terms.world s.2 ∧ terms.cause fault ∧ walk.Stayed terms reader s.1 := by
  unfold step getWalk
  simp only [Act.meets_bind, Act.meets_get, Act.meets_pure]
  cases levels : walk.levels with
  | nil => exact ⟨w, .refl walk, .inl ⟨rfl, rfl⟩⟩
  | cons level shallower =>
    obtain ⟨record, records, holds⟩ := sound.exists_record levels
    dsimp only
    rw [Act.meets_bind]
    have descended : (descend? reader patience level).Meets (walk, world) _ _ :=
      descend?_meets holds w (opens level shallower record records levels holds)
    refine descended.mono ?_ ?_
    · rintro found ⟨begun, world⟩ ⟨w, same, begunLevels, outcome⟩
      cases found with
      | some inner =>
        obtain ⟨enters, text, fits, run, left⟩ := outcome
        obtain ⟨current, advanced, holds'⟩ := holds.advance
        unfold change
        simp only [Act.meets_bind, Act.meets_ofExcept, advanced, Act.meets_modify]
        exact ⟨w, ⟨⟨same.settings, same.rootLength, same.closed, same.capacity⟩, same.held⟩,
          .inr (.entered levels holds enters text fits run left holds' rfl)⟩
      | none =>
        obtain ⟨text, declines⟩ := outcome
        refine (moveOn_meets sound levels holds declines serves same text w).mono ?_
          fun _ _ failed => failed
        rintro _ s ⟨w, same', stepped⟩
        exact ⟨w, same', .inr stepped⟩
    · rintro fault ⟨left, world⟩ ⟨w, cause, same, levels', text⟩
      refine ⟨w, cause, same, text, ?_⟩
      rw [levels']
      exact LevelStack.Tried.refl terms reader _ walk.levels

end Walk

end Catwalk
