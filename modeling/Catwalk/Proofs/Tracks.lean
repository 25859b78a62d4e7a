import Catwalk.Proofs.Fetches

/-!
# Walks along courses

A walk follows the stages of a course if each of its levels follows a stage, from the deepest up.
What an act of the walk reads, and how it ends, then is what the course has it do: moving on, going
up, stepping, passing over objects and setting out lead to stages that the walk follows again
(`Walk.advance_follows_meets`, `Walk.opening_follows_meets`), whatever the reader answers and
wherever the act fails.
-/

namespace Catwalk

variable {ρ : Type} {reader : Reader ρ} {settings : Settings} {root path : Text} {patience : Nat}
  {world : World (ρ × List Exchange)}

/-- The levels are those of the stages, on a way with this path. -/
def LevelStack.Follow (settings : Settings) (root path : Text) (levels : LevelStack)
    (stages : List Stage) : Prop :=
  List.Forall₂ (Level.Follows settings root path) levels stages

namespace LevelStack.Follow

variable {levels : LevelStack} {stages : List Stage}

private theorem of_prefix {other : Text} (follow : Follow settings root path levels stages)
    (further : path <+: other) : Follow settings root other levels stages :=
  List.Forall₂.imp (fun _ _ follows => follows.of_prefix further) follow

private theorem take {length : Nat} (follow : Follow settings root path levels stages)
    (near : ∀ level ∈ levels, level.pathLength ≤ length) :
    Follow settings root (path.take length) levels stages := by
  induction follow with
  | nil => exact .nil
  | cons first rest ih =>
    exact .cons (first.take (near _ List.mem_cons_self))
      (ih fun level member => near level (List.mem_cons_of_mem _ member))

end LevelStack.Follow

namespace Level

private theorem fresh_follows {names : List Text} (text : path = settings.pathOf root names) :
    (fresh path.length settings.bufferSize).Follows settings root path (.outset names) := by
  refine ⟨fresh_holds _ _, rfl, ?_, Nat.le_refl _, 0, ?_⟩
  · exact (List.take_length).trans text
  · simp [fresh, Bytes.zeros]

/-- Entering a directory reads it once, from its start. -/
private theorem enter?_follows_meets {names : List Text}
    (text : path = settings.pathOf root names) :
    (enter? reader.logged patience (settings.request path) path.length
      settings.bufferSize).Meets world
      (fun found w => ∃ filled,
        Refills reader settings root (.outset names) world.source.2 w (some filled) ∧
        match found with
        | some inner => inner.Follows settings root path filled ∧ filled.records ≠ []
        | none => filled.records = [])
      fun _ w => Refills reader settings root (.outset names) world.source.2 w none := by
  have held : (Terms.logged world.source.2).world world := rfl
  have allocated : (World.charging (allocate path.length settings.bufferSize)).Meets world _ _ :=
    allocate_meets path.length settings.bufferSize held
  refine Act.meets_bind.mpr (allocated.mono ?_ ?_)
  · rintro _ world' ⟨held, rfl⟩
    change world'.source.2 = world.source.2 at held
    have filled : (refill reader.logged patience
        (settings.request (settings.pathOf root (Stage.outset names).names))).Meets
        (fresh path.length settings.bufferSize, world') _ _ :=
      refill_follows_meets (fresh_follows text) (Nat.zero_le _) rfl
    change (refill reader.logged patience (settings.request (settings.pathOf root names))).Meets
      _ _ _ at filled
    rw [← text, held] at filled
    unfold Act.Meets
    dsimp only
    cases run : refill reader.logged patience (settings.request path)
        (fresh path.length settings.bufferSize, world') with
    | ok n s =>
      obtain ⟨filled, refills, follows⟩ := filled.of_ok run
      have remaining := follows.holds.remaining
      dsimp only
      by_cases empty : s.1.remaining = 0
      · rw [if_pos empty]
        exact ⟨filled, refills, List.eq_nil_of_length_eq_zero (remaining.symm.trans empty)⟩
      · rw [if_neg empty]
        exact ⟨filled, refills, follows,
          fun none' => empty (remaining.trans (congrArg List.length none'))⟩
    | error fault s => exact (filled.of_error run).1
  · rintro fault world' ⟨held, -⟩
    exact ⟨[], held.trans (List.append_nil _).symm, .done, rfl⟩

end Level

namespace Walk

variable {walk : Walk} {deeper shallower done left : LevelStack} {level : Level}
  {stage : Stage} {before between after : List Stage} {log reads : List Exchange}
  {s : Scene (ρ × List Exchange)}

/-- The account has grown by reads that lead to stages which the walk follows. `leads` says how the
reads, the stages and the ending of what was done belong together. -/
def LedByReads (leads : List Exchange → List Stage → Ending → Prop) (settings : Settings)
    (root : Text) (log : List Exchange) (ending : Ending) (s : Scene (ρ × List Exchange)) : Prop :=
  ∃ reads after, s.2.source.2 = log ++ reads ∧ leads reads after ending ∧
    LevelStack.Follow settings root s.1.path.text s.1.levels after

/-- What was done went on behind some reads. -/
private theorem LedByReads.behind {leads leads' : List Exchange → List Stage → Ending → Prop}
    {ending : Ending} (along : LedByReads leads settings root (log ++ reads) ending s)
    (onward : ∀ {later after}, leads later after ending → leads' (reads ++ later) after ending) :
    LedByReads leads' settings root log ending s := by
  obtain ⟨later, after, account, led, follow⟩ := along
  exact ⟨reads ++ later, after, by rw [account, List.append_assoc], onward led, follow⟩

theorem LedByReads.mono {leads leads' : List Exchange → List Stage → Ending → Prop}
    {ending : Ending} (along : LedByReads leads settings root log ending s)
    (also : ∀ {reads after}, leads reads after ending → leads' reads after ending) :
    LedByReads leads' settings root log ending s := by
  obtain ⟨reads, after, account, led, follow⟩ := along
  exact ⟨reads, after, account, also led, follow⟩

private theorem openDirectory_follows_meets {names : List Text} (same : walk.settings = settings)
    (text : walk.path.text = settings.pathOf root names) :
    (openDirectory reader.logged patience).Meets (walk, world)
      (fun found s => s.1 = walk ∧ ∃ filled,
        Level.Refills reader settings root (.outset names) world.source.2 s.2 (some filled) ∧
        match found with
        | some inner => inner.Follows settings root walk.path.text filled ∧ filled.records ≠ []
        | none => filled.records = [])
      fun _ s => s.1 = walk ∧
        Level.Refills reader settings root (.outset names) world.source.2 s.2 none := by
  unfold openDirectory getWalk around
  simp only [Act.meets_bind, Act.meets_get, Act.meets_pure, Act.meets_within, same]
  exact (Level.enter?_follows_meets text).mono (fun _ _ found => ⟨trivial, found⟩)
    fun _ _ failed => ⟨trivial, failed⟩

/-- The current object is read as a directory if it may be entered, and not otherwise. -/
private theorem descend?_follows_meets {names : List Text} {record : Stored} {records : List Stored}
    (same : walk.settings = settings) (text : walk.path.text = settings.pathOf root names)
    (holds : level.Holds (record :: records)) :
    (descend? reader.logged patience level).Meets (walk, world)
      (fun found s => (settings.enters record.header.objectType = false ∧
          s.2.source.2 = world.source.2 ∧ found = none) ∨
        settings.enters record.header.objectType = true ∧ ∃ filled,
          Level.Refills reader settings root (.below names record) world.source.2 s.2
            (some filled) ∧
          match found with
          | some inner =>
            inner.Follows settings root (walk.childPath record) filled ∧ filled.records ≠ []
          | none => filled.records = [])
      fun _ s => settings.enters record.header.objectType = true ∧
        Level.Refills reader settings root (.below names record) world.source.2 s.2 none := by
  have child : walk.childPath record =
      settings.pathOf root (names ++ [Text.decode record.name]) := by
    rw [childPath, same, text, settings.pathOf_concat]
  unfold descend? getWalk
  simp only [Act.meets_bind, Act.meets_get, Act.meets_pure, Act.meets_ofExcept, holds.objectType,
    holds.name]
  by_cases enters : walk.settings.enters record.header.objectType = true
  · rw [if_pos enters]
    rw [same] at enters
    unfold around change undoPath change
    simp only [Act.meets_bind, Act.meets_within, Act.meets_ofExcept, Act.meets_modify]
    have held : (Terms.logged world.source.2).world world := rfl
    have appended : (World.charging (walk.path.appendSeparated walk.settings.separator
        (Text.decode record.name))).Meets world _ _ :=
      walk.path.appendSeparated_meets walk.settings _ held
    refine appended.mono ?_ ?_
    · rintro path world' ⟨held, text', -⟩
      change world'.source.2 = world.source.2 at held
      have opened : (openDirectory reader.logged patience).Meets ({ walk with path }, world') _ _ :=
        openDirectory_follows_meets same (text'.trans child)
      rw [held] at opened
      simp only [Act.meets_onFault, Act.meets_modify]
      refine opened.mono ?_ ?_
      · rintro found ⟨_, world'⟩ ⟨rfl, filled, refills, follows⟩
        cases found with
        | some inner =>
          obtain ⟨follows, some'⟩ := follows
          change inner.Follows settings root path.text filled at follows
          rw [text'] at follows
          exact .inr ⟨enters, filled, refills, follows, some'⟩
        | none => exact .inr ⟨enters, filled, refills, follows⟩
      · rintro fault ⟨_, world'⟩ ⟨rfl, failed⟩
        exact ⟨enters, failed⟩
    · rintro fault world' ⟨held, -⟩
      exact ⟨enters, [], held.trans (List.append_nil _).symm, .done, rfl⟩
  · rw [if_neg enters]
    exact .inl ⟨same ▸ Bool.not_eq_true _ ▸ enters, rfl, rfl⟩

/-! ## Going up -/

/-- What becomes of the directories that are `gone` and of those above them, on the way up. -/
def Climbs (reader : Reader ρ) (settings : Settings) (root : Text) (gone above : List Stage)
    (reads : List Exchange) (after : List Stage) (ending : Ending) : Prop :=
  ∃ restocked, Stage.Restocks reader settings root above reads restocked ending ∧
    after = Stage.leave gone restocked ending

namespace Climbs

variable {gone above after : List Stage} {filled : Stage} {later : List Exchange} {ending : Ending}

/-- A directory with a record left is as far as it goes. -/
private theorem of_standing (standing : ∀ stage ∈ above.head?, stage.records ≠ []) :
    Climbs reader settings root gone above [] above .done := by
  cases above with
  | nil => exact ⟨[], .top, rfl⟩
  | cons stage above =>
    have some' : stage.records ≠ [] := standing stage rfl
    refine ⟨stage :: above, .stocked some', ?_⟩
    rw [Stage.leave, List.dropWhile_cons_of_neg (by rwa [List.isEmpty_iff])]

/-- A directory that was read to its end is gone as well. -/
private theorem of_ended (bare : stage.records = []) (atEnd : stage.cursor = cursorEnd)
    (climbs : Climbs reader settings root (gone ++ [stage]) above reads after ending) :
    Climbs reader settings root gone (stage :: above) reads after ending := by
  obtain ⟨restocked, restocks, rfl⟩ := climbs
  refine ⟨stage :: restocked, .ended bare atEnd restocks, ?_⟩
  cases ending with
  | done =>
    rw [Stage.leave, Stage.leave, List.dropWhile_cons_of_pos (by rwa [List.isEmpty_iff])]
  | broken => exact List.append_assoc gone [stage] restocked

private theorem of_refilled (bare : stage.records = []) (more : stage.cursor ≠ cursorEnd)
    (refilled : stage.Refilled reader settings root reads (some filled))
    (climbs : Climbs reader settings root gone (filled :: above) later after ending) :
    Climbs reader settings root gone (stage :: above) (reads ++ later) after ending := by
  obtain ⟨restocked, restocks, rfl⟩ := climbs
  exact ⟨restocked, .refilled bare more refilled restocks, rfl⟩

private theorem of_broken (bare : stage.records = []) (more : stage.cursor ≠ cursorEnd)
    (failed : stage.Refilled reader settings root reads none) :
    Climbs reader settings root gone (stage :: above) reads (gone ++ stage :: above) .broken :=
  ⟨stage :: above, .broken bare more failed, rfl⟩

end Climbs

private theorem settle_follows_meets {gone stages : List Stage} (sound : left.Sound walk.rootLength)
    (short : left.ground walk.rootLength ≤ walk.path.text.length)
    (follow : LevelStack.Follow settings root walk.path.text left stages)
    (standing : ∀ stage ∈ stages.head?, stage.records ≠ []) :
    (settle done left).Meets (walk, world)
      (fun _ => LedByReads (Climbs reader settings root gone stages) settings root world.source.2
        .done)
      fun _ _ => False := by
  have held : (Terms.logged world.source.2).world world := rfl
  have settled : (settle done left).Meets (walk, world) _ _ := settle_meets done held short
  refine settled.mono ?_ fun _ _ never => never
  rintro _ s ⟨held, -, levels, text⟩
  refine ⟨[], stages, held.trans (List.append_nil _).symm, .of_standing standing, ?_⟩
  rw [levels, text]
  exact follow.take sound.pathLength_le

/-- Refilling one of the levels at the walk's path. -/
private theorem refillBetween_follows_meets (same : walk.settings = settings)
    (follows : level.Follows settings root path stage)
    (text : walk.path.text = settings.pathOf root stage.names)
    (last : stage.records.length ≤ 1) (more : level.isExhausted = false) :
    (refillBetween reader.logged patience deeper level shallower).Meets (walk, world)
      (fun level' s => s.1 = { walk with levels := deeper ++ level' :: shallower } ∧ ∃ filled,
        Level.Refills reader settings root stage world.source.2 s.2 (some filled) ∧
        level'.Follows settings root path filled)
      fun _ s => ∃ tried, s.1 = { walk with levels := deeper ++ tried :: shallower } ∧
        Level.Refills reader settings root stage world.source.2 s.2 none ∧
        tried.Follows settings root path stage := by
  have outcome : (Level.refill reader.logged patience (settings.request walk.path.text)).Meets
      (level, world) _ _ := text ▸ Level.refill_follows_meets follows last more
  unfold Act.Meets refillBetween
  dsimp only
  rw [same]
  cases run : Level.refill reader.logged patience (settings.request walk.path.text)
      (level, world) with
  | ok n s => exact ⟨rfl, outcome.of_ok run⟩
  | error fault s => exact ⟨s.1, rfl, outcome.of_error run⟩

/-- Refilling a level above the deepest one reads it under its own path. -/
private theorem refillAbove_follows_meets (same : walk.settings = settings)
    (follows : level.Follows settings root walk.path.text stage)
    (last : stage.records.length ≤ 1) (more : level.isExhausted = false) :
    (refillAbove reader.logged patience deeper level shallower).Meets (walk, world)
      (fun level' s => s.1.levels = deeper ++ level' :: shallower ∧ ∃ filled,
        Level.Refills reader settings root stage world.source.2 s.2 (some filled) ∧
        level'.Follows settings root walk.path.text filled)
      fun _ s => ∃ tried, s.1.levels = deeper ++ tried :: shallower ∧
        Level.Refills reader settings root stage world.source.2 s.2 none ∧
        tried.Follows settings root walk.path.text stage := by
  have cut : walk.path.truncate level.pathLength =
      .ok { walk.path with
        text := walk.path.text.take level.pathLength, saved := walk.path.text } := by
    rw [PathBuffer.truncate, if_pos ⟨Int.natCast_nonneg _, Int.ofNat_le.mpr follows.short⟩]
    rfl
  unfold refillAbove changePath undoPath getWalk change
  simp only [Act.meets_bind, Act.meets_get, Act.meets_pure, Act.meets_modify, Act.meets_ofExcept,
    Act.meets_onFault]
  rw [cut]
  have filled : (refillBetween reader.logged patience deeper level shallower).Meets
      ({ walk with path := { walk.path with
        text := walk.path.text.take level.pathLength, saved := walk.path.text } }, world) _ _ :=
    refillBetween_follows_meets same (follows.take (Nat.le_refl _)) follows.directory last more
  refine filled.mono ?_ ?_
  · rintro level' ⟨_, world'⟩ ⟨rfl, filled, refills, follows'⟩
    exact ⟨rfl, filled, refills, follows'.of_prefix (List.take_prefix _ _)⟩
  · rintro fault ⟨_, world'⟩ ⟨tried, rfl, refills, follows'⟩
    exact ⟨tried, rfl, refills, follows'.of_prefix (List.take_prefix _ _)⟩

/-- A walk on its way up, with some levels done and others left: those follow the directories that
are gone, and these the ones above them. -/
structure Climbing (settings : Settings) (root : Text) (done left : LevelStack)
    (gone above : List Stage) (walk : Walk) : Prop where
  same : walk.settings = settings
  levels : walk.levels = done ++ left
  sound : left.Sound walk.rootLength
  short : left.ground walk.rootLength ≤ walk.path.text.length
  gone : LevelStack.Follow settings root walk.path.text done gone
  above : LevelStack.Follow settings root walk.path.text left above

namespace Climbing

variable {gone above : List Stage} {filled : Stage} {now : Walk} {level' : Level}

/-- A level that is done is gone as well. -/
private theorem higher
    (climbing : Climbing settings root done (level :: shallower) gone (stage :: above) walk) :
    Climbing settings root (done ++ [level]) shallower (gone ++ [stage]) above walk := by
  obtain ⟨same, levels, sound, short, followed, follow⟩ := climbing
  obtain ⟨follows, others⟩ := List.forall₂_cons.mp follow
  obtain ⟨-, higher, -, tail⟩ := LevelStack.sound_cons_iff.mp sound
  refine ⟨same, ?_, tail, Nat.le_trans higher short, ?_, others⟩
  · rw [levels, List.append_assoc]
    rfl
  · exact List.rel_append followed (.cons follows .nil)

/-- The first level that is left may be refilled. -/
private theorem refilled
    (climbing : Climbing settings root done (level :: shallower) gone (stage :: above) walk)
    (same' : walk.Same now) (text : now.path.text = walk.path.text)
    (levels' : now.levels = done ++ level' :: shallower)
    (pathLength : level'.pathLength = level.pathLength)
    (follows : level'.Follows settings root walk.path.text filled) :
    Climbing settings root done (level' :: shallower) gone (filled :: above) now := by
  obtain ⟨same, levels, sound, short, followed, follow⟩ := climbing
  obtain ⟨-, others⟩ := List.forall₂_cons.mp follow
  refine ⟨same'.settings.trans same, levels', ?_, ?_, text ▸ followed, ?_⟩
  · rw [same'.rootLength]
    exact sound.replace ⟨_, follows.holds⟩ pathLength
  · change level'.pathLength ≤ now.path.text.length
    rw [text, pathLength]
    exact short
  · rw [text]
    exact .cons follows others

end Climbing

/-- The way up ends in a level with a record left, or goes on. -/
private theorem settleOrClimb_follows_meets {gone above : List Stage}
    (climbing : Climbing settings root done (level :: shallower) gone (stage :: above) walk)
    {onwards : Act (Scene (ρ × List Exchange)) Unit}
    (further : stage.records = [] → onwards.Meets (walk, world)
      (fun _ => LedByReads (Climbs reader settings root gone (stage :: above)) settings root
        world.source.2 .done)
      fun _ => LedByReads (Climbs reader settings root gone (stage :: above)) settings root
        world.source.2 .broken) :
    Act.Meets (if 0 < level.remaining then settle done (level :: shallower) else onwards)
      (walk, world)
      (fun _ => LedByReads (Climbs reader settings root gone (stage :: above)) settings root
        world.source.2 .done)
      fun _ => LedByReads (Climbs reader settings root gone (stage :: above)) settings root
        world.source.2 .broken := by
  obtain ⟨follows, -⟩ := List.forall₂_cons.mp climbing.above
  have remaining := follows.holds.remaining
  by_cases standing : 0 < level.remaining
  · have some' : stage.records ≠ [] := by
      intro bare
      rw [remaining, bare] at standing
      exact Nat.lt_irrefl _ standing
    rw [if_pos standing]
    refine (settle_follows_meets climbing.sound climbing.short climbing.above ?_).mono
      (fun _ _ along => along) fun _ _ never => never.elim
    rintro _ ⟨⟩
    exact some'
  · rw [if_neg standing]
    refine further (List.eq_nil_of_length_eq_zero ?_)
    rw [← remaining]
    exact Nat.eq_zero_of_not_pos standing

/-- Going up refills directories on the way and leaves those that are done. -/
private theorem climb_follows_meets : ∀ {done : LevelStack} {walk : Walk}
    {world : World (ρ × List Exchange)} {gone above : List Stage},
    Climbing settings root done left gone above walk →
    (climb reader.logged patience done left).Meets (walk, world)
      (fun _ => LedByReads (Climbs reader settings root gone above) settings root world.source.2
        .done)
      fun _ => LedByReads (Climbs reader settings root gone above) settings root world.source.2
        .broken := by
  induction left with
  | nil =>
    intro done walk world gone above climbing
    obtain rfl := List.forall₂_nil_left_iff.mp climbing.above
    exact (settle_follows_meets climbing.sound climbing.short climbing.above nofun).mono
      (fun _ _ along => along) fun _ _ never => never.elim
  | cons level shallower ih =>
    intro done walk world gone stages climbing
    obtain ⟨stage, above, follows, others, rfl⟩ := List.forall₂_cons_left_iff.mp climbing.above
    -- what the levels further up come to, once this one is done
    have further : ∀ {now : Walk} {world : World (ρ × List Exchange)} {spent : Level}
        {stage : Stage},
        Climbing settings root done (spent :: shallower) gone (stage :: above) now →
        stage.records = [] → stage.cursor = cursorEnd →
        (climb reader.logged patience (done ++ [spent]) shallower).Meets (now, world)
          (fun _ => LedByReads (Climbs reader settings root gone (stage :: above)) settings root
            world.source.2 .done)
          fun _ => LedByReads (Climbs reader settings root gone (stage :: above)) settings root
            world.source.2 .broken := fun climbing bare atEnd =>
      (ih climbing.higher).mono (fun _ _ along => along.mono (.of_ended bare atEnd))
        fun _ _ along => along.mono (.of_ended bare atEnd)
    unfold climb
    refine settleOrClimb_follows_meets climbing fun bare => ?_
    by_cases ended : level.isExhausted = true
    · rw [if_pos ended]
      exact further climbing bare (follows.cursor.symm.trans (of_decide_eq_true ended))
    · rw [if_neg ended, Act.meets_bind]
      have more : level.isExhausted = false := eq_false_of_ne_true ended
      have unread : stage.cursor ≠ cursorEnd := by
        rw [← follows.cursor]
        exact of_decide_eq_false more
      have last : stage.records.length ≤ 1 := by
        rw [bare]
        exact Nat.zero_le _
      have none' : level.Holds [] := bare ▸ follows.holds
      have w : (Terms.any (ρ × List Exchange)).world world := trivial
      have filled : (refillAbove reader.logged patience done level shallower).Meets
          (walk, world) _ _ :=
        (refillAbove_meets none' more climbing.short
          ((Terms.any_covers reader.logged).serves _ none') w).and
          (refillAbove_follows_meets climbing.same follows last more)
      refine filled.mono ?_ ?_
      · rintro level' ⟨now, world'⟩ ⟨⟨-, same', text, run, -⟩, levels', filled,
          ⟨reads, log, refilled⟩, follows'⟩
        change world'.source.2 = world.source.2 ++ reads at log
        have climbing' : Climbing settings root done (level' :: shallower) gone (filled :: above)
            now :=
          climbing.refilled same' text levels' (run.tried.holds none').1 follows'
        have onwards : Act.Meets (if 0 < level'.remaining then settle done (level' :: shallower)
            else climb reader.logged patience (done ++ [level']) shallower) (now, world') _ _ :=
          settleOrClimb_follows_meets climbing' fun bare' =>
            further climbing' bare' (Stage.cursor_of_refilled? refilled.result
              (by rw [bare']; exact Nat.zero_le _))
        rw [log] at onwards
        exact onwards.mono (fun _ _ along => along.behind (.of_refilled bare unread refilled))
          fun _ _ along => along.behind (.of_refilled bare unread refilled)
      · rintro fault ⟨now, world'⟩ ⟨⟨-, -, same', text, -⟩, tried, levels',
          ⟨reads, log, failed⟩, follows'⟩
        change now.path.text = walk.path.text at text
        refine ⟨reads, _, log, .of_broken bare unread failed, ?_⟩
        dsimp only
        rw [levels', text]
        exact List.rel_append climbing.gone (.cons follows' others)

/-! ## One step -/

/-- A sound walk on a way stands on the first record of its deepest directory. -/
theorem Sound.standing {stages : List Stage} (sound : walk.Sound root)
    (levels : walk.levels = level :: shallower)
    (follow : LevelStack.Follow settings root walk.path.text walk.levels stages) :
    ∃ names cursor record records rest, stages = ⟨names, cursor, record :: records⟩ :: rest ∧
      level.Follows settings root walk.path.text ⟨names, cursor, record :: records⟩ ∧
      LevelStack.Follow settings root walk.path.text shallower rest ∧
      walk.path.text = settings.pathOf root names := by
  rw [levels] at follow
  obtain ⟨⟨names, cursor, records⟩, rest, follows, others, rfl⟩ :=
    List.forall₂_cons_left_iff.mp follow
  obtain ⟨record, later, holds⟩ := sound.exists_record levels
  obtain rfl : records = record :: later := follows.holds.unique holds
  refine ⟨names, cursor, record, later, rest, rfl, follows, others, ?_⟩
  have directory := follows.directory
  rw [sound.take_top levels] at directory
  exact directory

section
variable {names : List Text} {cursor : Int} {record : Stored} {records : List Stored}
  {rest : List Stage}

/-- Moving on once the deepest level has been refilled, if that was to be done. -/
private theorem moveOn_filled_follows_meets (same : walk.settings = settings)
    (levels : walk.levels = level :: shallower)
    (sound : LevelStack.Sound walk.rootLength shallower)
    (short : LevelStack.ground walk.rootLength shallower ≤ walk.path.text.length)
    (follows : level.Follows settings root walk.path.text ⟨names, cursor, record :: records⟩)
    (atEnd : records = [] → cursor = cursorEnd)
    (others : LevelStack.Follow settings root walk.path.text shallower rest) :
    Act.Meets (if level.remaining < 2 then climb reader.logged patience [level] shallower
      else do
        let level ← Act.ofExcept level.advance
        change fun walk => { walk with levels := level :: shallower }) (walk, world)
      (fun _ => LedByReads (Stage.MovesOn reader settings root
        (⟨names, cursor, record :: records⟩ :: rest)) settings root world.source.2 .done)
      fun _ => LedByReads (Stage.MovesOn reader settings root
        (⟨names, cursor, record :: records⟩ :: rest)) settings root world.source.2 .broken := by
  have remaining : level.remaining = records.length + 1 := follows.holds.remaining
  by_cases few : level.remaining < 2
  · obtain rfl : records = [] := List.eq_nil_of_length_eq_zero (by omega)
    obtain rfl := atEnd rfl
    rw [if_pos few]
    have followed : LevelStack.Follow settings root walk.path.text [level]
        [⟨names, cursorEnd, [record]⟩] := .cons follows .nil
    have up : ∀ {reads after ending},
        Climbs reader settings root [⟨names, cursorEnd, [record]⟩] rest reads after ending →
        Stage.MovesOn reader settings root (⟨names, cursorEnd, [record]⟩ :: rest) reads after
          ending := by
      rintro reads after ending ⟨above, restocks, rfl⟩
      exact .up restocks
    exact (climb_follows_meets ⟨same, levels, sound, short, followed, others⟩).mono
      (fun _ _ along => along.mono up) fun _ _ along => along.mono up
  · have several : records ≠ [] := by
      rintro rfl
      exact few (Nat.lt_of_le_of_lt (Nat.le_of_eq remaining) (Nat.lt_succ_self 1))
    rw [if_neg few]
    obtain ⟨current, advanced, holds⟩ := follows.holds.advance
    unfold change
    simp only [Act.meets_bind, Act.meets_ofExcept, advanced, Act.meets_modify]
    exact ⟨[], _, (List.append_nil _).symm, .next several,
      .cons ⟨holds, follows.cursor, follows.directory, follows.short, follows.size⟩ others⟩

private theorem moveOn_follows_meets (sound : walk.Sound root) (same : walk.settings = settings)
    (levels : walk.levels = level :: shallower)
    (text : walk.path.text = settings.pathOf root names)
    (follows : level.Follows settings root walk.path.text ⟨names, cursor, record :: records⟩)
    (others : LevelStack.Follow settings root walk.path.text shallower rest) :
    (moveOn reader.logged patience level shallower).Meets (walk, world)
      (fun _ => LedByReads (Stage.MovesOn reader settings root
        (⟨names, cursor, record :: records⟩ :: rest)) settings root world.source.2 .done)
      fun _ => LedByReads (Stage.MovesOn reader settings root
        (⟨names, cursor, record :: records⟩ :: rest)) settings root world.source.2 .broken := by
  obtain ⟨-, higher, -, tail⟩ := LevelStack.sound_cons_iff.mp (levels ▸ sound.stack)
  have short : LevelStack.ground walk.rootLength shallower ≤ walk.path.text.length := by
    rw [sound.rootLength]
    exact Nat.le_trans higher follows.short
  rw [← sound.rootLength] at tail
  have remaining : level.remaining = records.length + 1 := follows.holds.remaining
  unfold moveOn
  dsimp only
  by_cases refills : level.remaining < 2 ∧ (!level.isExhausted) = true
  · obtain ⟨few, more⟩ := refills
    have ended : level.isExhausted = false := by
      rwa [Bool.not_eq_true'] at more
    have unread : cursor ≠ cursorEnd := by
      have reached : level.cursor = cursor := follows.cursor
      rw [← reached]
      exact of_decide_eq_false ended
    obtain rfl : records = [] := List.eq_nil_of_length_eq_zero (by omega)
    rw [if_pos ⟨few, more⟩, Act.meets_bind]
    have filled : (refillBetween reader.logged patience [] level shallower).Meets (walk, world)
        _ _ := refillBetween_follows_meets same follows text (Nat.le_refl _) ended
    refine filled.mono ?_ ?_
    · rintro level' ⟨_, world'⟩ ⟨rfl, filled, ⟨reads, log, refilled⟩, follows'⟩
      change world'.source.2 = world.source.2 ++ reads at log
      obtain ⟨-, fresh, -, -, -, records⟩ := Stage.refilled?_eq_some_iff.mp refilled.result
      obtain ⟨names', cursor', _⟩ := filled
      obtain rfl := records
      have atEnd : fresh = [] → cursor' = cursorEnd := by
        rintro rfl
        exact Stage.cursor_of_refilled? refilled.result (Nat.le_refl _)
      have onwards : Act.Meets (if level'.remaining < 2 then
            climb reader.logged patience [level'] shallower
          else do
            let level ← Act.ofExcept level'.advance
            change fun walk => { walk with levels := level :: shallower })
          ({ walk with levels := [] ++ level' :: shallower }, world') _ _ :=
        moveOn_filled_follows_meets same rfl tail short follows' atEnd others
      rw [log] at onwards
      exact onwards.mono (fun _ _ along => along.behind (.refilled unread refilled))
        fun _ _ along => along.behind (.refilled unread refilled)
    · rintro fault ⟨_, world'⟩ ⟨tried, rfl, ⟨reads, log, failed⟩, follows'⟩
      exact ⟨reads, _, log, .broken unread failed, .cons follows' others⟩
  · rw [if_neg refills]
    refine moveOn_filled_follows_meets same levels tail short follows (fun nothing => ?_) others
    rw [nothing] at remaining
    have few : level.remaining < 2 := Nat.lt_of_le_of_lt (Nat.le_of_eq remaining)
      (Nat.lt_succ_self 1)
    refine Decidable.byContradiction fun unread => refills ⟨few, ?_⟩
    rw [Bool.not_eq_true']
    exact decide_eq_false fun ended => unread (follows.cursor.symm.trans ended)

/-- Inside a directory the way goes on, and what is above has left the directory's record behind. -/
private theorem follow_entered {other : Text} {inner : Level} {filled : Stage}
    {current : Option Place} (further : path <+: other)
    (follows : level.Follows settings root path ⟨names, cursor, record :: records⟩)
    (others : LevelStack.Follow settings root path shallower rest)
    (holds : Level.Holds { level with current } records)
    (inside : inner.Follows settings root other filled) :
    LevelStack.Follow settings root other (inner :: { level with current } :: shallower)
      (filled :: ⟨names, cursor, records⟩ :: rest) := by
  have above := follows.of_prefix further
  exact .cons inside (.cons ⟨holds, above.cursor, above.directory, above.short, above.size⟩
    (LevelStack.Follow.of_prefix others further))

end

/-- The reads of a step lead on from the way of the walk. -/
private theorem step_follows_meets {stages : List Stage} (sound : walk.Sound root)
    (same : walk.settings = settings)
    (follow : LevelStack.Follow settings root walk.path.text walk.levels stages) :
    (step reader.logged patience).Meets (walk, world)
      (fun _ => LedByReads (Stage.Steps reader settings root stages) settings root world.source.2
        .done)
      fun _ => LedByReads (Stage.Steps reader settings root stages) settings root world.source.2
        .broken := by
  unfold step getWalk
  simp only [Act.meets_bind, Act.meets_get, Act.meets_pure]
  cases levels : walk.levels with
  | nil =>
    rw [levels] at follow
    obtain rfl := List.forall₂_nil_left_iff.mp follow
    exact ⟨[], [], (List.append_nil _).symm, .rest, levels ▸ follow⟩
  | cons level shallower =>
    obtain ⟨names, cursor, record, records, rest, rfl, follows, others, text⟩ :=
      sound.standing levels follow
    have holds : level.Holds (record :: records) := follows.holds
    have w : (Terms.any (ρ × List Exchange)).world world := trivial
    dsimp only
    rw [Act.meets_bind]
    have descended : (descend? reader.logged patience level).Meets (walk, world) _ _ :=
      (descend?_meets holds w fun _ =>
        (Terms.any_covers reader.logged).serves _ (Level.fresh_holds _ _)).and
        (descend?_follows_meets same text holds)
    refine descended.mono ?_ ?_
    · rintro found ⟨begun, world'⟩ ⟨⟨-, same', levels', outcome⟩, reading⟩
      cases found with
      | some inner =>
        obtain ⟨-, text', -⟩ := outcome
        change begun.path.text = walk.childPath record at text'
        obtain ⟨-, -, never⟩ | ⟨enters, filled, ⟨reads, log, refilled⟩, inside, some'⟩ := reading
        · cases never
        · obtain ⟨current, advanced, holds'⟩ := holds.advance
          have further : walk.path.text <+: begun.path.text := by
            rw [text']
            exact walk.settings.prefix_child _ _
          unfold change
          simp only [Act.meets_bind, Act.meets_ofExcept, advanced, Act.meets_modify]
          exact ⟨reads, _, log, .enter enters refilled some',
            follow_entered further follows others holds' (text' ▸ inside)⟩
      | none =>
        obtain ⟨text', -⟩ := outcome
        change begun.path.text = walk.path.text at text'
        change begun.levels = walk.levels at levels'
        have stayed : walk.Stayed (Terms.any _) reader.logged begun := by
          refine ⟨same', text', ?_⟩
          rw [levels']
          exact .refl _ _ _ _
        have moved : (moveOn reader.logged patience level shallower).Meets (begun, world') _ _ :=
          moveOn_follows_meets (stayed.sound sound) (same'.settings.trans same)
            (levels'.trans levels) (text'.trans text) (text'.symm ▸ follows) (text'.symm ▸ others)
        obtain ⟨bars, log, -⟩ | ⟨enters, filled, ⟨reads, log, refilled⟩, bare⟩ := reading
        · change world'.source.2 = world.source.2 at log
          rw [log] at moved
          exact moved.mono (fun _ _ along => along.mono (.pass bars))
            fun _ _ along => along.mono (.pass bars)
        · change world'.source.2 = world.source.2 ++ reads at log
          rw [log] at moved
          exact moved.mono (fun _ _ along => along.behind (.empty enters refilled bare))
            fun _ _ along => along.behind (.empty enters refilled bare)
    · rintro fault ⟨left, world'⟩ ⟨⟨-, -, same', levels', text'⟩, enters, reads, log, failed⟩
      change left.path.text = walk.path.text at text'
      change left.levels = walk.levels at levels'
      refine ⟨reads, _, log, .broken enters failed, ?_⟩
      rw [levels', text']
      exact follow

/-! ## Whole calls -/

/-- A walk passes over the object on which it stands if the course does. -/
private theorem Sound.isUnmatched_eq {stages : List Stage} (sound : walk.Sound root)
    (same : walk.settings = settings)
    (follow : LevelStack.Follow settings root walk.path.text walk.levels stages) :
    walk.isUnmatched = .ok (Stage.unmatched settings stages) := by
  cases levels : walk.levels with
  | nil =>
    rw [levels] at follow
    obtain rfl := List.forall₂_nil_left_iff.mp follow
    exact isUnmatched_of_nil levels
  | cons level shallower =>
    obtain ⟨names, cursor, record, records, rest, rfl, follows, -, -⟩ :=
      sound.standing levels follow
    rw [isUnmatched_of_holds levels follows.holds, same]
    rfl

private theorem skipUnmatched_follows_meets {start : Option Position} {rounds : Nat}
    {stages : List Stage} (sound : walk.Sound root) (same : walk.settings = settings)
    (follow : LevelStack.Follow settings root walk.path.text walk.levels stages) :
    (skipUnmatched reader.logged patience start rounds).Meets (walk, world)
      (fun _ => LedByReads (Stage.Skips reader settings root rounds stages) settings root
        world.source.2 .done)
      fun _ => LedByReads (Stage.Skips reader settings root rounds stages) settings root
        world.source.2 .broken := by
  induction rounds generalizing walk world stages with
  | zero =>
    unfold skipUnmatched
    rw [Act.meets_bind, passesOver_meets (sound.isUnmatched_eq same follow)]
    cases passes : Stage.unmatched settings stages with
    | false => exact ⟨[], stages, (List.append_nil _).symm, .shown passes, follow⟩
    | true => exact ⟨[], stages, (List.append_nil _).symm, .tired passes, follow⟩
  | succ rounds ih =>
    unfold skipUnmatched
    rw [Act.meets_bind, passesOver_meets (sound.isUnmatched_eq same follow)]
    cases passes : Stage.unmatched settings stages with
    | false => exact ⟨[], stages, (List.append_nil _).symm, .shown passes, follow⟩
    | true =>
      have held := sound.holdOn (walk.held.or start)
      rw [if_pos rfl, if_pos rfl, Act.meets_bind]
      have stepped : (step reader.logged patience).Meets
          ({ walk with held := walk.held.or start }, world) _ _ :=
        (step_sound_meets (Terms.any_covers reader.logged) held trivial).and
          (step_follows_meets held same follow)
      refine stepped.mono ?_ fun _ _ failed => failed.2.mono (.broken passes)
      rintro _ ⟨next, world'⟩ ⟨⟨-, same', sound'⟩, reads, between, log, steps, follow'⟩
      have onwards : (skipUnmatched reader.logged patience start rounds).Meets (next, world') _ _ :=
        ih sound' (same'.settings.trans same) follow'
      change world'.source.2 = world.source.2 ++ reads at log
      rw [log] at onwards
      exact onwards.mono (fun _ _ along => along.behind (.onward passes steps))
        fun _ _ along => along.behind (.onward passes steps)

/-- Setting out has failed. The account has grown by what it has read. -/
def Foundered (reader : Reader ρ) (settings : Settings) (root : Text) (patience : Nat)
    (log : List Exchange) (world : World (ρ × List Exchange)) : Prop :=
  ∃ reads stages, world.source.2 = log ++ reads ∧
    Stage.Opens reader settings root patience reads stages .broken

theorem opening_follows_meets (rooted : walk.Rooted settings root) :
    (opening reader.logged patience).Meets (walk, world)
      (fun _ => LedByReads (Stage.Opens reader settings root patience) settings root
        world.source.2 .done)
      fun _ s => Foundered reader settings root patience world.source.2 s.2 := by
  have covers := Terms.any_covers reader.logged
  have w : (Terms.any (ρ × List Exchange)).world world := trivial
  have text : walk.path.text = settings.pathOf root [] := rooted.text
  have read : (openDirectory reader.logged patience).Meets (walk, world) _ _ :=
    (openDirectory_meets w (covers.serves _ (Level.fresh_holds _ _))).and
      (openDirectory_follows_meets rooted.settings text)
  unfold opening openRoot change
  rw [bind_assoc, Act.meets_bind]
  refine read.mono ?_ ?_
  · rintro found ⟨begun, world'⟩ ⟨⟨rfl, -, outcome⟩, -, filled, ⟨reads, log, refilled⟩, follows⟩
    change world'.source.2 = world.source.2 ++ reads at log
    have bare : LevelStack.Follow settings root begun.path.text begun.levels [] := by
      rw [show begun.levels = [] from rooted.bare]
      exact .nil
    cases found with
    | some inner =>
      obtain ⟨run, left⟩ := outcome
      obtain ⟨follows, some'⟩ := follows
      have opened : Opened (Terms.any _) reader.logged begun
          { begun with levels := inner :: begun.levels } :=
        .standing run left (by rw [rooted.bare])
      have onwards : (skipUnmatched reader.logged patience none patience).Meets
          ({ begun with levels := inner :: begun.levels }, world') _ _ :=
        skipUnmatched_follows_meets (opened.sound rooted.sound rooted.bare) rooted.settings
          (.cons follows bare)
      simp only [Act.meets_bind, Act.meets_modify]
      rw [log] at onwards
      refine onwards.mono (fun _ _ along => along.behind (.entered refilled some')) ?_
      rintro fault s ⟨later, stages, log', skips, -⟩
      exact ⟨reads ++ later, stages, by rw [log', List.append_assoc],
        .entered refilled some' skips⟩
    | none =>
      have matched := rooted.sound.isUnmatched_eq rooted.settings bare
      simp only [pure_bind]
      cases patience with
      | zero =>
        unfold skipUnmatched
        rw [Act.meets_bind, passesOver_meets matched]
        exact ⟨reads, [], log, .empty refilled follows, bare⟩
      | succ rounds =>
        unfold skipUnmatched
        rw [Act.meets_bind, passesOver_meets matched]
        exact ⟨reads, [], log, .empty refilled follows, bare⟩
  · rintro fault ⟨_, world'⟩ ⟨-, -, reads, log, failed⟩
    exact ⟨reads, [], log, .broken failed⟩

theorem start_follows_meets {plan : Plan}
    (planned : plan.settings? reader.separator = .ok settings) :
    (start reader.logged patience plan).Meets world
      (fun walk w => LedByReads (Stage.Opens reader settings plan.path patience) settings plan.path
        world.source.2 .done (walk, w))
      fun _ w => Foundered reader settings plan.path patience world.source.2 w := by
  have unread : ∀ w : World (ρ × List Exchange), w.source.2 = world.source.2 →
      Foundered reader settings plan.path patience world.source.2 w := fun w held =>
    ⟨[], [], held.trans (List.append_nil _).symm, .broken ⟨.done, rfl⟩⟩
  have reserved := (Terms.logged world.source.2).reserve settings.patternCharge world rfl
  have planned' : plan.settings? reader.logged.separator = .ok settings := planned
  refine (start_meets_iff planned').mpr
    (reserved.mono ?_ fun _ w failed => unread w failed.1)
  intro _ world' held
  have held' : (Terms.logged world.source.2).world world' := held
  have appended : (World.charging (PathBuffer.empty.append plan.path)).Meets world' _ _ :=
    PathBuffer.empty.append_meets plan.path held'
  refine setOut_meets_iff.mpr (appended.mono ?_ fun _ w failed => unread _ failed.1)
  rintro path world' ⟨held, text, -, -, fits⟩
  change world'.source.2 = world.source.2 at held
  have rooted : Rooted settings plan.path
      { unstarted settings with path, rootLength := path.text.length } :=
    rooted_of_text settings text fits
  have opened : (opening reader.logged patience).Meets (_, world') _ _ :=
    opening_follows_meets rooted
  rw [held] at opened
  exact opened.mono (fun _ _ begun => begun) fun _ _ begun => begun

/-- The reads of an advance lead on from the way of the walk. -/
theorem advance_follows_meets {stages : List Stage} (sound : walk.Sound root)
    (opened : walk.closed = false) (shows : walk.isEmpty = false)
    (same : walk.settings = settings)
    (follow : LevelStack.Follow settings root walk.path.text walk.levels stages) :
    (advance reader.logged patience).Meets (walk, world)
      (fun _ => LedByReads (Stage.Advances reader settings root patience stages) settings root
        world.source.2 .done)
      fun _ => LedByReads (Stage.Advances reader settings root patience stages) settings root
        world.source.2 .broken := by
  have stepped : (step reader.logged patience).Meets (walk, world) _ _ :=
    (step_sound_meets (Terms.any_covers reader.logged) sound trivial).and
      (step_follows_meets sound same follow)
  have onwards : ∀ start : Option Position, Act.Meets (do
        step reader.logged patience
        skipUnmatched reader.logged patience start patience) (walk, world)
      (fun _ => LedByReads (Stage.Advances reader settings root patience stages) settings root
        world.source.2 .done)
      fun _ => LedByReads (Stage.Advances reader settings root patience stages) settings root
        world.source.2 .broken := by
    intro start
    rw [Act.meets_bind]
    refine stepped.mono ?_ fun _ _ failed => failed.2.mono .broken
    rintro _ ⟨next, world'⟩ ⟨⟨-, same', sound'⟩, reads, between, log, steps, follow'⟩
    have further : (skipUnmatched reader.logged patience start patience).Meets (next, world') _ _ :=
      skipUnmatched_follows_meets sound' (same'.settings.trans same) follow'
    change world'.source.2 = world.source.2 ++ reads at log
    rw [log] at further
    exact further.mono (fun _ _ along => along.behind (.onward steps))
      fun _ _ along => along.behind (.onward steps)
  unfold advance getWalk
  simp only [Act.meets_bind, Act.meets_get, Act.meets_pure, opened, shows]
  cases held : walk.held with
  | some shown => exact onwards (some shown)
  | none =>
    by_cases filters : walk.settings.filters = true
    · obtain ⟨shown, position⟩ := sound.exists_shown shows
      rw [Walk.position, held] at position
      simp only [Bool.false_eq_true, if_false, if_pos filters, position]
      exact onwards (some shown)
    · simp only [Bool.false_eq_true, if_false, if_neg filters]
      exact onwards none

/-- Taking a reset back reads nothing. -/
private theorem takeBack_reads_meets (before : Walk) :
    (takeBack before).Meets (walk, world) (fun _ s => s.2.source.2 = world.source.2)
      fun _ s => s.2.source.2 = world.source.2 := by
  unfold takeBack changePath getWalk change
  simp only [Act.meets_bind, Act.meets_modify, Act.meets_get, Act.meets_pure, Act.meets_ofExcept]
  cases walk.path.restore before.path.text <;> rfl

theorem reset_follows_meets (sound : walk.Sound root) (opened : walk.closed = false)
    (same : walk.settings = settings) :
    (reset reader.logged patience).Meets (walk, world)
      (fun _ => LedByReads (Stage.Opens reader settings root patience) settings root
        world.source.2 .done)
      fun _ s => Foundered reader settings root patience world.source.2 s.2 := by
  refine (reset_meets_iff sound opened).mpr
    ((opening_follows_meets (same ▸ sound.rooted opened)).mono ?_ ?_)
  · exact fun _ _ begun => begun
  · rintro fault ⟨after, world'⟩ ⟨reads, stages, log, opens⟩
    have kept : ∀ s : Scene (ρ × List Exchange), s.2.source.2 = world'.source.2 →
        Foundered reader settings root patience world.source.2 s.2 :=
      fun s held => ⟨reads, stages, held.trans log, opens⟩
    exact (takeBack_reads_meets walk).mono (fun _ => kept) fun _ => kept

end Walk

end Catwalk
