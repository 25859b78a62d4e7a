import Catwalk.Proofs.Soundness
import Catwalk.Walk.Run

/-!
# Outcomes of whole calls

What an advance, a start and a reset can come to. All three end in rounds of passing over records
that are not to be shown, so what holds through such rounds is said once, by the number of rounds
that are left (`Rounds`). A call that fails keeps what the walk shows (`advance_meets`), or puts the
whole walk back (`reset_meets`).
-/

namespace Catwalk.Walk

variable {ρ : Type} {terms : Terms ρ} {reader : Reader ρ} {patience : Nat} {root : Text}
  {walk before after : Walk} {world : World ρ}

/-- A plan that is in order has these settings, and any other has none. -/
theorem Plan.settings?_eq_ok_iff {plan : Plan} {separator : Text} {settings : Settings} :
    plan.settings? separator = .ok settings ↔
      (0 ≤ plan.flags ∧ plan.flags < 4) ∧ 24 ≤ plan.bufferSize ∧ 1 ≤ plan.maxEntries ∧
        settings =
          { entersDirectories := plan.flags % 2 = 1
            entersImages := plan.flags / 2 = 1
            pattern := if Pattern.isMatchAll plan.pattern then none else plan.pattern
            bufferSize := plan.bufferSize.toNat
            maxEntries := plan.maxEntries
            separator } := by
  unfold settings? Record.nameOffset
  constructor
  · intro planned
    split at planned
    · cases planned
    split at planned
    · cases planned
    split at planned
    · cases planned
    cases planned
    exact ⟨by omega, by omega, by omega, rfl⟩
  · rintro ⟨flags, size, batch, rfl⟩
    rw [if_neg (by omega), if_neg (by omega), if_neg (by omega)]

/-! ## Passing over -/

theorem isUnmatched_of_nil (levels : walk.levels = []) : walk.isUnmatched = .ok false := by
  rw [isUnmatched, levels, ite_self]

private theorem isUnmatched_of_not_filters (shows : walk.settings.filters = false) :
    walk.isUnmatched = .ok false := by
  rw [isUnmatched, shows]
  rfl

theorem isUnmatched_of_holds {level : Level} {shallower : LevelStack} {record : Stored}
    {records : List Stored} (levels : walk.levels = level :: shallower)
    (holds : level.Holds (record :: records)) :
    walk.isUnmatched = .ok (walk.settings.filters &&
      !Pattern.matchesName walk.settings.pattern (Text.decode record.name)) := by
  unfold isUnmatched
  by_cases filters : walk.settings.filters = true
  · simp only [filters, levels, holds.name, if_true, Bool.true_and]
    rfl
  · rw [if_neg filters, eq_false_of_ne_true filters, Bool.false_and]

theorem Sound.exists_isUnmatched (sound : walk.Sound root) :
    ∃ unmatched, walk.isUnmatched = .ok unmatched := by
  cases levels : walk.levels with
  | nil => exact ⟨false, isUnmatched_of_nil levels⟩
  | cons level shallower =>
    obtain ⟨record, records, holds⟩ := sound.exists_record levels
    exact ⟨_, isUnmatched_of_holds levels holds⟩

theorem Sound.holdOn (sound : walk.Sound root) (held : Option Position) :
    { walk with held }.Sound root :=
  ⟨sound.rootLength, sound.below, sound.fits, sound.stack, sound.top, sound.drained⟩

private theorem Stayed.isUnmatched (stayed : before.Stayed terms reader after)
    (sound : before.Sound root) : after.isUnmatched = before.isUnmatched := by
  rcases stayed.standing sound with
    ⟨none', left⟩ | ⟨level, shallower, tried, left, record, records, later, levels, levels',
      -, holds, holds'⟩
  · rw [isUnmatched_of_nil none', isUnmatched_of_nil left]
  · rw [isUnmatched_of_holds levels holds, isUnmatched_of_holds levels' holds',
      stayed.same.settings]

theorem Stayed.position (stayed : before.Stayed terms reader after) (sound : before.Sound root) :
    after.position = before.position := by
  rw [Walk.position, Walk.position, stayed.same.held, stayed.livePosition sound]

theorem Stayed.isEmpty (stayed : before.Stayed terms reader after) :
    after.isEmpty = before.isEmpty := by
  have depth := stayed.depth
  unfold Walk.depth at depth
  have bare : after.levels.isEmpty = before.levels.isEmpty := by
    rw [Bool.eq_iff_iff, List.isEmpty_iff_length_eq_zero, List.isEmpty_iff_length_eq_zero, depth]
  rw [Walk.isEmpty, Walk.isEmpty, stayed.same.held, bare]

/-- What holds of a walk while it passes over records, by the number of rounds that are left. -/
structure Rounds (terms : Terms ρ) (reader : Reader ρ) (patience : Nat) (root : Text)
    (Inv : Nat → Walk → Prop) : Prop where
  sound : ∀ {n walk}, Inv n walk → walk.Sound root
  holdOn : ∀ {n walk} held, Inv n walk → Inv n { walk with held }
  stays : ∀ {n before after}, Inv n before → before.Stayed terms reader after → Inv n after
  /-- The rounds run out in the middle only if that is a fault to be expected. -/
  last : ∀ {walk}, Inv 0 walk → walk.isUnmatched = .ok true → terms.cause .outOfPatience
  step : ∀ {n walk world}, Inv (n + 1) walk → walk.isUnmatched = .ok true → terms.world world →
    (Walk.step reader patience).Meets (walk, world)
      (fun _ s => terms.world s.2 ∧ walk.Same s.1 ∧ Inv n s.1)
      fun fault s => terms.world s.2 ∧ terms.cause fault ∧ walk.Stayed terms reader s.1

theorem passesOver_meets {start : Option Position} {unmatched : Bool}
    {done : Bool → Scene ρ → Prop} {failed : Fault → Scene ρ → Prop}
    (decided : walk.isUnmatched = .ok unmatched) :
    (passesOver start).Meets (walk, world) done failed ↔
      done unmatched
        ({ walk with held := if unmatched then walk.held.or start else none }, world) := by
  unfold passesOver getWalk change
  simp only [Act.meets_bind, Act.meets_get, Act.meets_pure, Act.meets_ofExcept, decided,
    Act.meets_modify]

/-- Passing over ends on a record to be shown or at the end of the walk. When it fails on the way,
the walk holds on to what it held on to, or else to `start`. -/
private theorem skipUnmatched_meets {Inv : Nat → Walk → Prop}
    (rounds : Rounds terms reader patience root Inv) {start : Option Position} {n : Nat}
    (inv : Inv n walk) (w : terms.world world) :
    (skipUnmatched reader patience start n).Meets (walk, world)
      (fun _ s => terms.world s.2 ∧ walk.SameSetup s.1 ∧ (∃ m, Inv m s.1) ∧ s.1.held = none ∧
        s.1.isUnmatched = .ok false)
      fun fault s => terms.world s.2 ∧ terms.cause fault ∧ walk.SameSetup s.1 ∧ (∃ m, Inv m s.1) ∧
        s.1.held = walk.held.or start ∧ s.1.isUnmatched = .ok true := by
  induction n generalizing walk world with
  | zero =>
    obtain ⟨unmatched, decided⟩ := (rounds.sound inv).exists_isUnmatched
    unfold skipUnmatched
    rw [Act.meets_bind, passesOver_meets decided]
    have kept := rounds.holdOn (if unmatched then walk.held.or start else none) inv
    cases unmatched with
    | false => exact ⟨w, ⟨rfl, rfl, rfl, Nat.le_refl _⟩, ⟨_, kept⟩, rfl, decided⟩
    | true =>
      exact ⟨w, rounds.last inv decided, ⟨rfl, rfl, rfl, Nat.le_refl _⟩, ⟨_, kept⟩, rfl, decided⟩
  | succ n ih =>
    obtain ⟨unmatched, decided⟩ := (rounds.sound inv).exists_isUnmatched
    unfold skipUnmatched
    rw [Act.meets_bind, passesOver_meets decided]
    have kept := rounds.holdOn (if unmatched then walk.held.or start else none) inv
    cases unmatched with
    | false => exact ⟨w, ⟨rfl, rfl, rfl, Nat.le_refl _⟩, ⟨_, kept⟩, rfl, decided⟩
    | true =>
      rw [if_pos rfl] at kept
      have setup : walk.SameSetup { walk with held := walk.held.or start } :=
        ⟨rfl, rfl, rfl, Nat.le_refl _⟩
      rw [if_pos rfl, if_pos rfl, Act.meets_bind]
      refine (rounds.step kept decided w).mono ?_ ?_
      · rintro _ ⟨next, world⟩ ⟨w, same, inv⟩
        refine (ih inv w).mono ?_ ?_
        · rintro _ s ⟨w, setup', done⟩
          exact ⟨w, (setup.trans same.toSameSetup).trans setup', done⟩
        · rintro fault s ⟨w, cause, setup', inv, held, unmatched⟩
          refine ⟨w, cause, (setup.trans same.toSameSetup).trans setup', inv, ?_, unmatched⟩
          rw [held, same.held, Option.or_assoc, Option.or_self]
      · rintro fault s ⟨w, cause, stayed⟩
        refine ⟨w, cause, setup.trans stayed.same.toSameSetup, ⟨_, rounds.stays kept stayed⟩,
          stayed.same.held, ?_⟩
        rw [stayed.isUnmatched (rounds.sound kept)]
        exact decided

/-- A walk that shows every record passes over none. -/
theorem skipUnmatched_of_not_filters (shows : walk.settings.filters = false)
    {start : Option Position} {n : Nat} {done : Unit → Scene ρ → Prop}
    {failed : Fault → Scene ρ → Prop} (met : done () ({ walk with held := none }, world)) :
    (skipUnmatched reader patience start n).Meets (walk, world) done failed := by
  have decided := isUnmatched_of_not_filters shows
  cases n <;>
  · unfold skipUnmatched
    rw [Act.meets_bind, passesOver_meets decided]
    exact met

/-! ## Setting out -/

/-- What reading the directory of the root makes of a walk without levels. -/
inductive Opened (terms : Terms ρ) (reader : Reader ρ) (before after : Walk) : Prop
  | standing {inner : Level} :
      (Level.fresh before.path.text.length before.settings.bufferSize).Filled terms reader
        (before.settings.request before.path.text) inner → 0 < inner.remaining →
      after = { before with levels := [inner] } → Opened terms reader before after
  | barren {filled : Level} :
      (Level.fresh before.path.text.length before.settings.bufferSize).Filled terms reader
        (before.settings.request before.path.text) filled → filled.remaining = 0 →
      after = before → Opened terms reader before after

theorem Opened.sameSetup (opened : before.Opened terms reader after) : before.SameSetup after := by
  cases opened with
  | standing _ _ same =>
    cases same
    exact ⟨rfl, rfl, rfl, Nat.le_refl _⟩
  | barren _ _ same =>
    cases same
    exact .refl _

theorem Opened.sound (opened : before.Opened terms reader after) (sound : before.Sound root)
    (bare : before.levels = []) : after.Sound root := by
  have text := sound.drained bare
  cases opened with
  | @standing inner run left same =>
    obtain ⟨pathLength, fresh, holds⟩ := run.tried.holds (Level.fresh_holds _ _)
    have length : inner.pathLength = before.path.text.length := pathLength
    subst same
    refine sound_of_ground sound.rootLength sound.below sound.fits ?_ length.symm ?_
    · refine LevelStack.sound_cons_iff.mpr ⟨⟨_, holds⟩, ?_, ?_, LevelStack.sound_nil⟩
      · rw [length, text]
        exact Nat.le_refl _
      · intro _
        rw [length, text]
    · intro level found
      cases found
      exact left
  | barren run none' same =>
    rw [same]
    exact sound

theorem openRoot_meets (w : terms.world world) (bare : walk.levels = [])
    (serves : terms.Serves reader patience (walk.settings.request walk.path.text)
      (.fresh walk.path.text.length walk.settings.bufferSize)) :
    (openRoot reader patience).Meets (walk, world)
      (fun _ s => terms.world s.2 ∧ walk.Opened terms reader s.1)
      fun fault s => terms.world s.2 ∧ terms.cause fault ∧ s.1 = walk := by
  unfold openRoot change
  rw [Act.meets_bind]
  refine (openDirectory_meets w serves).mono ?_ ?_
  · rintro found ⟨_, world⟩ ⟨rfl, w, outcome⟩
    cases found with
    | some inner =>
      obtain ⟨run, left⟩ := outcome
      refine ⟨w, .standing run left ?_⟩
      dsimp only
      rw [bare]
    | none =>
      obtain ⟨filled, run, none'⟩ := outcome
      exact ⟨w, .barren run none' rfl⟩
  · rintro fault ⟨_, world⟩ ⟨rfl, w, cause⟩
    exact ⟨w, cause, rfl⟩

/-- Reading the root, and standing on the first object to be shown. -/
def opening (reader : Reader ρ) (patience : Nat) : Act (Scene ρ) Unit := do
  openRoot reader patience
  skipUnmatched reader patience none patience

theorem opening_meets {Inv : Nat → Walk → Prop} (rounds : Rounds terms reader patience root Inv)
    (bare : walk.levels = []) (unheld : walk.held = none)
    (serves : terms.Serves reader patience (walk.settings.request walk.path.text)
      (.fresh walk.path.text.length walk.settings.bufferSize))
    (opens : ∀ after, walk.Opened terms reader after → Inv patience after)
    (w : terms.world world) :
    (opening reader patience).Meets (walk, world)
      (fun _ s => terms.world s.2 ∧ walk.SameSetup s.1 ∧ (∃ n, Inv n s.1) ∧ s.1.held = none ∧
        s.1.isUnmatched = .ok false)
      fun fault s => terms.world s.2 ∧ terms.cause fault ∧ walk.SameSetup s.1 := by
  unfold opening
  rw [Act.meets_bind]
  refine (openRoot_meets w bare serves).mono ?_ ?_
  · rintro _ ⟨opened, world⟩ ⟨w, outcome⟩
    have setup := outcome.sameSetup
    refine (skipUnmatched_meets rounds (opens opened outcome) w).mono ?_ ?_
    · rintro _ s ⟨w, setup', done⟩
      exact ⟨w, setup.trans setup', done⟩
    · rintro fault s ⟨w, cause, setup', -⟩
      exact ⟨w, cause, setup.trans setup'⟩
  · rintro fault ⟨_, world⟩ ⟨w, cause, rfl⟩
    exact ⟨w, cause, .refl _⟩

/-- A walk that has its root, and has not read it. -/
structure Rooted (settings : Settings) (root : Text) (walk : Walk) : Prop where
  sound : walk.Sound root
  settings : walk.settings = settings
  bare : walk.levels = []
  unheld : walk.held = none
  opened : walk.closed = false

theorem Rooted.text {settings : Settings} (rooted : walk.Rooted settings root) :
    walk.path.text = root := rooted.sound.drained rooted.bare

/-- A walk that has not set out has its root once that has been put into its path. -/
theorem rooted_of_text (settings : Settings) {path : PathBuffer} (text : path.text = root)
    (fits : path.text.length < path.capacity) :
    Rooted settings root { unstarted settings with path, rootLength := path.text.length } := by
  refine ⟨sound_of_ground (congrArg List.length text) (text ▸ List.prefix_refl _) fits
    LevelStack.sound_nil (congrArg List.length text) ?_, rfl, rfl, rfl, rfl⟩
  intro level found
  cases found

private theorem changePath_of_ok {update : PathBuffer → Except Fault PathBuffer} {path : PathBuffer}
    (world : World ρ) (updated : update walk.path = .ok path) :
    changePath update (walk, world) = .ok () ({ walk with path }, world) := by
  have looked : getWalk (walk, world) = .ok walk (walk, world) := rfl
  unfold changePath
  rw [Act.bind_of_ok looked, updated]
  rfl

/-- The path of a sound walk can be cut back to the root. -/
private theorem Sound.truncate_root (sound : walk.Sound root) : walk.path.truncate walk.rootLength =
    .ok { walk.path with text := root, saved := walk.path.text } := by
  have long := sound.below.length_le
  have start := List.prefix_iff_eq_take.mp sound.below
  rw [sound.rootLength, PathBuffer.truncate,
    if_pos ⟨Int.natCast_nonneg _, Int.ofNat_le.mpr long⟩, Int.toNat_natCast, ← start]

/-- The walk back at its root, without its levels. -/
def atRoot (walk : Walk) (root : Text) : Walk :=
  { walk with
    path := { walk.path with text := root, saved := walk.path.text }
    levels := []
    held := none }

theorem Sound.rooted (sound : walk.Sound root) (opened : walk.closed = false) :
    (walk.atRoot root).Rooted walk.settings root := by
  refine ⟨sound_of_ground sound.rootLength (List.prefix_refl _) ?_ LevelStack.sound_nil rfl ?_,
    rfl, rfl, rfl, opened⟩
  · exact Nat.lt_of_le_of_lt sound.below.length_le sound.fits
  · intro level found
    cases found

/-- What a call that gets through leaves: a walk that stands where it shows. -/
structure Settled (settings : Settings) (Inv : Nat → Walk → Prop) (walk : Walk) : Prop where
  settings : walk.settings = settings
  inv : ∃ n, Inv n walk
  unheld : walk.held = none
  matched : walk.isUnmatched = .ok false
  opened : walk.closed = false

/-- What a reset takes back is the walk before it, but for the room of the path, which holds the
path of before again. -/
theorem takeBack_of_sameSetup (world : World ρ) (sound : walk.Sound root)
    (setup : (walk.atRoot root).SameSetup after) :
    takeBack walk (after, world) =
      .ok () ({ after with
        path := { after.path with text := walk.path.text, saved := after.path.text }
        levels := walk.levels
        held := walk.held }, world.updateLedger (LevelStack.release after.levels)) := by
  have room : ¬ walk.path.text.length + 1 > after.path.capacity := by
    have fits := sound.fits
    have capacity : walk.path.capacity ≤ after.path.capacity := setup.capacity
    omega
  unfold takeBack
  refine (Act.bind_of_ok rfl).trans (changePath_of_ok _ ?_)
  rw [PathBuffer.restore, if_neg room]

private theorem Terms.releaseWalk (terms : Terms ρ) (walk : Walk) (w : terms.world world) :
    terms.world (world.updateLedger walk.release) :=
  terms.release _ _ (terms.release _ _ (terms.releaseAll walk.levels w))

section
variable {done : Unit → Scene ρ → Prop} {failed : Fault → Scene ρ → Prop}

theorem setOut_meets_iff {path : Text} : (setOut reader patience path).Meets (walk, world) done
      failed ↔
    (World.charging (walk.path.append path)).Meets world
      (fun path w => (opening reader patience).Meets
        ({ walk with path, rootLength := path.text.length }, w) done failed)
      fun fault w => failed fault (walk, w) := by
  unfold setOut getWalk change around opening
  simp only [Act.meets_bind, Act.meets_get, Act.meets_pure, Act.meets_modify, Act.meets_within]

/-- A start pays for the pattern and sets out, and gives all back if that fails. -/
theorem start_meets_iff {plan : Plan} {settings : Settings} {started : Walk → World ρ → Prop}
    {refused : Fault → World ρ → Prop}
    (inOrder : plan.settings? reader.separator = .ok settings) :
    (start reader patience plan).Meets world started refused ↔
      (World.charging (Ledger.reserve settings.patternCharge)).Meets world
        (fun _ w => (setOut reader patience plan.path).Meets (unstarted settings, w)
          (fun _ s => started s.1 s.2)
          fun fault s => refused fault (s.2.updateLedger s.1.release)) refused := by
  unfold start
  simp only [Act.meets_bind, Act.meets_ofExcept, inOrder]
  refine Act.meets_bind.trans (iff_of_eq (congrArg (Act.Meets _ world · refused) ?_))
  funext _ w
  unfold Act.Meets
  dsimp only
  cases setOut reader patience plan.path (unstarted settings, w) <;> rfl

/-- A reset sets out anew from the root, and takes that back if it fails. -/
theorem reset_eq (reader : Reader ρ) (patience : Nat) (world : World ρ) (sound : walk.Sound root)
    (opened : walk.closed = false) :
    reset reader patience (walk, world) =
      (do
        Act.onFault (opening reader patience) (takeBack walk)
        modify fun s => (s.1, s.2.updateLedger (LevelStack.release walk.levels)) :
        Act (Scene ρ) Unit) (walk.atRoot root, world) := by
  have looked : getWalk (walk, world) = .ok walk (walk, world) := rfl
  have cut : changePath (·.truncate walk.rootLength) (walk, world) =
      .ok () ({ walk with path := ⟨root, walk.path.text, walk.path.capacity⟩ }, world) :=
    changePath_of_ok world sound.truncate_root
  unfold reset
  rw [Act.bind_of_ok looked, if_neg (by simp [opened])]
  dsimp only
  rw [Act.bind_of_ok cut]
  rfl

theorem reset_meets_iff (sound : walk.Sound root) (opened : walk.closed = false) :
    (reset reader patience).Meets (walk, world) done failed ↔
      (opening reader patience).Meets (walk.atRoot root, world)
        (fun _ s => done () (s.1, s.2.updateLedger (LevelStack.release walk.levels)))
        fun fault s => (takeBack walk).Meets s (fun _ => failed fault) failed := by
  rw [Act.Meets, reset_eq reader patience world sound opened, ← Act.Meets, Act.meets_bind,
    Act.meets_onFault]
  simp only [Act.meets_modify]

end

theorem start_meets {Inv : Nat → Walk → Prop} {plan : Plan} {settings : Settings}
    (rounds : Rounds terms reader patience plan.path Inv)
    (inOrder : plan.settings? reader.separator = .ok settings)
    (serves : terms.Serves reader patience (settings.request plan.path)
      (.fresh plan.path.length settings.bufferSize))
    (opens : ∀ before after : Walk, before.Rooted settings plan.path →
      before.Opened terms reader after → Inv patience after)
    (w : terms.world world) :
    (start reader patience plan).Meets world
      (fun walk w => terms.world w ∧ walk.Settled settings Inv)
      fun fault w => terms.world w ∧ terms.cause fault := by
  refine (start_meets_iff inOrder).mpr
    ((terms.reserve settings.patternCharge world w).mono ?_ fun _ _ failed => failed)
  intro _ world w
  refine setOut_meets_iff.mpr ((PathBuffer.empty.append_meets plan.path w).mono ?_ ?_)
  · rintro path world ⟨w, text, -, -, fits⟩
    have rooted := rooted_of_text settings text fits
    refine (opening_meets rounds rooted.bare rooted.unheld (by rw [rooted.text]; exact serves)
      (fun after => opens _ after rooted) w).mono ?_ ?_
    · rintro _ s ⟨w, setup, inv, unheld, matched⟩
      exact ⟨w, setup.settings, inv, unheld, matched, setup.closed⟩
    · rintro fault s ⟨w, cause, -⟩
      exact ⟨Terms.releaseWalk terms s.1 w, cause⟩
  · rintro fault world ⟨w, cause⟩
    exact ⟨Terms.releaseWalk terms _ w, cause⟩

/-! ## Going on -/

/-- What an advance that fails leaves: the walk on the object that it stands on, or one on its way
over objects that it passes over, which holds on to what it shows. -/
inductive Interrupted (terms : Terms ρ) (reader : Reader ρ) (Inv : Nat → Walk → Prop)
    (before after : Walk) : Prop
  | stayed : before.Stayed terms reader after → Interrupted terms reader Inv before after
  | under {n : Nat} : before.settings.filters = true → before.SameSetup after → Inv n after →
      after.isUnmatched = .ok true → after.held.isSome = true →
      after.position = before.position → Interrupted terms reader Inv before after

/-- An advance of a walk that shows something takes one step at least. -/
theorem advance_meets {Inv : Nat → Walk → Prop} (rounds : Rounds terms reader patience root Inv)
    (sound : walk.Sound root) (opened : walk.closed = false) (shows : walk.isEmpty = false)
    (first : (step reader patience).Meets (walk, world)
      (fun _ s => terms.world s.2 ∧ walk.Same s.1 ∧ Inv patience s.1)
      fun fault s => terms.world s.2 ∧ terms.cause fault ∧ walk.Stayed terms reader s.1) :
    (advance reader patience).Meets (walk, world)
      (fun _ s => terms.world s.2 ∧ s.1.Settled walk.settings Inv)
      fun fault s => terms.world s.2 ∧ terms.cause fault ∧
        walk.Interrupted terms reader Inv s.1 := by
  obtain ⟨position, shown⟩ := sound.exists_shown shows
  -- a walk that steps over records holds on to what it shows before the first step
  have onwards : ∀ start : Option Position,
      (walk.settings.filters = true → walk.held.or start = some position) →
      Act.Meets (do
          step reader patience
          skipUnmatched reader patience start patience) (walk, world)
        (fun _ s => terms.world s.2 ∧ s.1.Settled walk.settings Inv)
        fun fault s => terms.world s.2 ∧ terms.cause fault ∧
          walk.Interrupted terms reader Inv s.1 := by
    intro start holdsOn
    rw [Act.meets_bind]
    refine first.mono ?_ ?_
    · rintro _ ⟨next, world⟩ ⟨w, same, inv⟩
      by_cases filters : walk.settings.filters = true
      · refine (skipUnmatched_meets rounds inv w).mono ?_ ?_
        · rintro _ s ⟨w, setup, inv, unheld, matched⟩
          exact ⟨w, same.settings ▸ setup.settings, inv, unheld, matched,
            (setup.closed.trans same.closed).trans opened⟩
        · rintro fault s ⟨w, cause, setup, ⟨n, inv⟩, held, unmatched⟩
          rw [same.held, holdsOn filters] at held
          refine ⟨w, cause, .under filters (same.toSameSetup.trans setup) inv unmatched ?_ ?_⟩
          · rw [held]
            rfl
          · rw [shown, Walk.position, held]
      · have shows : next.settings.filters = false :=
          same.settings ▸ eq_false_of_ne_true filters
        refine skipUnmatched_of_not_filters shows ?_
        exact ⟨w, same.settings, ⟨_, rounds.holdOn none inv⟩, rfl,
          isUnmatched_of_not_filters shows, same.closed.trans opened⟩
    · rintro fault s ⟨w, cause, stayed⟩
      exact ⟨w, cause, .stayed stayed⟩
  unfold advance getWalk
  simp only [Act.meets_bind, Act.meets_get, Act.meets_pure, opened, shows]
  cases held : walk.held with
  | some held' =>
    refine onwards _ fun _ => ?_
    rw [Walk.position, held] at shown
    cases shown
    rw [held]
    rfl
  | none =>
    by_cases filters : walk.settings.filters = true
    · rw [Walk.position, held] at shown
      simp only [Bool.false_eq_true, if_false, if_pos filters, shown]
      refine onwards _ fun _ => ?_
      rw [held]
      rfl
    · simp only [Bool.false_eq_true, if_false, if_neg filters]
      exact onwards _ fun shows => absurd shows filters

theorem advance_of_closed (closed : walk.closed = true) :
    advance reader patience (walk, world) = .error .closed (walk, world) := by
  unfold advance getWalk
  rw [bind_assoc, Act.get_bind, pure_bind, if_pos closed]
  rfl

/-- An empty walk stays as it is. -/
theorem advance_of_isEmpty (opened : walk.closed = false) (ended : walk.isEmpty = true) :
    advance reader patience (walk, world) = .ok () (walk, world) := by
  unfold advance getWalk
  rw [bind_assoc, Act.get_bind, pure_bind, if_neg (by simp [opened]), if_pos ended]
  rfl

/-- A reset that fails puts the walk back on the levels that it had. -/
theorem reset_meets {Inv : Nat → Walk → Prop} (rounds : Rounds terms reader patience root Inv)
    (sound : walk.Sound root) (opened : walk.closed = false)
    (serves : terms.Serves reader patience (walk.settings.request root)
      (.fresh root.length walk.settings.bufferSize))
    (opens : ∀ before after : Walk, before.Rooted walk.settings root →
      before.Opened terms reader after → Inv patience after)
    (w : terms.world world) :
    (reset reader patience).Meets (walk, world)
      (fun _ s => terms.world s.2 ∧ s.1.Settled walk.settings Inv)
      fun fault s => terms.world s.2 ∧ terms.cause fault ∧ walk.Same s.1 ∧
        s.1.levels = walk.levels ∧ s.1.path.text = walk.path.text := by
  have rooted := sound.rooted opened
  refine (reset_meets_iff sound opened).mpr ((opening_meets rounds rooted.bare rooted.unheld serves
    (fun after => opens _ after rooted) w).mono ?_ ?_)
  · rintro _ s ⟨w, setup, inv, unheld, matched⟩
    exact ⟨terms.releaseAll _ w, setup.settings, inv, unheld, matched, setup.closed.trans opened⟩
  · rintro fault s ⟨w, cause, setup⟩
    rw [Act.Meets, takeBack_of_sameSetup s.2 sound setup]
    exact ⟨terms.releaseAll _ w, cause,
      ⟨⟨setup.settings, setup.rootLength, setup.closed, setup.capacity⟩, rfl⟩, rfl, rfl⟩

theorem reset_of_closed (closed : walk.closed = true) :
    reset reader patience (walk, world) = .error .closed (walk, world) := by
  unfold reset getWalk
  rw [bind_assoc, Act.get_bind, pure_bind, if_pos closed]
  rfl

end Catwalk.Walk
