import Catwalk.Proofs.Journeys

/-!
# Progress on a journey

A walk on a journey shows the sights of it that match, one after the other. What is due is the sight
that the walk shows and those that it has still to show (`Due`). A call that succeeds takes the
first off what is due and one that fails takes off nothing (`advance_due_meets`); in calm, and given
enough patience, calls succeed.
-/

namespace Catwalk

open Entry ReadCall

variable {ρ : Type} {reader : Reader ρ} {catalogue : Catalogue} {source : ρ → Prop} {calm : Prop}
  {settings : Settings} {path root : Text} {patience bound : Nat} {levels : LevelStack}
  {sights coming : List Sight} {walk before after : Walk} {world : World ρ}

/-- Every listing can be read with this patience. -/
def Catalogue.Within (catalogue : Catalogue) (patience : Nat) : Prop :=
  ∀ path listing, catalogue path = .ok listing → effort listing ≤ patience

/-- Whether an object is shown. -/
def Settings.shows (settings : Settings) (sight : Sight) : Bool :=
  !(settings.filters && !Pattern.matchesName settings.pattern sight.entry.name)

private theorem Ahead.serves (around : Surroundings reader catalogue source calm settings)
    (enough : calm → catalogue.Within patience)
    (ahead : Ahead catalogue settings path levels sights) :
    ∀ level ∈ levels, (Terms.keeping source calm).Serves reader patience
      (settings.requestAt path level) level := by
  induction ahead with
  | none =>
    intro level member
    cases member
  | level found reads _ _ ih =>
    intro other member
    rcases List.mem_cons.mp member with rfl | member
    · exact Level.Reads.serves (around.serving found) reads fun calm => enough calm _ _ found
    · exact ih other member

private theorem fresh_serves (around : Surroundings reader catalogue source calm settings)
    (enough : calm → catalogue.Within patience) {listing : List Entry}
    (found : catalogue path = .ok listing) :
    (Terms.keeping source calm).Serves reader patience (settings.request path)
      (.fresh path.length settings.bufferSize) :=
  Level.Reads.serves (around.serving found) (Walk.fresh_reads around path.length listing)
    fun calm => enough calm path listing found

namespace Walk

/-- The walk has these sights ahead. -/
structure Facing (catalogue : Catalogue) (settings : Settings) (root : Text) (walk : Walk)
    (sights : List Sight) : Prop where
  sound : walk.Sound root
  ahead : Ahead catalogue settings walk.path.text walk.levels sights
  settings : walk.settings = settings

namespace Facing

private theorem levels_eq_nil (facing : walk.Facing catalogue settings root []) :
    walk.levels = [] := by
  cases levels : walk.levels with
  | nil => rfl
  | cons level shallower =>
    obtain ⟨record, records, holds⟩ := facing.sound.exists_record levels
    obtain ⟨entry, inside, coming, split, -⟩ := (levels ▸ facing.ahead).uncons holds
    cases split

/-- A walk stands on the first of the sights that it has ahead. -/
private theorem head (around : Surroundings reader catalogue source calm settings) {sight : Sight}
    {later : List Sight} (facing : walk.Facing catalogue settings root (sight :: later)) :
    walk.livePosition = .ok (some sight.position) ∧ walk.depth = sight.depth ∧
      walk.isUnmatched = .ok (!settings.shows sight) ∧ walk.levels.isEmpty = false := by
  cases levels : walk.levels with
  | nil =>
    have ahead := facing.ahead
    rw [levels] at ahead
    generalize split : sight :: later = sights at ahead
    cases ahead
    cases split
  | cons level shallower =>
    obtain ⟨record, records, holds⟩ := facing.sound.exists_record levels
    obtain ⟨entry, inside, coming, split, rfl, ⟨listing, found, known⟩, -, -⟩ :=
      (levels ▸ facing.ahead).uncons holds
    obtain ⟨rfl, -⟩ := List.cons.inj split
    have decoded := (around.storable _ _ found entry known).decoded
    refine ⟨livePosition_of_holds levels holds, ?_, ?_, rfl⟩
    · rw [depth, levels]
      rfl
    · rw [isUnmatched_of_holds levels holds, facing.settings, decoded, Settings.shows, Bool.not_not]

private theorem holdOn (facing : walk.Facing catalogue settings root sights)
    (held : Option Position) : { walk with held }.Facing catalogue settings root sights :=
  ⟨facing.sound.holdOn held, facing.ahead, facing.settings⟩

private theorem stayed (around : Surroundings reader catalogue source calm settings)
    (facing : before.Facing catalogue settings root sights)
    (stayed : before.Stayed (Terms.keeping source calm) reader after) :
    after.Facing catalogue settings root sights := by
  refine ⟨stayed.sound facing.sound, ?_, stayed.same.settings.trans facing.settings⟩
  have levels := stayed.levels
  rw [facing.settings] at levels
  rw [stayed.text]
  exact levels.ahead around facing.ahead

/-- One step of a walk that has something ahead. -/
private theorem step_meets (around : Surroundings reader catalogue source calm settings)
    (enough : calm → catalogue.Within patience) {sight : Sight} {later : List Sight}
    (facing : walk.Facing catalogue settings root (sight :: later))
    (w : (Terms.keeping source calm).world world) :
    (step reader patience).Meets (walk, world)
      (fun _ s => (Terms.keeping source calm).world s.2 ∧ walk.Same s.1 ∧
        s.1.Facing catalogue settings root later)
      fun _ s => (Terms.keeping source calm).world s.2 ∧ ¬ calm ∧
        walk.Stayed (Terms.keeping source calm) reader s.1 := by
  obtain ⟨sound, ahead, rfl⟩ := facing
  have opens : ∀ level shallower record records, walk.levels = level :: shallower →
      level.Holds (record :: records) → walk.settings.enters record.header.objectType = true →
      (Terms.keeping source calm).Serves reader patience (walk.childRequest record)
        (walk.freshLevel record) := by
    intro level shallower record records levels holds enters
    obtain ⟨entry, inside, coming, -, rfl, ⟨home, found, known⟩, seen, -⟩ :=
      (levels ▸ ahead).uncons holds
    have decoded := (around.storable _ _ found entry known).decoded
    rw [sound.take_top levels] at seen
    rcases seen with ⟨never, -⟩ | ⟨-, listing, found', -⟩
    · rw [enters] at never
      cases never
    · unfold childRequest freshLevel
      rw [childPath, decoded]
      exact fresh_serves around enough found'
  refine (Walk.step_meets sound (ahead.serves around enough) opens w).mono ?_
    fun _ _ failed => failed
  rintro _ s ⟨w, same, ⟨bare, -⟩ | stepped⟩
  · have standing := (head around ⟨sound, ahead, rfl⟩).2.2.2
    rw [bare] at standing
    cases standing
  · obtain ⟨first, coming, split, left⟩ := stepped.ahead around sound ahead
    obtain ⟨-, rfl⟩ := List.cons.inj split
    exact ⟨w, same, stepped.sound same sound, left, same.settings⟩

end Facing

/-! ## Passing over -/

/-- A walk on its way to the next sight that matches, in so many rounds. -/
def Underway (catalogue : Catalogue) (settings : Settings) (root : Text) (calm : Prop)
    (bound : Nat) (coming : List Sight) (n : Nat) (walk : Walk) : Prop :=
  ∃ sights, walk.Facing catalogue settings root sights ∧ sights.filter settings.shows = coming ∧
    sights.length ≤ bound ∧ (calm → sights.length ≤ n)

private theorem underway_rounds (around : Surroundings reader catalogue source calm settings)
    (enough : calm → catalogue.Within patience) :
    Rounds (Terms.keeping source calm) reader patience root
      (Underway catalogue settings root calm bound coming) where
  sound := fun ⟨_, facing, _⟩ => facing.sound
  holdOn := fun held ⟨sights, facing, rest⟩ => ⟨sights, facing.holdOn held, rest⟩
  stays := fun ⟨sights, facing, rest⟩ stayed => ⟨sights, facing.stayed around stayed, rest⟩
  last := by
    rintro walk ⟨sights, facing, -, -, few⟩ unmatched calm
    have nothing := List.eq_nil_of_length_eq_zero (Nat.le_zero.mp (few calm))
    subst nothing
    rw [isUnmatched_of_nil facing.levels_eq_nil] at unmatched
    cases unmatched
  step := by
    rintro n walk world ⟨sights, facing, rfl, short, few⟩ unmatched w
    cases sights with
    | nil =>
      rw [isUnmatched_of_nil facing.levels_eq_nil] at unmatched
      cases unmatched
    | cons sight later =>
      have passes := (facing.head around).2.2.1.symm.trans unmatched
      refine (facing.step_meets around enough w).mono ?_ fun _ _ failed => failed
      rintro _ s ⟨w, same, facing⟩
      refine ⟨w, same, later, facing, ?_, Nat.le_of_succ_le short,
        fun calm => Nat.le_of_succ_le_succ (few calm)⟩
      rw [List.filter_cons_of_neg]
      simpa using passes

/-! ## What is due -/

/-- What an open walk shows and has still to show. While it holds on to what it shows, it may stand
on an object that it passes over. -/
inductive Due (catalogue : Catalogue) (settings : Settings) (root : Text) (bound : Nat)
    (walk : Walk) : List Sight → Prop
  | finished : walk.closed = false → walk.held = none → walk.Facing catalogue settings root [] →
      Due catalogue settings root bound walk []
  | showing {here sight : Sight} {sights : List Sight} :
      walk.closed = false → walk.isEmpty = false →
      walk.Facing catalogue settings root (here :: sights) → sights.length < bound →
      walk.position = .ok (some sight.position) →
      (walk.held = none → walk.depth = sight.depth) →
      Due catalogue settings root bound walk (sight :: sights.filter settings.shows)

namespace Due

theorem kept (due : walk.Due catalogue settings root bound sights) :
    walk.closed = false ∧ walk.Sound root ∧ walk.settings = settings := by
  cases due with
  | finished opened _ facing => exact ⟨opened, facing.sound, facing.settings⟩
  | showing opened _ facing _ _ _ => exact ⟨opened, facing.sound, facing.settings⟩

theorem shown {sight : Sight} {later : List Sight}
    (due : walk.Due catalogue settings root bound (sight :: later)) :
    walk.isEmpty = false ∧ walk.position = .ok (some sight.position) ∧
      (walk.held = none → walk.depth = sight.depth) := by
  cases due with
  | showing _ shows _ _ position depth => exact ⟨shows, position, depth⟩

/-- A walk that has nothing due shows nothing, and is back on its root. -/
theorem ended (due : walk.Due catalogue settings root bound []) :
    walk.isEmpty = true ∧ walk.position = .ok none ∧ walk.depth = 0 ∧ walk.path.text = root := by
  cases due with
  | finished _ unheld facing =>
    have bare := facing.levels_eq_nil
    refine ⟨?_, ?_, ?_, facing.sound.drained bare⟩
    · rw [isEmpty, unheld, bare]
      rfl
    · rw [Walk.position, unheld]
      exact livePosition_of_nil bare
    · rw [depth, bare]
      rfl

/-- A call that leaves a walk where it was leaves what is due. -/
private theorem stayed (around : Surroundings reader catalogue source calm settings)
    (due : before.Due catalogue settings root bound sights)
    (stayed : before.Stayed (Terms.keeping source calm) reader after) :
    after.Due catalogue settings root bound sights := by
  cases due with
  | finished opened unheld facing =>
    exact .finished (stayed.same.closed.trans opened) (stayed.same.held.trans unheld)
      (facing.stayed around stayed)
  | showing opened shows facing short position depth =>
    refine .showing (stayed.same.closed.trans opened) (stayed.isEmpty.trans shows)
      (facing.stayed around stayed) short ((stayed.position facing.sound).trans position) ?_
    intro unheld
    rw [stayed.depth]
    exact depth (stayed.same.held.symm.trans unheld)

end Due

private theorem Settled.due (around : Surroundings reader catalogue source calm settings)
    (settled : walk.Settled settings (Underway catalogue settings root calm bound coming)) :
    walk.Due catalogue settings root bound coming := by
  obtain ⟨-, ⟨n, sights, facing, rfl, short, -⟩, unheld, matched, opened⟩ := settled
  cases sights with
  | nil => exact .finished opened unheld facing
  | cons sight later =>
    obtain ⟨position, depth, unmatched, standing⟩ := facing.head around
    have shows : settings.shows sight = true := by
      simpa using unmatched.symm.trans matched
    rw [List.filter_cons_of_pos shows]
    refine .showing opened ?_ facing short ?_ fun _ => depth
    · rw [isEmpty, unheld, standing]
      rfl
    · rw [Walk.position, unheld]
      exact position

private theorem Interrupted.due (around : Surroundings reader catalogue source calm settings)
    {here sight : Sight} (opened : before.closed = false) (shows : before.isEmpty = false)
    (facing : before.Facing catalogue settings root (here :: sights))
    (short : sights.length < bound) (position : before.position = .ok (some sight.position))
    (depth : before.held = none → before.depth = sight.depth)
    (interrupted : before.Interrupted (Terms.keeping source calm) reader
      (Underway catalogue settings root calm bound (sights.filter settings.shows)) after) :
    after.Due catalogue settings root bound (sight :: sights.filter settings.shows) := by
  cases interrupted with
  | stayed stayed =>
    exact (Due.showing opened shows facing short position depth).stayed around stayed
  | @under n _ setup inv unmatched held position' =>
    obtain ⟨left, facing', same, short', -⟩ := inv
    cases left with
    | nil =>
      rw [isUnmatched_of_nil facing'.levels_eq_nil] at unmatched
      cases unmatched
    | cons passed left =>
      have passes := (facing'.head around).2.2.1.symm.trans unmatched
      rw [List.filter_cons_of_neg (by simpa using passes)] at same
      rw [← same]
      refine .showing (setup.closed.trans opened) ?_ facing' short' (position'.trans position) ?_
      · rw [isEmpty, Option.isNone_eq_false_iff.mpr held, Bool.false_and]
      · intro unheld
        rw [unheld] at held
        cases held

/-- An advance takes the first sight off what is due, or nothing if it fails. -/
theorem advance_due_meets (around : Surroundings reader catalogue source calm settings)
    (enough : calm → catalogue.Within patience ∧ bound ≤ patience) {sight : Sight}
    (due : walk.Due catalogue settings root bound (sight :: coming))
    (w : (Terms.keeping source calm).world world) :
    (advance reader patience).Meets (walk, world)
      (fun _ s => (Terms.keeping source calm).world s.2 ∧ s.1.held = none ∧
        s.1.Due catalogue settings root bound coming)
      fun _ s => (Terms.keeping source calm).world s.2 ∧ ¬ calm ∧
        s.1.Due catalogue settings root bound (sight :: coming) := by
  have within := fun calm => (enough calm).1
  cases due with
  | @showing here _ sights opened shows facing short position depth =>
    have first : (step reader patience).Meets (walk, world)
        (fun _ s => (Terms.keeping source calm).world s.2 ∧ walk.Same s.1 ∧
          Underway catalogue settings root calm bound (sights.filter settings.shows) patience s.1)
        fun _ s => (Terms.keeping source calm).world s.2 ∧ ¬ calm ∧
          walk.Stayed (Terms.keeping source calm) reader s.1 :=
      (facing.step_meets around within w).mono (fun _ s ⟨w, same, left⟩ =>
        ⟨w, same, sights, left, rfl, Nat.le_of_lt short,
          fun calm => Nat.le_trans (Nat.le_of_lt short) (enough calm).2⟩) fun _ _ failed => failed
    refine (advance_meets (underway_rounds around within) facing.sound opened shows first).mono
      ?_ ?_
    · rintro _ s ⟨w, settled⟩
      rw [facing.settings] at settled
      exact ⟨w, settled.unheld, settled.due around⟩
    · rintro fault s ⟨w, wild, interrupted⟩
      exact ⟨w, wild, interrupted.due around opened shows facing short position depth⟩

private theorem Opened.facing (around : Surroundings reader catalogue source calm settings)
    {listing : List Entry} (found : catalogue root = .ok listing)
    (journey : Journey catalogue settings root 1 (listed settings.readPattern listing) sights)
    (rooted : before.Rooted settings root)
    (opened : before.Opened (Terms.keeping source calm) reader after) :
    after.Facing catalogue settings root sights := by
  have sound := opened.sound rooted.sound rooted.bare
  cases opened with
  | @standing inner run left same =>
    rw [rooted.settings, rooted.text] at run
    obtain ⟨pathLength, read, unread, reads⟩ := filled_reads around found run
    subst same
    have whole : before.path.text.take inner.pathLength = root := by
      rw [pathLength, rooted.text, List.take_length]
    refine ⟨sound, ?_, rooted.settings⟩
    rw [← List.append_nil sights]
    exact .level (whole ▸ found) reads (whole ▸ journey) .none
  | @barren filled run none' same =>
    rw [rooted.settings, rooted.text] at run
    obtain ⟨-, read, unread, reads⟩ := filled_reads around found run
    rw [reads.nothing none' (run.isExhausted (Level.fresh_holds _ _) none')] at journey
    cases journey
    refine ⟨sound, ?_, same ▸ rooted.settings⟩
    rw [same, rooted.bare]
    exact .none

/-- A start leaves a walk that has its whole journey due. -/
theorem start_due_meets {plan : Plan} (planned : plan.settings? reader.separator = .ok settings)
    (around : Surroundings reader catalogue source calm settings)
    (enough : calm → catalogue.Within patience ∧ bound ≤ patience) {listing : List Entry}
    (found : catalogue plan.path = .ok listing)
    (journey : Journey catalogue settings plan.path 1 (listed settings.readPattern listing) sights)
    (short : sights.length ≤ bound) (w : (Terms.keeping source calm).world world) :
    (start reader patience plan).Meets world
      (fun walk w => (Terms.keeping source calm).world w ∧ walk.held = none ∧
        walk.Due catalogue settings plan.path bound (sights.filter settings.shows))
      fun _ w => (Terms.keeping source calm).world w ∧ ¬ calm := by
  have within := fun calm => (enough calm).1
  refine (start_meets (underway_rounds around within) planned (fresh_serves around within found)
    (fun before after rooted opened => ⟨sights, opened.facing around found journey rooted, rfl,
      short, fun calm => Nat.le_trans short (enough calm).2⟩) w).mono ?_ fun _ _ failed => failed
  rintro walk world ⟨w, settled⟩
  exact ⟨w, settled.unheld, settled.due around⟩

/-- A reset leaves a walk that has its whole journey due, or what was due before if it fails. -/
theorem reset_due_meets (around : Surroundings reader catalogue source calm settings)
    (enough : calm → catalogue.Within patience ∧ bound ≤ patience) {listing : List Entry}
    (found : catalogue root = .ok listing)
    (journey : Journey catalogue settings root 1 (listed settings.readPattern listing) sights)
    (short : sights.length ≤ bound) (due : walk.Due catalogue settings root bound coming)
    (w : (Terms.keeping source calm).world world) :
    (reset reader patience).Meets (walk, world)
      (fun _ s => (Terms.keeping source calm).world s.2 ∧ s.1.held = none ∧
        s.1.Due catalogue settings root bound (sights.filter settings.shows))
      fun _ s => (Terms.keeping source calm).world s.2 ∧ ¬ calm ∧
        s.1.Due catalogue settings root bound coming := by
  have within := fun calm => (enough calm).1
  obtain ⟨opened, sound, same⟩ := due.kept
  subst same
  refine (reset_meets (underway_rounds around within) sound opened
    (fresh_serves around within found) (fun before after rooted opened =>
      ⟨sights, opened.facing around found journey rooted, rfl, short,
        fun calm => Nat.le_trans short (enough calm).2⟩) w).mono ?_ ?_
  · rintro _ s ⟨w, settled⟩
    exact ⟨w, settled.unheld, settled.due around⟩
  · rintro fault s ⟨w, wild, same, levels, text⟩
    refine ⟨w, wild, due.stayed around ⟨same, text, ?_⟩⟩
    rw [levels]
    exact .refl _ reader _ walk.levels

end Walk

end Catwalk
