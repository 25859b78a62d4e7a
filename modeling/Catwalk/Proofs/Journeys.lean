import Catwalk.Proofs.Readings
import Catwalk.Proofs.Runs

/-!
# Journeys

A journey is what there is to be seen of some entries of a directory: each entry, followed by the
journey through its own directory if that is entered. What a walk has ahead is made of the journeys
of its levels, the deepest first (`Ahead`). A step takes the first sight off what is ahead
(`Stepped.ahead`), and a step that fails takes off nothing (`LevelStack.Tried.ahead`), however the
listings are cut into batches.
-/

namespace Catwalk

open Entry ReadCall

variable {ρ : Type}

/-- An object on a walk's way: its entry, the path of its directory, and the number of directories
that lead to it. -/
structure Sight where
  directory : Text
  entry : Entry
  depth : Nat

namespace Sight

/-- What a walk shows of the object. -/
def position (sight : Sight) : Position :=
  { directory := sight.directory
    storedName := sight.entry.stored.name
    header := sight.entry.stored.header }

end Sight

/-- What there is to be seen of some entries of a directory, in order. -/
inductive Journey (catalogue : Catalogue) (settings : Settings) :
    Text → Nat → List Entry → List Sight → Prop
  | done {path : Text} {depth : Nat} : Journey catalogue settings path depth [] []
  | pass {path : Text} {depth : Nat} {entry : Entry} {entries : List Entry} {later : List Sight} :
      settings.enters entry.stored.header.objectType = false →
      Journey catalogue settings path depth entries later →
      Journey catalogue settings path depth (entry :: entries) (⟨path, entry, depth⟩ :: later)
  | into {path : Text} {depth : Nat} {entry : Entry} {entries listing : List Entry}
      {inside later : List Sight} :
      settings.enters entry.stored.header.objectType = true →
      catalogue (settings.child path entry.name) = .ok listing →
      Journey catalogue settings (settings.child path entry.name) (depth + 1)
        (listed settings.readPattern listing) inside →
      Journey catalogue settings path depth entries later →
      Journey catalogue settings path depth (entry :: entries)
        (⟨path, entry, depth⟩ :: (inside ++ later))

/-- What the levels of a walk at a path have ahead. -/
inductive Ahead (catalogue : Catalogue) (settings : Settings) (path : Text) :
    LevelStack → List Sight → Prop
  | none : Ahead catalogue settings path [] []
  | level {level : Level} {levels : LevelStack} {listing ahead read unread : List Entry}
      {here later : List Sight} :
      catalogue (path.take level.pathLength) = .ok listing →
      level.Reads listing settings.readPattern ahead read unread →
      Journey catalogue settings (path.take level.pathLength) (levels.length + 1) ahead here →
      Ahead catalogue settings path levels later →
      Ahead catalogue settings path (level :: levels) (here ++ later)

/-- What it takes to tell what a walk has ahead: its reader reflects a catalogue of entries that can
be stored, reads look at entries, and buffers are not empty. -/
structure Surroundings (reader : Reader ρ) (catalogue : Catalogue) (source : ρ → Prop)
    (calm : Prop) (settings : Settings) : Prop where
  reflects : reader.ReflectsFor settings.readPattern catalogue source calm
  storable : catalogue.Storable
  looks : 1 ≤ settings.maxEntries
  room : 0 < settings.bufferSize

variable {reader : Reader ρ} {catalogue : Catalogue} {source : ρ → Prop} {calm : Prop}
  {settings : Settings} {path root : Text} {levels : LevelStack} {sights : List Sight}

theorem Surroundings.serving (around : Surroundings reader catalogue source calm settings)
    {listing : List Entry} (found : catalogue path = .ok listing) :
    Level.Serving reader catalogue source calm (settings.request path) listing :=
  ⟨around.reflects, found, around.storable path listing found, around.looks⟩

namespace Ahead

/-- Only the paths of the levels' own directories matter. -/
theorem congr (ahead : Ahead catalogue settings path levels sights) {other : Text}
    (same : ∀ level ∈ levels, other.take level.pathLength = path.take level.pathLength) :
    Ahead catalogue settings other levels sights := by
  induction ahead with
  | none => exact .none
  | level found reads journey _ ih =>
    have here := same _ List.mem_cons_self
    exact .level (here ▸ found) reads (here ▸ journey)
      (ih fun level member => same level (List.mem_cons_of_mem _ member))

/-- A level that is done has nothing ahead. -/
private theorem drained {level : Level}
    (ahead : Ahead catalogue settings path (level :: levels) sights)
    (none' : level.remaining = 0) (ended : level.isExhausted = true) :
    Ahead catalogue settings path levels sights := by
  cases ahead with
  | level found reads journey further =>
    have nothing := reads.nothing none' ended
    subst nothing
    cases journey
    exact further

end Ahead

/-! ## Steps -/

/-- What there is to be seen inside an object of a directory: nothing if it is not entered. -/
def Inside (catalogue : Catalogue) (settings : Settings) (directory : Text) (depth : Nat)
    (entry : Entry) (inside : List Sight) : Prop :=
  settings.enters entry.stored.header.objectType = false ∧ inside = [] ∨
    settings.enters entry.stored.header.objectType = true ∧
      ∃ listing, catalogue (settings.child directory entry.name) = .ok listing ∧
        Journey catalogue settings (settings.child directory entry.name) (depth + 1)
          (listed settings.readPattern listing) inside

/-- What there is to be seen of the entries behind the first, and inside that. -/
theorem Journey.uncons {depth : Nat} {entry : Entry} {entries : List Entry}
    (journey : Journey catalogue settings path depth (entry :: entries) sights) :
    ∃ inside coming, sights = ⟨path, entry, depth⟩ :: (inside ++ coming) ∧
      Inside catalogue settings path depth entry inside ∧
      Journey catalogue settings path depth entries coming := by
  cases journey with
  | pass passes journey => exact ⟨[], _, rfl, .inl ⟨passes, rfl⟩, journey⟩
  | into enters found inner journey =>
    exact ⟨_, _, rfl, .inr ⟨enters, _, found, inner⟩, journey⟩

theorem LevelStack.Tried.ahead (around : Surroundings reader catalogue source calm settings)
    {tried : LevelStack} (attempts : LevelStack.Tried (Terms.keeping source calm) reader
      (settings.requestAt path) levels tried)
    (ahead : Ahead catalogue settings path levels sights) :
    Ahead catalogue settings path tried sights := by
  induction attempts generalizing sights with
  | nil => exact ahead
  | @cons level left levels tried attempt attempts ih =>
    cases ahead with
    | level found reads journey further =>
      have pathLength := (attempt.holds reads.holds).1
      obtain ⟨fresh, rest, reads'⟩ := Level.Reads.tried (around.serving found) reads attempt
      refine .level ?_ reads' ?_ (ih further)
      · rwa [pathLength]
      · rwa [pathLength, ← attempts.length_eq]

private theorem Level.Tried.ahead (around : Surroundings reader catalogue source calm settings)
    {level tried : Level} (attempt : level.Tried (Terms.keeping source calm) reader
      (settings.requestAt path level) tried)
    (ahead : Ahead catalogue settings path (level :: levels) sights) :
    Ahead catalogue settings path (tried :: levels) sights :=
  LevelStack.Tried.ahead around
    (.cons attempt (LevelStack.Tried.refl (Terms.keeping source calm) reader _ levels)) ahead

/-- Going up passes levels that have nothing ahead. -/
private theorem Landing.ahead (around : Surroundings reader catalogue source calm settings)
    {landed : LevelStack} (landing : Landing (Terms.keeping source calm) reader
      (settings.requestAt path) levels landed)
    (ahead : Ahead catalogue settings path levels sights) :
    Ahead catalogue settings path landed sights := by
  induction landing generalizing sights with
  | nowhere => exact ahead
  | here attempt _ => exact attempt.ahead around ahead
  | past attempt none' ended landing ih =>
    exact ih ((attempt.ahead around ahead).drained none' ended)

/-- What stands first is the record of what comes first; next come what is inside, and what is ahead
when the level has dropped that record. -/
theorem Ahead.uncons {level : Level}
    (ahead : Ahead catalogue settings path (level :: levels) sights) {record : Stored}
    {records : List Stored} (holds : level.Holds (record :: records)) :
    ∃ entry inside coming,
      sights = ⟨path.take level.pathLength, entry, levels.length + 1⟩ :: (inside ++ coming) ∧
      record = entry.stored ∧
      (∃ listing, catalogue (path.take level.pathLength) = .ok listing ∧ entry ∈ listing) ∧
      Inside catalogue settings (path.take level.pathLength) (levels.length + 1) entry inside ∧
      ∀ current, { level with current }.Holds records →
        Ahead catalogue settings path ({ level with current } :: levels) coming := by
  cases ahead with
  | @level _ _ listing ahead read unread here later found reads journey further =>
    have held := reads.holds.unique holds
    cases read with
    | nil => cases held
    | cons entry read =>
      have same : entry.stored = record := (List.cons.inj held).1
      have rest : Entry.records read = records := (List.cons.inj held).2
      have known := reads.known entry List.mem_cons_self
      have split := reads.ahead
      rw [List.cons_append] at split
      subst split
      have dropped : ∀ current, { level with current }.Holds records →
          { level with current }.Reads listing settings.readPattern
            (read ++ listed settings.readPattern unread) read unread := fun current holds =>
        ⟨by rwa [rest], reads.left, rfl, fun other member =>
          reads.known other (List.mem_cons_of_mem entry member), reads.positive⟩
      obtain ⟨inside, next, rfl, seen, journey⟩ := journey.uncons
      exact ⟨entry, inside, next ++ later, by rw [List.cons_append, List.append_assoc], same.symm,
        ⟨listing, found, known⟩, seen, fun current holds =>
          .level found (dropped current holds) journey further⟩

namespace Walk

variable {walk before after : Walk}

/-- A directory that has not been read has its whole listing ahead. -/
theorem fresh_reads (around : Surroundings reader catalogue source calm settings)
    (pathLength : Nat) (listing : List Entry) :
    (Level.fresh pathLength settings.bufferSize).Reads listing settings.readPattern
      (listed settings.readPattern listing) [] listing := by
  refine ⟨Level.fresh_holds _ _, ⟨Int.le_refl 0, rfl⟩, rfl, ?_, ?_⟩
  · intro entry member
    cases member
  · simp only [Level.fresh, Bytes.zeros, List.length_replicate]
    exact around.room

theorem filled_reads (around : Surroundings reader catalogue source calm settings)
    {listing : List Entry} (found : catalogue path = .ok listing) {filled : Level}
    (run : (Level.fresh path.length settings.bufferSize).Filled (Terms.keeping source calm) reader
      (settings.request path) filled) :
    filled.pathLength = path.length ∧ ∃ read unread, filled.Reads listing settings.readPattern
      (listed settings.readPattern listing) read unread :=
  have ⟨_, rest, reads⟩ := Level.Reads.tried (around.serving found)
    (fresh_reads around path.length listing) run.tried
  ⟨(run.tried.holds (Level.fresh_holds _ _)).1, _, rest, reads⟩

/-- What a walk does not go into has nothing inside. -/
private theorem Declines.inside (around : Surroundings reader catalogue source calm walk.settings)
    {entry : Entry} (storable : entry.Storable)
    (declines : walk.Declines (Terms.keeping source calm) reader entry.stored) {depth : Nat}
    {inside : List Sight}
    (seen : Inside catalogue walk.settings walk.path.text depth entry inside) : inside = [] := by
  rcases seen with ⟨-, nothing⟩ | ⟨enters, listing, found, journey⟩
  · exact nothing
  · rcases declines with never | ⟨filled, run, none'⟩
    · rw [enters] at never
      cases never
    · have ended := run.isExhausted (Level.fresh_holds _ _) none'
      unfold freshLevel childRequest childPath at run
      rw [storable.decoded] at run
      obtain ⟨-, read, unread, reads⟩ := filled_reads around found run
      rw [reads.nothing none' ended] at journey
      cases journey
      rfl

/-- A step takes the first sight off what is ahead. -/
theorem Stepped.ahead (around : Surroundings reader catalogue source calm before.settings)
    (sound : before.Sound root)
    (stepped : before.Stepped (Terms.keeping source calm) reader after)
    (ahead : Ahead catalogue before.settings before.path.text before.levels sights) :
    ∃ sight coming, sights = sight :: coming ∧
      Ahead catalogue before.settings after.path.text after.levels coming := by
  cases stepped with
  | @entered level inner shallower record records current levels holds enters text fits run left
      holds' levels' =>
    rw [levels] at ahead
    obtain ⟨entry, inside, coming, split, rfl, ⟨home, found, known⟩, seen, further⟩ :=
      ahead.uncons holds
    rw [sound.take_top levels] at found seen
    have decoded := (around.storable _ _ found entry known).decoded
    refine ⟨_, _, split, ?_⟩
    rcases seen with ⟨never, -⟩ | ⟨-, listing, found', journey⟩
    · rw [enters] at never
      cases never
    · unfold freshLevel childRequest at run
      rw [childPath, decoded] at run text
      obtain ⟨pathLength, read, unread, reads⟩ := filled_reads around found' run
      have whole : after.path.text.take inner.pathLength =
          before.settings.child before.path.text entry.name := by
        rw [pathLength, text, List.take_length]
      rw [levels']
      refine .level (whole ▸ found') reads (whole ▸ journey) ?_
      have here : level ∈ before.levels := levels ▸ List.mem_cons_self
      refine (further current holds').congr fun other member => ?_
      rw [text]
      rcases List.mem_cons.mp member with rfl | member
      · exact (sound.take_child entry.name here :)
      · exact sound.take_child entry.name (levels ▸ List.mem_cons_of_mem level member)
  | @moved level filled shallower record next records later current levels holds declines attempt
      holds' holds'' text levels' =>
    rw [levels] at ahead
    obtain ⟨entry, inside, coming, split, rfl, ⟨home, found, known⟩, seen, further⟩ :=
      (attempt.ahead around ahead).uncons holds'
    have pathLength := (attempt.holds holds).1
    rw [pathLength, sound.take_top levels] at found seen
    have nothing := declines.inside around (around.storable _ _ found entry known) seen
    refine ⟨_, _, split, ?_⟩
    rw [levels', text, nothing]
    exact further current holds''
  | @climbed level filled shallower record levels holds declines attempt holds' ended landing
      text =>
    rw [levels] at ahead
    obtain ⟨entry, inside, coming, split, rfl, ⟨home, found, known⟩, seen, further⟩ :=
      (attempt.ahead around ahead).uncons holds'
    have pathLength := (attempt.holds holds).1
    rw [pathLength, sound.take_top levels] at found seen
    have nothing := declines.inside around (around.storable _ _ found entry known) seen
    refine ⟨_, _, split, ?_⟩
    rw [nothing]
    have left := (further none (Level.holds_nil_iff.mpr rfl)).drained rfl ended
    refine (landing.ahead around left).congr fun other member => ?_
    rw [text]
    exact sound.take_ground levels landing member

end Walk

end Catwalk
