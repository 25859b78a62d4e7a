import Catwalk.Proofs.Additions
import Catwalk.Proofs.Progress

/-!
# Walks among added files

A walk through a catalogue comes upon the files that are added to it meanwhile and shows them too,
if they match, but it loses nothing of its journey over them: each object that it stands on is
either the next sight of the journey or such a newcomer, and a step leaves all sights behind the
first (`Walk.Heading.exists_standing`). Every step also takes something off the work that is left
(`workLeft`), since a newcomer is a file and can only be met in front of a cursor. So a walk that
may meet as many newcomers as the bound allows comes to its end.
-/

namespace Catwalk

open Entry ReadCall

variable {ρ : Type} {reader : Reader ρ} {catalogue : Catalogue} {source : ρ → Prop} {calm : Prop}
  {settings : Settings} {home : Text → Nat → Prop} {path root : Text} {bound patience n : Nat}
  {levels : LevelStack} {sights coming : List Sight} {sight : Sight}

/-- As long as its source is as it should be, a reader answers from the listings of a catalogue, to
which files may have been added. -/
structure Reader.Enlarges (reader : Reader ρ) (catalogue : Catalogue) (source : ρ → Prop)
    (bound : Nat) : Prop where
  keeps : ∀ call s, source s → source (reader.read call s).2
  answers : ∀ call s listing, source s → catalogue call.path = .ok listing →
    ∃ whole, Enlarged (Joins listing) bound bound listing whole ∧
      (reader.read call s).1 = call.fill whole

/-- What it takes to tell what a walk has ahead where files are added to a catalogue: its reader
answers from such listings, reads look at entries, buffers are not empty, and the directories that
the walk enters, each at its depth, are where newcomers may be found. -/
structure EnlargedSurroundings (reader : Reader ρ) (catalogue : Catalogue) (source : ρ → Prop)
    (bound : Nat) (settings : Settings) (home : Text → Nat → Prop) : Prop where
  enlarges : reader.Enlarges catalogue source bound
  storable : catalogue.Storable
  looks : 1 ≤ settings.maxEntries
  room : 0 < settings.bufferSize
  deeper : ∀ {path depth listing inner entry}, home path depth → catalogue path = .ok listing →
    entry ∈ listing → settings.enters entry.stored.header.objectType = true →
    catalogue (settings.child path entry.name) = .ok inner →
    home (settings.child path entry.name) (depth + 1)

private theorem EnlargedSurroundings.answersEnlarged
    (surroundings : EnlargedSurroundings reader catalogue source bound settings home)
    {listing : List Entry} (found : catalogue path = .ok listing) :
    Level.AnswersEnlarged reader source calm (Joins listing) bound bound (settings.request path)
      listing where
  keeps := surroundings.enlarges.keeps
  answers call s held same _ :=
    .inl (surroundings.enlarges.answers call s listing held ((congrArg catalogue same).trans found))
  storable := surroundings.storable path listing found
  new _ joins := ⟨joins.storable, joins.not_mem⟩
  looks := surroundings.looks

/-- A file that has been added to a directory on the way. -/
structure Newcomer (catalogue : Catalogue) (home : Text → Nat → Prop) (sight : Sight) : Prop where
  home : home sight.directory sight.depth
  joins : ∃ listing, catalogue sight.directory = .ok listing ∧ sight.entry.Joins listing

/-- Files are never entered. -/
private theorem enters_of_joins {listing : List Entry} {entry : Entry} (settings : Settings)
    (joins : entry.Joins listing) : settings.enters entry.stored.header.objectType = false := by
  change settings.enters (Word.ofInt entry.objectType) = false
  rw [joins.file]
  rfl

/-- What is left of the sights of a journey behind an object: that is the first of them, or it is a
newcomer and not among them. -/
inductive Takes (newcomer : Sight → Prop) (sight : Sight) : List Sight → List Sight → Prop
  | first (coming : List Sight) : Takes newcomer sight (sight :: coming) coming
  | newcomer {sights : List Sight} : newcomer sight → Takes newcomer sight sights sights

namespace Takes

variable {newcomer : Sight → Prop}

private theorem filter_of_pos {shows : Sight → Bool} (takes : Takes newcomer sight sights coming)
    (shown : shows sight = true) :
    Takes newcomer sight (sights.filter shows) (coming.filter shows) := by
  cases takes with
  | first =>
    rw [List.filter_cons_of_pos shown]
    exact .first _
  | newcomer new => exact .newcomer new

private theorem filter_of_neg {shows : Sight → Bool} (takes : Takes newcomer sight sights coming)
    (passed : shows sight = false) : coming.filter shows = sights.filter shows := by
  cases takes with
  | first => rw [List.filter_cons_of_neg (by simp [passed])]
  | newcomer => rfl

end Takes

/-- What is left to do for a walk that has these sights and at most so many records ahead. A sight
may be a directory with as many entries as the bound allows. -/
def workLeft (bound : Nat) (sights : List Sight) (n : Nat) : Nat := (bound + 1) * sights.length + n

private theorem Takes.workLeft_lt {newcomer : Sight → Prop}
    (takes : Takes newcomer sight sights coming)
    {m : Nat} (less : m < n) : workLeft bound coming m < workLeft bound sights n := by
  unfold workLeft
  cases takes with
  | first =>
    rw [List.length_cons, Nat.mul_succ]
    omega
  | newcomer => omega

/-- Going into a sight may bring as many records as the bound allows. -/
private theorem workLeft_lt_of_first (sight : Sight) (coming : List Sight) (m : Nat) :
    workLeft bound coming (m + bound) < workLeft bound (sight :: coming) (m + 1) := by
  unfold workLeft
  rw [List.length_cons, Nat.mul_succ]
  omega

/-- What the levels of a walk at a path have ahead: sights of the journey, and at most so many
records in all that they hold or may still read, before they enter anything. -/
inductive AheadWithin (catalogue : Catalogue) (settings : Settings) (home : Text → Nat → Prop)
    (bound : Nat) (path : Text) : LevelStack → List Sight → Nat → Prop
  | none {n : Nat} : AheadWithin catalogue settings home bound path [] [] n
  | level {level : Level} {levels : LevelStack} {listing ahead read unread : List Entry}
      {here later : List Sight} {m n : Nat} :
      home (path.take level.pathLength) (levels.length + 1) →
      catalogue (path.take level.pathLength) = .ok listing →
      level.Spans (Joins listing) bound listing settings.readPattern ahead read unread →
      Journey catalogue settings (path.take level.pathLength) (levels.length + 1) ahead here →
      read.length + entriesLeft bound level.cursor + m ≤ n →
      AheadWithin catalogue settings home bound path levels later m →
      AheadWithin catalogue settings home bound path (level :: levels) (here ++ later) n

namespace AheadWithin

theorem congr (ahead : AheadWithin catalogue settings home bound path levels sights n)
    {other : Text}
    (same : ∀ level ∈ levels, other.take level.pathLength = path.take level.pathLength) :
    AheadWithin catalogue settings home bound other levels sights n := by
  induction ahead with
  | none => exact .none
  | level homely found spans journey few _ ih =>
    have here := same _ List.mem_cons_self
    exact .level (here ▸ homely) (here ▸ found) spans (here ▸ journey) few
      (ih fun level member => same level (List.mem_cons_of_mem _ member))

private theorem weaken (ahead : AheadWithin catalogue settings home bound path levels sights n)
    {k : Nat} (le : n ≤ k) : AheadWithin catalogue settings home bound path levels sights k := by
  cases ahead with
  | none => exact .none
  | level homely found spans journey few further =>
    exact .level homely found spans journey (Nat.le_trans few le) further

/-- With a larger bound, there may be more records ahead, but not more sights. -/
private theorem enlarge (ahead : AheadWithin catalogue settings home bound path levels sights n)
    {larger : Nat} (le : bound ≤ larger) :
    ∃ k, AheadWithin catalogue settings home larger path levels sights k := by
  induction ahead with
  | none => exact ⟨0, .none⟩
  | level homely found spans journey few _ ih =>
    obtain ⟨k, further⟩ := ih
    exact ⟨_, .level homely found (spans.mono le) journey (Nat.le_refl _) further⟩

/-- A level that is done has nothing ahead. -/
private theorem drained {level : Level}
    (ahead : AheadWithin catalogue settings home bound path (level :: levels) sights n)
    (none' : level.remaining = 0) (ended : level.isExhausted = true) :
    AheadWithin catalogue settings home bound path levels sights n := by
  cases ahead with
  | level homely found spans journey few further =>
    have nothing := spans.nothing none' ended
    subst nothing
    cases journey
    exact further.weaken (by omega)

private theorem serves
    (surroundings : EnlargedSurroundings reader catalogue source bound settings home)
    (enough : calm → 2 * bound < patience)
    (ahead : AheadWithin catalogue settings home bound path levels sights n) :
    ∀ level ∈ levels, (Terms.keeping source calm).Serves reader patience
      (settings.requestAt path level) level := by
  induction ahead with
  | none => exact nofun
  | level _ found spans _ _ _ ih =>
    exact List.forall_mem_cons.mpr
      ⟨spans.serves (surroundings.answersEnlarged found) fun calm =>
        Nat.two_mul bound ▸ enough calm, ih⟩

end AheadWithin

/-! ## Steps -/

private theorem LevelStack.Tried.aheadWithin
    (surroundings : EnlargedSurroundings reader catalogue source bound settings home)
    {tried : LevelStack} (attempts : LevelStack.Tried (Terms.keeping source calm) reader
      (settings.requestAt path) levels tried)
    (ahead : AheadWithin catalogue settings home bound path levels sights n) :
    AheadWithin catalogue settings home bound path tried sights n := by
  induction attempts generalizing sights n with
  | nil => exact ahead
  | cons attempt attempts ih =>
    cases ahead with
    | level homely found spans journey few further =>
      have pathLength := (attempt.holds spans.holds).1
      obtain ⟨fresh, rest, spans', shrinks⟩ :=
        spans.tried (surroundings.answersEnlarged found) attempt
      refine .level ?_ ?_ spans' ?_ ?_ (ih further)
      · rwa [pathLength, ← attempts.length_eq]
      · rwa [pathLength]
      · rwa [pathLength, ← attempts.length_eq]
      · rw [List.length_append]
        omega

private theorem Landing.aheadWithin
    (surroundings : EnlargedSurroundings reader catalogue source bound settings home)
    {landed : LevelStack} (landing : Landing (Terms.keeping source calm) reader
      (settings.requestAt path) levels landed)
    (ahead : AheadWithin catalogue settings home bound path levels sights n) :
    AheadWithin catalogue settings home bound path landed sights n := by
  have one : ∀ {level tried : Level} {levels : LevelStack} {sights : List Sight},
      level.Tried (Terms.keeping source calm) reader (settings.requestAt path level) tried →
      AheadWithin catalogue settings home bound path (level :: levels) sights n →
      AheadWithin catalogue settings home bound path (tried :: levels) sights n :=
    fun attempt => LevelStack.Tried.aheadWithin surroundings
      (.cons attempt (LevelStack.Tried.refl (Terms.keeping source calm) reader _ _))
  induction landing generalizing sights with
  | nowhere => exact ahead
  | here attempt _ => exact one attempt ahead
  | past attempt none' ended _ ih => exact ih ((one attempt ahead).drained none' ended)

/-- What stands first of what a level has ahead: the record of the next sight or of a newcomer. Next
comes what is inside, and then what is ahead when the level, refilled or not, has dropped that
record. -/
structure AheadWithin.Front (reader : Reader ρ) (catalogue : Catalogue) (source : ρ → Prop)
    (calm : Prop) (settings : Settings) (home : Text → Nat → Prop) (bound : Nat) (path : Text)
    (level : Level) (levels : LevelStack) (sights : List Sight) (n : Nat) (directory : Text)
    (entry : Entry) (inside coming : List Sight) (m : Nat) : Prop where
  storable : entry.Storable
  fewer : n = m + 1
  takes : Takes (Newcomer catalogue home) ⟨directory, entry, levels.length + 1⟩ sights
    (inside ++ coming)
  seen : Inside catalogue settings directory (levels.length + 1) entry inside
  deeper : ∀ inner, settings.enters entry.stored.header.objectType = true →
    catalogue (settings.child directory entry.name) = .ok inner →
    home (settings.child directory entry.name) (levels.length + 1 + 1)
  onward : ∀ filled current rest,
    level.Tried (Terms.keeping source calm) reader (settings.requestAt path level) filled →
    filled.Holds (entry.stored :: rest) → { filled with current }.Holds rest →
    AheadWithin catalogue settings home bound path ({ filled with current } :: levels) coming m

private theorem AheadWithin.exists_front (calm : Prop)
    (surroundings : EnlargedSurroundings reader catalogue source bound settings home)
    {level : Level}
    (ahead : AheadWithin catalogue settings home bound path (level :: levels) sights n)
    {record : Stored} {records : List Stored} (holds : level.Holds (record :: records)) :
    ∃ entry inside coming m, record = entry.stored ∧
      AheadWithin.Front reader catalogue source calm settings home bound path level levels sights n
        (path.take level.pathLength) entry inside coming m := by
  cases ahead with
  | @level _ _ listing ahead read unread here later m _ homely found spans journey few further =>
    have held := spans.holds.unique holds
    cases read with
    | nil => cases held
    | cons entry read =>
      obtain ⟨same, -⟩ := List.cons.inj held
      rw [List.length_cons] at few
      obtain ⟨k, rfl⟩ : ∃ k, n = k + 1 := ⟨n - 1, by omega⟩
      have split : ahead = kept listing [entry] ++
          (kept listing read ++ listed settings.readPattern unread) := by
        rw [← List.append_assoc, ← kept_append]
        exact spans.ahead
      -- what the level has ahead once the record is dropped
      have onward : ∀ {next}, Journey catalogue settings (path.take level.pathLength)
            (levels.length + 1) (kept listing read ++ listed settings.readPattern unread) next →
          ∀ filled current rest,
            level.Tried (Terms.keeping source calm) reader (settings.requestAt path level) filled →
            filled.Holds (entry.stored :: rest) → { filled with current }.Holds rest →
            AheadWithin catalogue settings home bound path ({ filled with current } :: levels)
              (next ++ later) k := by
        intro next journey filled current rest attempt holds' holds''
        have pathLength := (attempt.holds spans.holds).1
        obtain ⟨fresh, unread', spans', shrinks⟩ :=
          spans.tried (surroundings.answersEnlarged found) attempt
        have rest' : Entry.records (read ++ fresh) = rest :=
          (List.cons.inj (spans'.holds.unique holds')).2
        have size : (read ++ fresh).length + entriesLeft bound filled.cursor + m ≤ k := by
          rw [List.length_append]
          omega
        exact .level (pathLength ▸ homely) (pathLength ▸ found)
          (spans'.drop split (rest' ▸ holds'')) (pathLength ▸ journey) size further
      rcases (spans.held entry List.mem_cons_self).known with member | joins
      · rw [split, kept_eq_self (List.forall_mem_singleton.mpr member)] at journey
        obtain ⟨inside, next, rfl, seen, journey⟩ := journey.uncons
        refine ⟨entry, inside, next ++ later, k, same.symm,
          surroundings.storable _ _ found entry member, rfl, ?_, seen,
          fun inner enters found' => surroundings.deeper homely found member enters found',
          onward journey⟩
        rw [List.cons_append, List.append_assoc]
        exact .first _
      · have nothing : kept listing [entry] = [] :=
          List.filter_cons_of_neg (by simpa using joins.not_mem)
        rw [split, nothing] at journey
        refine ⟨entry, [], here ++ later, k, same.symm, joins.storable, rfl,
          .newcomer ⟨homely, listing, found, joins⟩, .inl ⟨enters_of_joins settings joins, rfl⟩, ?_,
          onward journey⟩
        intro inner goes
        rw [enters_of_joins settings joins] at goes
        cases goes

namespace Walk

variable {walk before after : Walk} {world : World ρ}

/-- A directory that has not been read has its whole listing ahead. -/
private theorem fresh_spans
    (surroundings : EnlargedSurroundings reader catalogue source bound settings home)
    (pathLength : Nat) (listing : List Entry) :
    (Level.fresh pathLength settings.bufferSize).Spans (Joins listing) bound listing
      settings.readPattern (listed settings.readPattern listing) [] listing := by
  refine ⟨Level.fresh_holds _ _, ⟨Int.le_refl 0, rfl⟩, rfl, nofun, ?_⟩
  simp only [Level.fresh, Bytes.zeros, List.length_replicate]
  exact surroundings.room

private theorem serves_of_fresh
    (surroundings : EnlargedSurroundings reader catalogue source bound settings home)
    (enough : calm → 2 * bound < patience) {listing : List Entry}
    (found : catalogue path = .ok listing) :
    (Terms.keeping source calm).Serves reader patience (settings.request path)
      (.fresh path.length settings.bufferSize) :=
  (fresh_spans surroundings path.length listing).serves (surroundings.answersEnlarged found)
    fun calm => Nat.two_mul bound ▸ enough calm

/-- A directory that has been read once holds no more records, with those that it may still read,
than the bound allows. -/
private theorem filled_spans
    (surroundings : EnlargedSurroundings reader catalogue source bound settings home)
    {listing : List Entry} (found : catalogue path = .ok listing) {filled : Level}
    (run : (Level.fresh path.length settings.bufferSize).Filled (Terms.keeping source calm) reader
      (settings.request path) filled) :
    filled.pathLength = path.length ∧ ∃ read unread,
      filled.Spans (Joins listing) bound listing settings.readPattern
        (listed settings.readPattern listing) read unread ∧
      read.length + entriesLeft bound filled.cursor ≤ bound := by
  obtain ⟨fresh, rest, spans, shrinks⟩ := (fresh_spans surroundings path.length listing).tried
    (surroundings.answersEnlarged found) run.tried
  exact ⟨(run.tried.holds (Level.fresh_holds _ _)).1, fresh, rest, spans,
    Nat.le_trans shrinks (entriesLeft_le bound _)⟩

/-- What a walk does not go into has nothing inside. -/
private theorem Declines.nothing
    (surroundings : EnlargedSurroundings reader catalogue source bound walk.settings home)
    {entry : Entry} (storable : entry.Storable)
    (declines : walk.Declines (Terms.keeping source calm) reader entry.stored) {depth : Nat}
    {inside : List Sight}
    (seen : Inside catalogue walk.settings walk.path.text depth entry inside) : inside = [] := by
  rcases seen with ⟨-, nothing⟩ | ⟨enters, listing, found, journey⟩
  · exact nothing
  · rcases declines with never | ⟨filled, run, none'⟩
    · rw [enters] at never
      cases never
    · have ended := run.isExhausted (Level.fresh_holds _ _) none'
      unfold freshLevel childRequest childPath at run
      rw [storable.decoded] at run
      obtain ⟨-, read, unread, spans, -⟩ := filled_spans surroundings found run
      rw [spans.nothing none' ended] at journey
      cases journey
      rfl

/-- The walk has these sights of its journey ahead, and at most so many records. -/
structure Heading (catalogue : Catalogue) (settings : Settings) (home : Text → Nat → Prop)
    (bound : Nat) (root : Text) (walk : Walk) (sights : List Sight) (n : Nat) : Prop where
  sound : walk.Sound root
  ahead : AheadWithin catalogue settings home bound walk.path.text walk.levels sights n
  settings : walk.settings = settings

/-- What a walk stands on, and what it has ahead behind that: reading what is inside succeeds in
calm, and a step leaves less to do. -/
structure Standing (reader : Reader ρ) (catalogue : Catalogue) (source : ρ → Prop) (calm : Prop)
    (settings : Settings) (home : Text → Nat → Prop) (bound : Nat) (walk : Walk)
    (sights : List Sight) (n : Nat) (sight : Sight) (coming : List Sight) : Prop where
  busy : 0 < workLeft bound sights n
  takes : Takes (Newcomer catalogue home) sight sights coming
  position : walk.livePosition = .ok (some sight.position)
  depth : walk.depth = sight.depth
  unmatched : walk.isUnmatched = .ok (!settings.shows sight)
  opens : ∀ patience, (calm → 2 * bound < patience) → ∀ level shallower record records,
    walk.levels = level :: shallower → level.Holds (record :: records) →
      walk.settings.enters record.header.objectType = true →
      (Terms.keeping source calm).Serves reader patience (walk.childRequest record)
        (walk.freshLevel record)
  onward : ∀ after, walk.Stepped (Terms.keeping source calm) reader after → ∃ m,
    workLeft bound coming m < workLeft bound sights n ∧
    AheadWithin catalogue settings home bound after.path.text after.levels coming m

namespace Heading

private theorem eq_nil (heading : walk.Heading catalogue settings home bound root sights n)
    (bare : walk.levels = []) : sights = [] := by
  have ahead := heading.ahead
  rw [bare] at ahead
  cases ahead
  rfl

private theorem holdOn (heading : walk.Heading catalogue settings home bound root sights n)
    (held : Option Position) :
    { walk with held }.Heading catalogue settings home bound root sights n :=
  ⟨heading.sound.holdOn held, heading.ahead, heading.settings⟩

private theorem stayed
    (surroundings : EnlargedSurroundings reader catalogue source bound settings home)
    (heading : before.Heading catalogue settings home bound root sights n)
    (stayed : before.Stayed (Terms.keeping source calm) reader after) :
    after.Heading catalogue settings home bound root sights n := by
  refine ⟨stayed.sound heading.sound, ?_, stayed.same.settings.trans heading.settings⟩
  have levels := stayed.levels
  rw [heading.settings] at levels
  rw [stayed.text]
  exact levels.aheadWithin surroundings heading.ahead

/-- A step of a walk takes the first record off what is ahead. -/
private theorem exists_onward
    (surroundings : EnlargedSurroundings reader catalogue source bound walk.settings home)
    (sound : walk.Sound root) {level : Level} {shallower : LevelStack}
    (levels : walk.levels = level :: shallower) {entry : Entry} {records : List Stored}
    (holds : level.Holds (entry.stored :: records)) {inside : List Sight} {m : Nat}
    (front : AheadWithin.Front reader catalogue source calm walk.settings home bound walk.path.text
      level shallower sights n walk.path.text entry inside coming m)
    (stepped : walk.Stepped (Terms.keeping source calm) reader after) :
    ∃ k, workLeft bound (inside ++ coming) k < workLeft bound sights n ∧
      AheadWithin catalogue walk.settings home bound after.path.text after.levels (inside ++ coming)
        k := by
  obtain ⟨storable, rfl, takes, seen, deeper, onward⟩ := front
  cases stepped with
  | @entered level' inner shallower' record records' current levels' holds' enters text fits run
      left holds'' after' =>
    rw [levels] at levels'
    cases levels'
    obtain ⟨rfl, rfl⟩ := List.cons.inj (holds.unique holds')
    rcases seen with ⟨never, -⟩ | ⟨-, listing, found, journey⟩
    · rw [enters] at never
      cases never
    · cases takes with
      | newcomer new =>
        obtain ⟨-, listing', -, joins⟩ := new
        rw [enters_of_joins walk.settings joins] at enters
        cases enters
      | first =>
        refine ⟨m + bound, workLeft_lt_of_first _ _ m, ?_⟩
        unfold freshLevel childRequest at run
        rw [childPath, storable.decoded] at run text
        obtain ⟨pathLength, read, unread, spans, few⟩ := filled_spans surroundings found run
        have whole : after.path.text.take inner.pathLength =
            walk.settings.child walk.path.text entry.name := by
          rw [pathLength, text, List.take_length]
        have size : read.length + entriesLeft bound inner.cursor + m ≤ m + bound := by omega
        have here : level ∈ walk.levels := levels ▸ List.mem_cons_self
        rw [after']
        refine .level (whole ▸ deeper _ enters found) (whole ▸ found) spans (whole ▸ journey)
          size ?_
        refine (onward level current _ (.inl rfl) holds holds'').congr fun other member => ?_
        rw [text]
        rcases List.mem_cons.mp member with rfl | member
        · exact (sound.take_child entry.name here :)
        · exact sound.take_child entry.name (levels ▸ List.mem_cons_of_mem level member)
  | @moved level' filled shallower' record next records' later current levels' holds' declines
      attempt held holds'' text after' =>
    rw [levels] at levels'
    cases levels'
    obtain ⟨rfl, rfl⟩ := List.cons.inj (holds.unique holds')
    have nothing := declines.nothing surroundings storable seen
    subst nothing
    refine ⟨m, takes.workLeft_lt (Nat.lt_succ_self m), ?_⟩
    rw [after', text]
    exact onward filled current _ attempt held holds''
  | @climbed level' filled shallower' record levels' holds' declines attempt held ended landing
      text =>
    rw [levels] at levels'
    cases levels'
    obtain ⟨rfl, rfl⟩ := List.cons.inj (holds.unique holds')
    have nothing := declines.nothing surroundings storable seen
    subst nothing
    refine ⟨m, takes.workLeft_lt (Nat.lt_succ_self m), ?_⟩
    have dropped := onward filled none [] attempt held (Level.holds_nil_iff.mpr rfl)
    have left := dropped.drained rfl ended
    refine (landing.aheadWithin surroundings left).congr fun other member => ?_
    rw [text]
    exact sound.take_ground levels landing member

/-- A walk that has levels stands on the next sight of its journey or on a newcomer. -/
theorem exists_standing
    (surroundings : EnlargedSurroundings reader catalogue source bound settings home)
    (heading : walk.Heading catalogue settings home bound root sights n)
    (standing : walk.levels ≠ []) (calm : Prop) :
    ∃ sight coming, walk.Standing reader catalogue source calm settings home bound sights n sight
      coming := by
  obtain ⟨sound, ahead, rfl⟩ := heading
  obtain ⟨level, shallower, levels⟩ := List.exists_cons_of_ne_nil standing
  obtain ⟨record, records, holds⟩ := sound.exists_record levels
  obtain ⟨entry, inside, coming, m, rfl, front⟩ :=
    (levels ▸ ahead).exists_front calm surroundings holds
  rw [sound.take_top levels] at front
  have busy : 0 < n := front.fewer ▸ Nat.succ_pos m
  refine ⟨⟨walk.path.text, entry, shallower.length + 1⟩, inside ++ coming,
    Nat.lt_of_lt_of_le busy (Nat.le_add_left _ _), front.takes, ?_, ?_, ?_, ?_,
    fun after stepped => exists_onward surroundings sound levels holds front stepped⟩
  · rw [livePosition_of_holds levels holds, sound.take_top levels]
    rfl
  · rw [depth, levels]
    rfl
  · rw [isUnmatched_of_holds levels holds, front.storable.decoded, Settings.shows, Bool.not_not]
  · intro patience enough level' shallower' record' records' levels' holds' enters
    rw [levels] at levels'
    cases levels'
    obtain ⟨rfl, -⟩ := List.cons.inj (holds.unique holds')
    rcases front.seen with ⟨never, -⟩ | ⟨-, listing, found, -⟩
    · rw [enters] at never
      cases never
    · unfold childRequest freshLevel
      rw [childPath, front.storable.decoded]
      exact serves_of_fresh surroundings enough found

/-- One step of a walk that stands on something leaves what comes behind that. -/
private theorem step_meets
    (surroundings : EnlargedSurroundings reader catalogue source bound settings home)
    (enough : calm → 2 * bound < patience)
    (heading : walk.Heading catalogue settings home bound root sights n)
    (standing : walk.Standing reader catalogue source calm settings home bound sights n sight
      coming)
    (w : (Terms.keeping source calm).world world) :
    (step reader patience).Meets (walk, world)
      (fun _ s => (Terms.keeping source calm).world s.2 ∧ walk.Same s.1 ∧ ∃ m,
        workLeft bound coming m < workLeft bound sights n ∧
        s.1.Heading catalogue settings home bound root coming m)
      fun _ s => (Terms.keeping source calm).world s.2 ∧ ¬ calm ∧
        walk.Stayed (Terms.keeping source calm) reader s.1 := by
  obtain ⟨sound, ahead, rfl⟩ := heading
  refine (Walk.step_meets sound (ahead.serves surroundings enough) (standing.opens patience enough)
    w).mono ?_ fun _ _ failed => failed
  rintro _ s ⟨w, same, ⟨bare, -⟩ | stepped⟩
  · have never := standing.position
    rw [livePosition_of_nil bare] at never
    cases never
  · obtain ⟨m, less, ahead'⟩ := standing.onward s.1 stepped
    exact ⟨w, same, m, less, stepped.sound same sound, ahead', same.settings⟩

end Heading

/-! ## Passing over -/

/-- A walk on its way to the next object that matches, in so many rounds. It has these sights of its
journey still to show, and no more to do than is allowed in all. -/
def Wandering (catalogue : Catalogue) (settings : Settings) (home : Text → Nat → Prop)
    (bound : Nat) (root : Text) (calm : Prop) (total : Nat) (due : List Sight) (rounds : Nat)
    (walk : Walk) : Prop :=
  ∃ sights n, walk.Heading catalogue settings home bound root sights n ∧
    sights.filter settings.shows = due ∧ workLeft bound sights n ≤ total ∧
    (calm → workLeft bound sights n ≤ rounds)

variable {total : Nat} {due : List Sight}

private theorem wandering_rounds
    (surroundings : EnlargedSurroundings reader catalogue source bound settings home)
    (enough : calm → 2 * bound < patience) :
    Rounds (Terms.keeping source calm) reader patience root
      (Wandering catalogue settings home bound root calm total due) where
  sound := fun ⟨_, _, heading, _⟩ => heading.sound
  holdOn := fun held ⟨sights, n, heading, rest⟩ => ⟨sights, n, heading.holdOn held, rest⟩
  stays := fun ⟨sights, n, heading, rest⟩ stayed =>
    ⟨sights, n, heading.stayed surroundings stayed, rest⟩
  last := by
    rintro walk ⟨sights, n, heading, -, -, few⟩ unmatched calm
    by_cases bare : walk.levels = []
    · rw [isUnmatched_of_nil bare] at unmatched
      cases unmatched
    · obtain ⟨sight, coming, standing⟩ := heading.exists_standing surroundings bare True
      exact Nat.not_lt.mpr (few calm) standing.busy
  step := by
    rintro n walk world ⟨sights, k, heading, rfl, short, few⟩ unmatched w
    have standing : walk.levels ≠ [] := by
      intro bare
      rw [isUnmatched_of_nil bare] at unmatched
      cases unmatched
    obtain ⟨sight, coming, standing⟩ := heading.exists_standing surroundings standing calm
    have passes := standing.unmatched.symm.trans unmatched
    refine (heading.step_meets surroundings enough standing w).mono ?_ fun _ _ failed => failed
    rintro _ s ⟨w, same, m, less, heading⟩
    refine ⟨w, same, coming, m, heading, standing.takes.filter_of_neg (by simpa using passes),
      by omega, fun calm => ?_⟩
    have few := few calm
    omega

/-! ## Calls -/

/-- A walk between two calls that have succeeded: it has these sights of its journey still to show,
the one that it shows included unless that is a newcomer, and no more than so much to do. -/
structure Touring (catalogue : Catalogue) (settings : Settings) (home : Text → Nat → Prop)
    (bound : Nat) (root : Text) (walk : Walk) (due : List Sight) (total : Nat) : Prop where
  opened : walk.closed = false
  unheld : walk.held = none
  matched : walk.isUnmatched = .ok false
  heading : ∃ sights n, walk.Heading catalogue settings home bound root sights n ∧
    sights.filter settings.shows = due ∧ workLeft bound sights n ≤ total

private theorem Settled.touring (settled : walk.Settled settings
      (Wandering catalogue settings home bound root calm total due)) :
    walk.Touring catalogue settings home bound root due total := by
  obtain ⟨-, ⟨-, sights, n, heading, same, short, -⟩, unheld, matched, opened⟩ := settled
  exact ⟨opened, unheld, matched, sights, n, heading, same, short⟩

namespace Touring

theorem enlarge (touring : walk.Touring catalogue settings home bound root due total) {larger : Nat}
    (le : bound ≤ larger) :
    ∃ total, walk.Touring catalogue settings home larger root due total := by
  obtain ⟨opened, unheld, matched, sights, n, ⟨sound, ahead, same⟩, filtered, -⟩ := touring
  obtain ⟨k, ahead⟩ := ahead.enlarge le
  exact ⟨_, opened, unheld, matched, sights, k, ⟨sound, ahead, same⟩, filtered, Nat.le_refl _⟩

theorem sound (touring : walk.Touring catalogue settings home bound root due total) :
    walk.Sound root ∧ walk.settings = settings := by
  obtain ⟨-, -, -, _, _, heading, -, -⟩ := touring
  exact ⟨heading.sound, heading.settings⟩

/-- A walk that shows nothing has shown its whole journey, and is back on its root. -/
theorem ended (touring : walk.Touring catalogue settings home bound root due total)
    (bare : walk.isEmpty = true) : due = [] ∧ walk.depth = 0 ∧ walk.path.text = root := by
  obtain ⟨-, -, -, sights, n, heading, rfl, -⟩ := touring
  have levels : walk.levels = [] := List.isEmpty_iff.mp (Bool.and_eq_true_iff.mp bare).2
  refine ⟨?_, ?_, heading.sound.drained levels⟩
  · rw [heading.eq_nil levels]
    rfl
  · rw [depth, levels]
    rfl

/-- A walk that shows something shows the first of the sights that are due or a newcomer. An advance
leaves those behind it, and less to do; in calm it succeeds. -/
theorem advance_meets
    (surroundings : EnlargedSurroundings reader catalogue source bound settings home)
    (touring : walk.Touring catalogue settings home bound root due total)
    (shows : walk.isEmpty = false) (calm : Prop) :
    ∃ sight coming, Takes (Newcomer catalogue home) sight due coming ∧
      walk.position = .ok (some sight.position) ∧ walk.depth = sight.depth ∧ 0 < total ∧
      ∀ patience world, (calm → 2 * bound < patience ∧ total ≤ patience) →
        (Terms.keeping source calm).world world →
        (advance reader patience).Meets (walk, world)
          (fun _ s => (Terms.keeping source calm).world s.2 ∧
            s.1.Touring catalogue settings home bound root coming (total - 1))
          fun _ s => (Terms.keeping source calm).world s.2 ∧ ¬ calm := by
  obtain ⟨opened, unheld, matched, sights, n, heading, rfl, short⟩ := touring
  have standing : walk.levels ≠ [] := by
    intro bare
    rw [isEmpty, unheld, bare] at shows
    cases shows
  obtain ⟨sight, coming, standing⟩ := heading.exists_standing surroundings standing calm
  have matches' : settings.shows sight = true := by
    simpa using standing.unmatched.symm.trans matched
  have busy := standing.busy
  refine ⟨sight, coming.filter settings.shows, standing.takes.filter_of_pos matches', ?_,
    standing.depth, by omega, ?_⟩
  · rw [Walk.position, unheld]
    exact standing.position
  · intro patience world enough w
    have fetches := fun calm => (enough calm).1
    have first : (step reader patience).Meets (walk, world)
        (fun _ s => (Terms.keeping source calm).world s.2 ∧ walk.Same s.1 ∧
          Wandering catalogue settings home bound root calm (total - 1)
            (coming.filter settings.shows) patience s.1)
        fun _ s => (Terms.keeping source calm).world s.2 ∧ ¬ calm ∧
          walk.Stayed (Terms.keeping source calm) reader s.1 := by
      refine (heading.step_meets surroundings fetches standing w).mono ?_ fun _ _ failed => failed
      rintro _ s ⟨w, same, m, less, heading⟩
      refine ⟨w, same, coming, m, heading, rfl, by omega, fun calm => ?_⟩
      have rounds := (enough calm).2
      omega
    refine (Walk.advance_meets (wandering_rounds surroundings fetches) heading.sound opened shows
      first).mono ?_ fun _ _ failed => ⟨failed.1, failed.2.1⟩
    rintro _ s ⟨w, settled⟩
    rw [heading.settings] at settled
    exact ⟨w, settled.touring⟩

end Touring

private theorem Opened.heading
    (surroundings : EnlargedSurroundings reader catalogue source bound settings home)
    {listing : List Entry} (found : catalogue root = .ok listing) (homely : home root 1)
    (journey : Journey catalogue settings root 1 (listed settings.readPattern listing) sights)
    (rooted : before.Rooted settings root)
    (opened : before.Opened (Terms.keeping source calm) reader after) :
    after.Heading catalogue settings home bound root sights bound := by
  have sound := opened.sound rooted.sound rooted.bare
  cases opened with
  | @standing inner run left same =>
    rw [rooted.settings, rooted.text] at run
    obtain ⟨pathLength, read, unread, spans, few⟩ := filled_spans surroundings found run
    subst same
    have whole : before.path.text.take inner.pathLength = root := by
      rw [pathLength, rooted.text, List.take_length]
    refine ⟨sound, ?_, rooted.settings⟩
    have size : read.length + entriesLeft bound inner.cursor + 0 ≤ bound := few
    rw [← List.append_nil sights]
    exact .level (whole ▸ homely) (whole ▸ found) spans (whole ▸ journey) size .none
  | @barren filled run none' same =>
    rw [rooted.settings, rooted.text] at run
    obtain ⟨-, read, unread, spans, -⟩ := filled_spans surroundings found run
    rw [spans.nothing none' (run.isExhausted (Level.fresh_holds _ _) none')] at journey
    cases journey
    refine ⟨sound, ?_, same ▸ rooted.settings⟩
    rw [same, rooted.bare]
    exact .none

/-- A start leaves a walk that has its whole journey due. -/
theorem start_touring_meets {plan : Plan}
    (planned : plan.settings? reader.separator = .ok settings)
    (surroundings : EnlargedSurroundings reader catalogue source bound settings home)
    {listing : List Entry} (found : catalogue plan.path = .ok listing) (homely : home plan.path 1)
    (journey : Journey catalogue settings plan.path 1 (listed settings.readPattern listing) sights)
    (enough : calm → 2 * bound < patience ∧ workLeft bound sights bound ≤ patience)
    (w : (Terms.keeping source calm).world world) :
    (start reader patience plan).Meets world
      (fun walk w => (Terms.keeping source calm).world w ∧
        walk.Touring catalogue settings home bound plan.path (sights.filter settings.shows)
          (workLeft bound sights bound))
      fun _ w => (Terms.keeping source calm).world w ∧ ¬ calm := by
  have fetches := fun calm => (enough calm).1
  refine (start_meets (wandering_rounds surroundings fetches) planned
    (serves_of_fresh surroundings fetches found) (fun before after rooted opened =>
      ⟨sights, bound, opened.heading surroundings found homely journey rooted, rfl, Nat.le_refl _,
        fun calm => (enough calm).2⟩) w).mono ?_ fun _ _ failed => failed
  rintro walk world ⟨w, settled⟩
  exact ⟨w, settled.touring⟩

end Walk

end Catwalk
