import Catwalk.Proofs.Tracks

/-!
# Accounts of reads

The calls of a walk, from its start on, and what each of them has read. They make a course, and the
walk is where that course has led, whatever the reader answers and whatever fails
(`Recorded.tracks`). So every read keeps to the contract of readers, and the cursor from which it is
made is the one to which the last refill of its directory has come (`reads_obey`).
-/

namespace Catwalk

variable {ρ : Type} {reader : Reader ρ} {settings : Settings} {root : Text}

/-- What the contract of readers says of a call for a plan, wherever the walk is. -/
structure ReadCall.Obeys (plan : Walk.Plan) (call : ReadCall) : Prop where
  more : call.cursor ≠ cursorEnd
  aligned : call.offset % 4 = 0
  inside : call.offset ≤ call.buffer.length
  size : ∃ k, (call.buffer.length : Int) = plan.bufferSize * 2 ^ k
  maxEntries : call.maxEntries = plan.maxEntries
  pattern : call.pattern =
    if plan.flags ≠ 0 ∨ Pattern.isMatchAll plan.pattern = true then none else plan.pattern

private theorem ReadCall.Lawful.obeys {plan : Walk.Plan} {separator path : Text} {cursor : Int}
    {call : ReadCall} (lawful : call.Lawful settings path cursor)
    (planned : plan.settings? separator = .ok settings) : call.Obeys plan := by
  obtain ⟨-, -, more, aligned, inside, ⟨k, size⟩, maxEntries, pattern⟩ := lawful
  obtain ⟨flags, large, -, rfl⟩ := Walk.Plan.settings?_eq_ok_iff.mp planned
  refine ⟨more, aligned, inside, ⟨k, ?_⟩, maxEntries, pattern.trans ?_⟩
  · have whole : (plan.bufferSize.toNat : Int) = plan.bufferSize := by omega
    rw [size, Int.natCast_mul, Int.natCast_pow, whole]
    rfl
  · unfold Settings.readPattern Settings.filters
    by_cases all : Pattern.isMatchAll plan.pattern = true
    · simp [all]
    · by_cases none' : plan.flags = 0
      · simp [all, none']
      · have enters : plan.flags % 2 = 1 ∨ plan.flags / 2 = 1 := by omega
        have some' : plan.pattern.isSome = true := by
          cases pattern : plan.pattern with
          | none =>
            rw [pattern] at all
            exact absurd rfl all
          | some _ => rfl
        simp [all, none', some', enters]

theorem Walk.Plan.separator_of_settings? {plan : Plan} {separator : Text}
    (planned : plan.settings? separator = .ok settings) : settings.separator = separator := by
  obtain ⟨-, -, -, rfl⟩ := settings?_eq_ok_iff.mp planned
  rfl

/-! ## Courses -/

namespace Exchange

/-- The exchange is with this reader, and the call is one for some directory. -/
def Keeps (reader : Reader ρ) (settings : Settings) (exchange : Exchange) : Prop :=
  exchange.IsFrom reader ∧ ∃ path cursor, exchange.call.Lawful settings path cursor

end Exchange

variable {calls : List Call} {reads : List Exchange} {before after stages : List Stage}
  {ending : Ending} {patience : Nat}

private theorem InTurn.keeps {path : Text} {cursor : Int}
    (made : InTurn reader settings path cursor reads) :
    ∀ exchange ∈ reads, exchange.Keeps reader settings := by
  induction made with
  | done => exact nofun
  | read lawful genuine _ _ ih => exact List.forall_mem_cons.mpr ⟨⟨genuine, _, _, lawful⟩, ih⟩

namespace Stage

private theorem Refilled.keeps {stage : Stage} {left : Option Stage}
    (refilled : stage.Refilled reader settings root reads left) :
    ∀ exchange ∈ reads, exchange.Keeps reader settings := refilled.inTurn.keeps

private theorem Restocks.keeps
    (restocks : Restocks reader settings root before reads after ending) :
    ∀ exchange ∈ reads, exchange.Keeps reader settings := by
  induction restocks with
  | top => exact nofun
  | stocked _ => exact nofun
  | ended _ _ _ ih => exact ih
  | broken _ _ failed => exact failed.keeps
  | refilled _ _ refilled _ ih => exact List.forall_mem_append.mpr ⟨refilled.keeps, ih⟩

private theorem MovesOn.keeps (moves : MovesOn reader settings root before reads after ending) :
    ∀ exchange ∈ reads, exchange.Keeps reader settings := by
  induction moves with
  | next _ => exact nofun
  | up restocks => exact restocks.keeps
  | broken _ failed => exact failed.keeps
  | refilled _ refilled _ ih => exact List.forall_mem_append.mpr ⟨refilled.keeps, ih⟩

private theorem Steps.keeps (steps : Steps reader settings root before reads after ending) :
    ∀ exchange ∈ reads, exchange.Keeps reader settings := by
  cases steps with
  | rest => exact nofun
  | pass _ moves => exact moves.keeps
  | broken _ failed => exact failed.keeps
  | enter _ refilled _ => exact refilled.keeps
  | empty _ refilled _ moves => exact List.forall_mem_append.mpr ⟨refilled.keeps, moves.keeps⟩

private theorem Skips.keeps {rounds : Nat}
    (skips : Skips reader settings root rounds before reads after ending) :
    ∀ exchange ∈ reads, exchange.Keeps reader settings := by
  induction skips with
  | shown _ => exact nofun
  | tired _ => exact nofun
  | broken _ steps => exact steps.keeps
  | onward _ steps _ ih => exact List.forall_mem_append.mpr ⟨steps.keeps, ih⟩

private theorem Advances.keeps
    (advances : Advances reader settings root patience before reads after ending) :
    ∀ exchange ∈ reads, exchange.Keeps reader settings := by
  cases advances with
  | broken steps => exact steps.keeps
  | onward steps skips => exact List.forall_mem_append.mpr ⟨steps.keeps, skips.keeps⟩

private theorem Opens.keeps (opens : Opens reader settings root patience reads after ending) :
    ∀ exchange ∈ reads, exchange.Keeps reader settings := by
  cases opens with
  | broken failed => exact failed.keeps
  | empty refilled _ => exact refilled.keeps
  | entered refilled _ skips => exact List.forall_mem_append.mpr ⟨refilled.keeps, skips.keeps⟩

end Stage

theorem Course.keeps {shown : Option Sighting}
    (course : Course reader settings root calls stages shown) :
    ∀ exchange ∈ Call.account calls, exchange.Keeps reader settings := by
  induction course with
  | start opens => exact opens.keeps
  | advance _ advances ih => exact List.forall_mem_append.mpr ⟨ih, advances.keeps⟩
  | stall _ advances ih => exact List.forall_mem_append.mpr ⟨ih, advances.keeps⟩
  | reset _ opens ih => exact List.forall_mem_append.mpr ⟨ih, opens.keeps⟩
  | «return» _ opens ih => exact List.forall_mem_append.mpr ⟨ih, opens.keeps⟩

namespace Walk

/-- An open walk is where a course has led: its levels are those of the directories on the way, and
it shows the object. -/
structure Tracks (settings : Settings) (root : Text) (stages : List Stage)
    (shown : Option Sighting) (walk : Walk) : Prop where
  opened : walk.closed = false
  same : walk.settings = settings
  sound : walk.Sound root
  follow : LevelStack.Follow settings root walk.path.text walk.levels stages
  position : walk.position = .ok (shown.map (Sighting.position settings root))

variable {walk : Walk}

/-- A walk that holds on to nothing shows the object on which it stands. -/
private theorem tracks_of_unheld (opened : walk.closed = false) (same : walk.settings = settings)
    (sound : walk.Sound root)
    (follow : LevelStack.Follow settings root walk.path.text walk.levels stages)
    (unheld : walk.held = none) :
    walk.Tracks settings root stages (Stage.shown stages) := by
  refine ⟨opened, same, sound, follow, ?_⟩
  rw [Walk.position, unheld]
  cases levels : walk.levels with
  | nil =>
    rw [levels] at follow
    obtain rfl := List.forall₂_nil_left_iff.mp follow
    exact livePosition_of_nil levels
  | cons level shallower =>
    obtain ⟨names, cursor, record, records, rest, rfl, follows, -, -⟩ :=
      sound.standing levels follow
    refine (livePosition_of_holds levels follows.holds).trans ?_
    rw [follows.directory]
    rfl

/-- The calls of one walk, the latest first, with what each of them has read and how it has ended.
Each is made in a world of its own: between two calls the ledger may be armed, filled and emptied,
and what the reader reads may change. There is no walk if the start fails. -/
inductive Recorded (reader : Reader ρ) (plan : Plan) : Option Walk → List Call → Prop
  | start {patience : Nat} {world after : World (ρ × List Exchange)} {walk : Walk} :
      world.source.2 = [] → start reader.logged patience plan world = .ok walk after →
      Recorded reader plan (some walk) [⟨.start, patience, after.source.2, .done⟩]
  | refused {patience : Nat} {world after : World (ρ × List Exchange)} {fault : Fault} :
      world.source.2 = [] → start reader.logged patience plan world = .error fault after →
      Recorded reader plan none [⟨.start, patience, after.source.2, .broken⟩]
  | advance {walk next : Walk} {calls : List Call} {patience : Nat}
      {world after : World (ρ × List Exchange)} :
      Recorded reader plan (some walk) calls → world.source.2 = [] →
      advance reader.logged patience (walk, world) = .ok () (next, after) →
      Recorded reader plan (some next) (⟨.advance, patience, after.source.2, .done⟩ :: calls)
  | stall {walk next : Walk} {calls : List Call} {patience : Nat}
      {world after : World (ρ × List Exchange)} {fault : Fault} :
      Recorded reader plan (some walk) calls → world.source.2 = [] →
      advance reader.logged patience (walk, world) = .error fault (next, after) →
      Recorded reader plan (some next) (⟨.advance, patience, after.source.2, .broken⟩ :: calls)
  | reset {walk next : Walk} {calls : List Call} {patience : Nat}
      {world after : World (ρ × List Exchange)} :
      Recorded reader plan (some walk) calls → world.source.2 = [] →
      reset reader.logged patience (walk, world) = .ok () (next, after) →
      Recorded reader plan (some next) (⟨.reset, patience, after.source.2, .done⟩ :: calls)
  | return {walk next : Walk} {calls : List Call} {patience : Nat}
      {world after : World (ρ × List Exchange)} {fault : Fault} :
      Recorded reader plan (some walk) calls → world.source.2 = [] →
      reset reader.logged patience (walk, world) = .error fault (next, after) →
      Recorded reader plan (some next) (⟨.reset, patience, after.source.2, .broken⟩ :: calls)

section
variable {world : World (ρ × List Exchange)} {shown : Option Sighting}

private theorem start_tracks_meets {plan : Plan}
    (planned : plan.settings? reader.separator = .ok settings) (unread : world.source.2 = []) :
    (start reader.logged patience plan).Meets world
      (fun walk w => ∃ stages,
        Stage.Opens reader settings plan.path patience w.source.2 stages .done ∧
        walk.Tracks settings plan.path stages (Stage.shown stages))
      fun _ w => ∃ stages,
        Stage.Opens reader settings plan.path patience w.source.2 stages .broken := by
  have started : (start reader.logged patience plan).Meets world _ _ :=
    (start_settled_meets (Terms.any_covers reader.logged) trivial).and
      (start_follows_meets planned)
  rw [unread] at started
  refine started.mono ?_ ?_
  · rintro walk w ⟨⟨-, settings', planned', settled⟩, reads, stages, rfl, opens, follow⟩
    obtain rfl : settings = settings' := Except.ok.inj (planned.symm.trans planned')
    obtain ⟨-, sound⟩ := settled.inv
    exact ⟨stages, opens,
      tracks_of_unheld settled.opened settled.settings sound follow settled.unheld⟩
  · rintro fault w ⟨-, reads, stages, rfl, opens⟩
    exact ⟨stages, opens⟩

private theorem advance_tracks_meets (tracks : walk.Tracks settings root stages shown)
    (unread : world.source.2 = []) :
    (advance reader.logged patience).Meets (walk, world)
      (fun _ s => ∃ after,
        Stage.Advances reader settings root patience stages s.2.source.2 after .done ∧
        s.1.Tracks settings root after (Stage.shown after))
      fun _ s => ∃ after,
        Stage.Advances reader settings root patience stages s.2.source.2 after .broken ∧
        s.1.Tracks settings root after shown := by
  obtain ⟨opened, same, sound, follow, position⟩ := tracks
  have covers := Terms.any_covers reader.logged
  by_cases ended : walk.isEmpty = true
  · obtain ⟨unheld, levels⟩ := Bool.and_eq_true_iff.mp ended
    have unheld := Option.isNone_iff_eq_none.mp unheld
    have bare := follow
    rw [List.isEmpty_iff.mp levels] at bare
    obtain rfl := List.forall₂_nil_left_iff.mp bare
    rw [Act.Meets, advance_of_isEmpty opened ended]
    refine ⟨[], ?_, tracks_of_unheld opened same sound follow unheld⟩
    rw [unread]
    exact .onward .rest (.shown rfl)
  have advanced : (advance reader.logged patience).Meets (walk, world) _ _ :=
    (advance_meets (rounds_of_covers covers) sound opened (eq_false_of_ne_true ended)
      (step_sound_meets covers sound trivial)).and
      (advance_follows_meets sound opened (eq_false_of_ne_true ended) same follow)
  rw [unread] at advanced
  refine advanced.mono ?_ ?_
  · rintro _ ⟨next, w⟩ ⟨⟨-, settled⟩, reads, after, rfl, advances, follow'⟩
    obtain ⟨-, sound'⟩ := settled.inv
    exact ⟨after, advances, tracks_of_unheld settled.opened (settled.settings.trans same) sound'
      follow' settled.unheld⟩
  · rintro fault ⟨next, w⟩ ⟨⟨-, -, interrupted⟩, reads, after, rfl, advances, follow'⟩
    refine ⟨after, advances, ?_⟩
    cases interrupted with
    | stayed stayed =>
      exact ⟨stayed.same.closed.trans opened, stayed.same.settings.trans same, stayed.sound sound,
        follow', (stayed.position sound).trans position⟩
    | under _ setup sound' _ _ position' =>
      exact ⟨setup.closed.trans opened, setup.settings.trans same, sound', follow',
        position'.trans position⟩

private theorem reset_tracks_meets (tracks : walk.Tracks settings root stages shown)
    (unread : world.source.2 = []) :
    (reset reader.logged patience).Meets (walk, world)
      (fun _ s => ∃ after,
        Stage.Opens reader settings root patience s.2.source.2 after .done ∧
        s.1.Tracks settings root after (Stage.shown after))
      fun _ s => ∃ lost,
        Stage.Opens reader settings root patience s.2.source.2 lost .broken ∧
        s.1.Tracks settings root stages shown := by
  obtain ⟨opened, same, sound, follow, position⟩ := tracks
  have covers := Terms.any_covers reader.logged
  have reset' : (reset reader.logged patience).Meets (walk, world) _ _ :=
    (reset_meets (rounds_of_covers covers) sound opened (covers.serves _ (Level.fresh_holds _ _))
      (fun before after rooted opened => opened.sound rooted.sound rooted.bare) trivial).and
      (reset_follows_meets sound opened same)
  rw [unread] at reset'
  refine reset'.mono ?_ ?_
  · rintro _ ⟨next, w⟩ ⟨⟨-, settled⟩, reads, after, rfl, opens, follow'⟩
    obtain ⟨-, sound'⟩ := settled.inv
    exact ⟨after, opens, tracks_of_unheld settled.opened (settled.settings.trans same) sound'
      follow' settled.unheld⟩
  · rintro fault ⟨next, w⟩ ⟨⟨-, -, same', levels, text⟩, reads, lost, rfl, opens⟩
    have stayed : walk.Stayed (Terms.any _) reader.logged next := by
      refine ⟨same', text, ?_⟩
      rw [levels]
      exact .refl _ _ _ _
    refine ⟨lost, opens, same'.closed.trans opened, same'.settings.trans same, stayed.sound sound,
      ?_, (stayed.position sound).trans position⟩
    rw [levels, text]
    exact follow

end

variable {plan : Plan}

/-- The calls of a walk make a course, and the walk is where it has led; or the plan is refused, and
nothing is read. -/
theorem Recorded.tracks {walk : Option Walk} (recorded : Recorded reader plan walk calls) :
    (walk = none ∧ Call.account calls = [] ∧
        ∃ fault, plan.settings? reader.separator = .error fault) ∨
      ∃ settings stages shown, plan.settings? reader.separator = .ok settings ∧
        Course reader settings plan.path calls stages shown ∧
        ∀ present, walk = some present → present.Tracks settings plan.path stages shown := by
  induction recorded with
  | @start patience world after walk unread run =>
    obtain ⟨-, settings, planned, -⟩ :=
      (start_settled_meets (Terms.any_covers reader.logged) trivial).of_ok run
    change plan.settings? reader.separator = .ok settings at planned
    obtain ⟨stages, opens, tracks⟩ := (start_tracks_meets planned unread).of_ok run
    refine .inr ⟨settings, stages, _, planned, .start opens, ?_⟩
    rintro present ⟨⟩
    exact tracks
  | @refused patience world after fault unread run =>
    cases planned : plan.settings? reader.separator with
    | error cause =>
      have refused : Walk.start reader.logged patience plan world = .error cause world := by
        have checked : plan.settings? reader.logged.separator = .error cause := planned
        unfold Walk.start
        rw [checked]
        rfl
      rw [refused] at run
      cases run
      exact .inl ⟨rfl, unread, _, rfl⟩
    | ok settings =>
      obtain ⟨stages, opens⟩ := (start_tracks_meets planned unread).of_error run
      exact .inr ⟨settings, stages, _, rfl, .start opens, nofun⟩
  | @advance walk next calls patience world after _ unread run ih =>
    obtain ⟨never, -⟩ | ⟨settings, stages, shown, planned, course, tracks⟩ := ih
    · cases never
    · obtain ⟨stages', advances, tracks'⟩ :=
        (advance_tracks_meets (tracks walk rfl) unread).of_ok run
      refine .inr ⟨settings, stages', _, planned, .advance course advances, ?_⟩
      rintro present ⟨⟩
      exact tracks'
  | @stall walk next calls patience world after fault _ unread run ih =>
    obtain ⟨never, -⟩ | ⟨settings, stages, shown, planned, course, tracks⟩ := ih
    · cases never
    · obtain ⟨stages', advances, tracks'⟩ :=
        (advance_tracks_meets (tracks walk rfl) unread).of_error run
      refine .inr ⟨settings, stages', shown, planned, .stall course advances, ?_⟩
      rintro present ⟨⟩
      exact tracks'
  | @reset walk next calls patience world after _ unread run ih =>
    obtain ⟨never, -⟩ | ⟨settings, stages, shown, planned, course, tracks⟩ := ih
    · cases never
    · obtain ⟨stages', opens, tracks'⟩ := (reset_tracks_meets (tracks walk rfl) unread).of_ok run
      refine .inr ⟨settings, stages', _, planned, .reset course opens, ?_⟩
      rintro present ⟨⟩
      exact tracks'
  | @«return» walk next calls patience world after fault _ unread run ih =>
    obtain ⟨never, -⟩ | ⟨settings, stages, shown, planned, course, tracks⟩ := ih
    · cases never
    · obtain ⟨lost, opens, tracks'⟩ :=
        (reset_tracks_meets (tracks walk rfl) unread).of_error run
      refine .inr ⟨settings, stages, shown, planned, .return course opens, ?_⟩
      rintro present ⟨⟩
      exact tracks'

/-- Whatever the reader answers and whatever fails, every read of a walk keeps to the contract and
asks for what the plan says. The calls make a course, in one way only: each read is made for a
directory on the way, from where the read before it in the same refill has ended, and the first of a
refill from where the last refill of that directory has left off. A walk that is empty reads nothing
more. -/
theorem reads_obey (reader : Reader ρ) (plan : Plan) (walk : Option Walk) (calls : List Call)
    (recorded : Recorded reader plan walk calls) :
    (∀ exchange ∈ Call.account calls, exchange.call.Obeys plan ∧ exchange.IsFrom reader) ∧
    ((walk = none ∧ Call.account calls = [] ∧
        ∃ fault, plan.settings? reader.separator = .error fault) ∨
      ∃ settings stages shown, plan.settings? reader.separator = .ok settings ∧
        settings.separator = reader.separator ∧
        Course reader settings plan.path calls stages shown ∧
        (∀ stages' shown', Course reader settings plan.path calls stages' shown' →
          stages' = stages ∧ shown' = shown) ∧
        ∀ present, walk = some present → present.Tracks settings plan.path stages shown) ∧
    ∀ present, walk = some present → present.isEmpty = true →
      ∀ (patience : Nat) (world : World (ρ × List Exchange)),
        advance reader.logged patience (present, world) = .ok () (present, world) := by
  obtain ⟨rfl, account, refused⟩ | ⟨settings, stages, shown, planned, course, tracks⟩ :=
    recorded.tracks
  · exact ⟨by simp [account], .inl ⟨rfl, account, refused⟩, nofun⟩
  · refine ⟨?_, .inr ⟨settings, stages, shown, planned, ?_, course, ?_, tracks⟩, ?_⟩
    · intro exchange member
      obtain ⟨genuine, path, cursor, lawful⟩ := course.keeps exchange member
      exact ⟨lawful.obeys planned, genuine⟩
    · exact Plan.separator_of_settings? planned
    · exact fun stages' shown' => course.unique
    · intro present is ended patience world
      exact advance_of_isEmpty (tracks present is).opened ended

deriving instance DecidableEq for Deposit, Exchange

/-- A walk onto the first of two files and on to the second. The refill goes on behind the first
record, finds no room there, and is made again with more and from the same cursor. -/
theorem reads_obey_of_overflow :
    let reader := Reader.ofListing [⟨[0x61], 1, 0, 0, 0, 0⟩, ⟨[0x62], 1, 0, 0, 0, 0⟩]
    let plan : Plan := ⟨[0x41], 0, none, 24, 1⟩
    let settings : Settings := ⟨false, false, none, 24, 1, [0x2F]⟩
    let both := Record.ofFile 0x61 ++ Record.ofFile 0x62
    let first : Exchange :=
      ⟨⟨[0x41], Bytes.zeros 24, 0, 0, 1, none⟩, ⟨Record.ofFile 0x61, .ok ⟨1, 1⟩⟩⟩
    let second : Exchange :=
      ⟨⟨[0x41], Record.ofFile 0x61, 24, 1, 1, none⟩, ⟨[], .error (.overflow 24 0)⟩⟩
    let third : Exchange :=
      ⟨⟨[0x41], Record.ofFile 0x61 ++ Bytes.zeros 24, 24, 1, 1, none⟩,
        ⟨Record.ofFile 0x62, .ok ⟨1, -1⟩⟩⟩
    let start' := start reader.logged 5 plan ⟨⟨none, 0, 0, none⟩, (), []⟩
    let onFirst := atFile settings (Record.ofFile 0x61) 1
    let onSecond := { atFile settings both (-1) with levels := [⟨1, both, -1, some ⟨24, 1, 0⟩⟩] }
    let world : World (Unit × List Exchange) := ⟨⟨none, 120, 2, none⟩, (), [first]⟩
    let world' : World (Unit × List Exchange) := ⟨⟨none, 144, 3, none⟩, (), [second, third]⟩
    let calls : List Call := [⟨.advance, 5, [second, third], .done⟩, ⟨.start, 5, [first], .done⟩]
    start' = .ok onFirst world ∧
    advance reader.logged 5 (onFirst, { world with source := ((), []) }) =
      .ok () (onSecond, world') ∧
    Recorded reader plan (some onSecond) calls ∧
    (∀ exchange ∈ [first, second, third], exchange.call.Obeys plan ∧ exchange.IsFrom reader) ∧
    ∃ stages shown, Course reader settings plan.path calls stages shown ∧
      onSecond.Tracks settings plan.path stages shown := by
  intro reader plan settings both first second third start' onFirst onSecond world world' calls
  have started : start' = .ok onFirst world := by decide +kernel
  have advanced : advance reader.logged 5 (onFirst, { world with source := ((), []) }) =
      .ok () (onSecond, world') := by
    decide +kernel
  have recorded : Recorded reader plan (some onSecond) calls :=
    .advance (.start rfl started) rfl advanced
  obtain ⟨obey, followed, -⟩ := reads_obey reader plan _ _ recorded
  obtain ⟨never, -⟩ | ⟨settings', stages, shown, planned, -, course, -, tracks⟩ := followed
  · cases never
  · obtain rfl : settings = settings' := Except.ok.inj planned
    exact ⟨started, advanced, recorded, obey, stages, shown, course, tracks _ rfl⟩

end Walk

end Catwalk
