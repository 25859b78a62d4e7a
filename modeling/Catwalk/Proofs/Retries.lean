import Catwalk.Proofs.Atomicity
import Catwalk.Proofs.Plans

/-!
# Calls that are repeated

A walk over a host that stays as it is shows one sequence of objects. Calls may fail for want of
memory or because reads fail, on any schedule; as long as each is repeated until it succeeds,
nothing is skipped, shown twice, or shown out of order.
-/

namespace Catwalk

variable {ρ : Type}

namespace Walk

variable {reader : Reader ρ} {catalogue : Catalogue} {source : ρ → Prop} {calm : Prop}
  {settings : Settings} {root : Text} {bound patience n : Nat} {walk after : Walk}
  {world : World ρ} {sights : List Sight} {plan : Plan}

/-- The walks of a plan after so many advances have succeeded. Every call, those that fail included,
may find the ledger in any state, and the source in any that is as it should be. -/
inductive Retried (reader : Reader ρ) (source : ρ → Prop) (plan : Plan) : Nat → Walk → Prop
  | started {patience : Nat} {world world' : World ρ} {walk : Walk} : source world.source →
      start reader patience plan world = .ok walk world' → Retried reader source plan 0 walk
  | failed {n patience : Nat} {world world' : World ρ} {walk after : Walk} {fault : Fault} :
      Retried reader source plan n walk → source world.source →
      advance reader patience (walk, world) = .error fault (after, world') →
      Retried reader source plan n after
  | advanced {n patience : Nat} {world world' : World ρ} {walk after : Walk} :
      Retried reader source plan n walk → source world.source →
      advance reader patience (walk, world) = .ok () (after, world') →
      Retried reader source plan (n + 1) after

/-- The walks of a plan so many advances after they were started, or after the last reset. Calls
that fail may come in between, and every call may find the ledger in any state, and the source in
any that is as it should be. -/
inductive Roamed (reader : Reader ρ) (source : ρ → Prop) (plan : Plan) : Nat → Walk → Prop
  | started {patience : Nat} {world world' : World ρ} {walk : Walk} : source world.source →
      start reader patience plan world = .ok walk world' → Roamed reader source plan 0 walk
  | advanced {n patience : Nat} {world world' : World ρ} {walk after : Walk} :
      Roamed reader source plan n walk → source world.source →
      advance reader patience (walk, world) = .ok () (after, world') →
      Roamed reader source plan (n + 1) after
  | halted {n patience : Nat} {world world' : World ρ} {walk after : Walk} {fault : Fault} :
      Roamed reader source plan n walk → source world.source →
      advance reader patience (walk, world) = .error fault (after, world') →
      Roamed reader source plan n after
  | reset {n patience : Nat} {world world' : World ρ} {walk after : Walk} :
      Roamed reader source plan n walk → source world.source →
      reset reader patience (walk, world) = .ok () (after, world') →
      Roamed reader source plan 0 after
  | returned {n patience : Nat} {world world' : World ρ} {walk after : Walk} {fault : Fault} :
      Roamed reader source plan n walk → source world.source →
      reset reader patience (walk, world) = .error fault (after, world') →
      Roamed reader source plan n after

private theorem Retried.roamed (retried : Retried reader source plan n walk) :
    Roamed reader source plan n walk := by
  induction retried with
  | started held run => exact .started held run
  | failed _ held run ih => exact .halted ih held run
  | advanced _ held run ih => exact .advanced ih held run

/-- An advance of a walk of one's own. -/
def advanced (reader : Reader ρ) (patience : Nat) (walk : Walk) : Act (World ρ) Walk := fun world =>
  match advance reader patience (walk, world) with
  | .ok () (walk, world) => .ok walk world
  | .error fault (_, world) => .error fault world

/-- A start and so many advances, without any repeats. -/
def course (reader : Reader ρ) (patience : Nat) (plan : Plan) : Nat → Act (World ρ) Walk
  | 0 => start reader patience plan
  | n + 1 => do advanced reader patience (← course reader patience plan n)

private theorem advanced_meets {done : Walk → World ρ → Prop} {failed : Fault → World ρ → Prop} :
    (advanced reader patience walk).Meets world done failed ↔
      (advance reader patience).Meets (walk, world) (fun _ s => done s.1 s.2)
        fun fault s => failed fault s.2 := by
  unfold Act.Meets advanced
  cases advance reader patience (walk, world) <;> rfl

/-- An advance takes one sight off what is due if there is any, or fails and takes off nothing. -/
private theorem advance_tail_meets (around : Surroundings reader catalogue source calm settings)
    (enough : calm → catalogue.Within patience ∧ bound ≤ patience)
    (due : walk.Due catalogue settings root bound sights)
    (w : (Terms.keeping source calm).world world) :
    (advance reader patience).Meets (walk, world)
      (fun _ s => (Terms.keeping source calm).world s.2 ∧
        s.1.Due catalogue settings root bound sights.tail)
      fun _ s => ¬ calm ∧ s.1.Due catalogue settings root bound sights := by
  cases sights with
  | nil =>
    have same : advance reader patience (walk, world) = .ok () (walk, world) :=
      advance_of_isEmpty due.kept.1 due.ended.1
    unfold Act.Meets
    rw [same]
    exact ⟨w, due⟩
  | cons sight sights =>
    exact (advance_due_meets around enough due w).mono (fun _ _ done => ⟨done.1, done.2.2⟩)
      fun _ _ failed => failed.2

/-- Walks that have the same due look the same. -/
private theorem Due.looksLike (due : walk.Due catalogue settings root bound sights)
    (due' : after.Due catalogue settings root bound sights) : walk.LooksLike after := by
  obtain ⟨opened, sound, rfl⟩ := due.kept
  obtain ⟨opened', sound', settings⟩ := due'.kept
  cases sights with
  | nil =>
    obtain ⟨ended, position, -⟩ := due.ended
    obtain ⟨ended', position', -⟩ := due'.ended
    exact looksLike_of_position settings opened opened' sound sound'
      (position'.trans position.symm) (ended'.trans ended.symm)
  | cons sight sights =>
    obtain ⟨shows, position, -⟩ := due.shown
    obtain ⟨shows', position', -⟩ := due'.shown
    exact looksLike_of_position settings opened opened' sound sound'
      (position'.trans position.symm) (shows'.trans shows.symm)

/-- What an undisturbed course has due is what is left of the whole journey. -/
theorem course_meets (around : Surroundings reader catalogue source True settings)
    (enough : catalogue.Within patience ∧ sights.length ≤ patience)
    (planned : plan.settings? reader.separator = .ok settings) {listing : List Entry}
    (found : catalogue plan.path = .ok listing)
    (journey : Journey catalogue settings plan.path 1
      (Entry.listed settings.readPattern listing) sights)
    (w : (Terms.keeping source True).world world) (n : Nat) :
    (course reader patience plan n).Meets world
      (fun walk w => (Terms.keeping source True).world w ∧
        walk.Due catalogue settings plan.path sights.length
          ((sights.filter settings.shows).drop n))
      fun _ _ => False := by
  induction n with
  | zero =>
    exact (start_due_meets planned around (fun _ => enough) found journey (Nat.le_refl _) w).mono
      (fun _ _ done => ⟨done.1, done.2.2⟩) fun _ _ failed => failed.2 trivial
  | succ n ih =>
    refine Act.meets_bind.mpr (ih.mono ?_ fun _ _ never => never)
    rintro walk world ⟨w, due⟩
    have next := advance_tail_meets around (fun _ => enough) due w
    rw [List.tail_drop] at next
    exact advanced_meets.mpr (next.mono (fun _ _ done => done) fun _ _ failed => failed.1 trivial)

/-- What is due is what is left of the whole journey since the start or the last reset. -/
theorem Roamed.due (around : Surroundings reader catalogue source False settings)
    (planned : plan.settings? reader.separator = .ok settings) {listing : List Entry}
    (found : catalogue plan.path = .ok listing)
    (journey : Journey catalogue settings plan.path 1
      (Entry.listed settings.readPattern listing) sights)
    (roamed : Roamed reader source plan n walk) :
    walk.Due catalogue settings plan.path sights.length
      ((sights.filter settings.shows).drop n) := by
  induction roamed with
  | started held run =>
    exact ((start_due_meets planned around False.elim found journey (Nat.le_refl _)
      ⟨held, False.elim⟩).of_ok run).2.2
  | advanced _ held run ih =>
    rw [← List.tail_drop]
    exact ((advance_tail_meets around False.elim ih ⟨held, False.elim⟩).of_ok run).2
  | halted _ held run ih =>
    exact ((advance_tail_meets around False.elim ih ⟨held, False.elim⟩).of_error run).2
  | reset _ held run ih =>
    exact ((reset_due_meets around False.elim found journey (Nat.le_refl _) ih
      ⟨held, False.elim⟩).of_ok run).2.2
  | returned _ held run ih =>
    exact ((reset_due_meets around False.elim found journey (Nat.le_refl _) ih
      ⟨held, False.elim⟩).of_error run).2.2

/-- Whatever has been repeated, what is due is what is left of the whole journey. -/
private theorem Retried.due (around : Surroundings reader catalogue source False settings)
    (planned : plan.settings? reader.separator = .ok settings) {listing : List Entry}
    (found : catalogue plan.path = .ok listing)
    (journey : Journey catalogue settings plan.path 1
      (Entry.listed settings.readPattern listing) sights)
    (retried : Retried reader source plan n walk) :
    walk.Due catalogue settings plan.path sights.length
      ((sights.filter settings.shows).drop n) :=
  retried.roamed.due around planned found journey

/-- Over a host that stays as it is, a course without faults succeeds. A walk whose failed calls are
repeated shows the same after every number of advances, whatever the faults, and can be advanced as
soon as there are none. -/
theorem course_looksLike_of_retried {host : Host} (reachable : host.Reachable)
    (legible : host.Legible) (plan : Plan) (folder : host.isFolder plan.path = true)
    (flags : 0 ≤ plan.flags ∧ plan.flags < 4) (size : 24 ≤ plan.bufferSize)
    (batch : 1 ≤ plan.maxEntries) :
    ∃ enough, ∀ patience ≥ enough, ∀ world : World Device, world.Calm host → ∀ n, ∃ calm after,
      course (Device.reader [CodePoint.solidus]) patience plan n world = .ok calm after ∧
      ∀ {ρ : Type} (reader : Reader ρ) (source : ρ → Prop) (walk : Walk),
        reader.separator = [CodePoint.solidus] → reader.Reflects host.catalogue source False →
        Retried reader source plan n walk →
        calm.LooksLike walk ∧ ∃ next after,
          advance (Device.reader [CodePoint.solidus]) patience (walk, world) =
            .ok () (next, after) := by
  have sound := Host.sound_of_reachable reachable
  obtain ⟨settings, planned, follows⟩ :=
    plan.exists_settings [CodePoint.solidus] flags size batch
  obtain ⟨top, forest, -, -, -, catalogue, journey⟩ :=
    sound.exists_journey follows.separator folder
  refine ⟨host.effort + (forest.sights settings plan.path 1).length, ?_⟩
  intro patience patient world quiet n
  have within' : Catalogue.Within host.catalogue patience := fun path listing found =>
    Nat.le_trans (sound.within_effort path listing found) (by omega)
  have enough : Catalogue.Within host.catalogue patience ∧
      (forest.sights settings plan.path 1).length ≤ patience := ⟨within', by omega⟩
  have undisturbed := follows.surroundings sound legible
    (Device.reflects host [CodePoint.solidus] True)
  obtain ⟨calm, after, run, -, due⟩ :=
    (course_meets undisturbed enough planned catalogue journey quiet.keeping n).exists_ok
  refine ⟨calm, after, run, ?_⟩
  intro ρ reader source walk separator reflects retried
  have due' := retried.due (follows.surroundings sound legible reflects) (separator ▸ planned)
    catalogue journey
  refine ⟨due.looksLike due', ?_⟩
  obtain ⟨⟨⟩, ⟨next, after⟩, run', -⟩ :=
    ((advance_tail_meets undisturbed (fun _ => enough) due' quiet.keeping).mono
      (fun _ _ done => done) fun _ _ failed => failed.1 trivial).exists_ok
  exact ⟨next, after, run'⟩

/-- A walk on a directory that runs out of memory and then meets a fault of the disc, before it gets
to the file inside. -/
theorem course_looksLike_of_retried_twice :
    let reader := Device.reader [CodePoint.solidus]
    let plan : Plan := ⟨[0x2F, 0x72], 1, none, 24, 1⟩
    let world : World Device := ⟨⟨none, 0, 0, none⟩, ⟨Host.ofTwoFiles, .host, none, []⟩⟩
    let noMemory : World Device := { world with ledger := ⟨none, 0, 0, some 0⟩ }
    let noDisc : World Device := { world with source := ⟨Host.ofTwoFiles, .host, some 0, []⟩ }
    let settings : Settings := ⟨true, false, none, 24, 1, [0x2F]⟩
    let cell (kind attributes name : UInt8) : Bytes :=
      [0, 0xFD, 0xFF, 0xFF, 0, 0, 0, 0, 0, 0, 0, 0,
        attributes, 0, 0, 0, kind, 0, 0, 0, name, 0, 0, 0]
    let onFolder (saved : Text) : Walk :=
      ⟨settings, ⟨[0x2F, 0x72], saved, 64⟩, 2, [⟨2, cell 2 3 0x64, 1, some ⟨0, 1, 0⟩⟩], none, false⟩
    let undone := onFolder [0x2F, 0x72, 0x2F, 0x64]
    let onFile : Walk :=
      ⟨settings, ⟨[0x2F, 0x72, 0x2F, 0x64], [0x2F, 0x72], 64⟩, 2,
        [⟨4, cell 1 19 0x66, -1, some ⟨0, 1, 0⟩⟩, ⟨2, cell 2 3 0x64, 1, none⟩], none, false⟩
    (∃ after, advance reader 9 (onFolder [], noMemory) =
      .error (.outOfMemory 56 0) (undone, after)) ∧
    (∃ after, advance reader 9 (undone, noDisc) = .error .discError (undone, after)) ∧
    Retried reader (Device.Shows Host.ofTwoFiles) plan 1 onFile ∧
    ∃ enough, ∀ patience ≥ enough, ∃ calm after,
      course reader patience plan 1 world = .ok calm after ∧ calm.LooksLike onFile ∧
      ∃ next after, advance reader patience (onFile, world) = .ok () (next, after) := by
  intro reader plan world noMemory noDisc settings cell onFolder undone onFile
  have started : start reader 9 plan world =
      .ok (onFolder []) ((start reader 9 plan).leaves world) := by decide +kernel
  have refused : advance reader 9 (onFolder [], noMemory) = .error (.outOfMemory 56 0)
      (undone, ((advance reader 9).leaves (onFolder [], noMemory)).2) := by decide +kernel
  have failed : advance reader 9 (undone, noDisc) = .error .discError
      (undone, ((advance reader 9).leaves (undone, noDisc)).2) := by decide +kernel
  have advanced : advance reader 9 (undone, world) =
      .ok () (onFile, ((advance reader 9).leaves (undone, world)).2) := by decide +kernel
  have retried : Retried reader (Device.Shows Host.ofTwoFiles) plan 1 onFile :=
    .advanced (.failed (.failed (.started ⟨rfl, rfl⟩ started) ⟨rfl, rfl⟩ refused) ⟨rfl, rfl⟩ failed)
      ⟨rfl, rfl⟩ advanced
  refine ⟨⟨_, refused⟩, ⟨_, failed⟩, retried, ?_⟩
  obtain ⟨enough, courses⟩ := course_looksLike_of_retried Host.reachable_ofTwoFiles
    (by decide +kernel) plan (by decide +kernel) (by decide) (by decide) (by decide)
  refine ⟨enough, fun patience patient => ?_⟩
  obtain ⟨calm, after, run, same⟩ :=
    courses patience patient world ⟨⟨rfl, rfl⟩, rfl, rfl, rfl⟩ 1
  exact ⟨calm, after, run, same reader _ onFile rfl (Device.reflects_wild _ _) retried⟩

end Walk

end Catwalk
