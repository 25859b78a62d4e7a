import Catwalk.Proofs.Trees

/-!
# Plans for a host

What a plan and a host have to be for walks to go through the whole tree: a plan in order, a device
that shows the host, and a host whose names are read back as they were stored.
-/

namespace Catwalk

/-- The device answers from a host. -/
structure Device.Shows (host : Host) (device : Device) : Prop where
  source : device.source = .host
  host : device.host = host

/-- A world without faults: a device that shows a host, and memory without end. -/
structure World.Calm (host : Host) (world : World Device) : Prop where
  shows : world.source.Shows host
  idle : world.source.countdown = none
  unlimited : world.ledger.limit = none
  unarmed : world.ledger.countdown = none

private theorem Device.Shows.answer {host : Host} {device : Device} (shows : device.Shows host)
    (call : ReadCall) :
    device.answer call = (Device.answerFrom call (host.catalogue call.path), device) := by
  unfold Device.answer
  simp only [shows.source, shows.host]

/-- A device answers a call from its host, unless it is set to fail. -/
theorem Device.Shows.read {host : Host} {device : Device} (shows : device.Shows host)
    (call : ReadCall) :
    (device.read call).2.Shows host ∧
      (device.countdown = none → (device.read call).2.countdown = none) ∧
      ((device.read call).1 = Device.answerFrom call (host.catalogue call.path) ∨
        device.countdown ≠ none ∧ (device.read call).1.result = .error .discError) := by
  have noted : ∀ countdown, Device.Shows host
      { device with countdown, calls := call :: device.calls } :=
    fun _ => ⟨shows.source, shows.host⟩
  unfold Device.read
  cases countdown : device.countdown with
  | none =>
    have answered := (noted device.countdown).answer call
    simp only [countdown] at answered ⊢
    rw [answered]
    exact ⟨⟨shows.source, shows.host⟩, fun _ => rfl, .inl rfl⟩
  | some n =>
    cases n with
    | zero => exact ⟨noted none, fun _ => rfl, .inr ⟨by simp, rfl⟩⟩
    | succ n =>
      dsimp only
      rw [(noted (some n)).answer call]
      exact ⟨noted (some n), fun never => (by cases never), .inl rfl⟩

/-- A device without a countdown answers every call from its host. -/
theorem Device.reflects (host : Host) (separator : Text) (calm : Prop) :
    (reader separator).Reflects host.catalogue
      (fun device => device.Shows host ∧ device.countdown = none) calm where
  keeps := fun call _ ⟨shows, idle⟩ => ⟨(shows.read call).1, (shows.read call).2.1 idle⟩
  answers := fun call _ ⟨shows, idle⟩ =>
    .inl ((shows.read call).2.2.resolve_right fun failed => failed.1 idle)

/-- A device with a countdown may fail instead. -/
theorem Device.reflects_wild (host : Host) (separator : Text) :
    (reader separator).Reflects host.catalogue (fun device => device.Shows host) False where
  keeps := fun call _ shows => (shows.read call).1
  answers := fun call _ shows =>
    (shows.read call).2.2.imp_right fun failed => ⟨id, .discError, failed.2⟩

theorem World.Calm.keeping {host : Host} {world : World Device} (calm : world.Calm host) :
    (Terms.keeping (fun device => device.Shows host ∧ device.countdown = none) True).world world :=
  ⟨⟨calm.shows, calm.idle⟩, fun _ => ⟨calm.unlimited, calm.unarmed⟩⟩

/-- A folder `r` that holds a directory `d`, with a file `f` in it, and a file `g`. -/
def Host.ofTwoFiles : Host :=
  ((Host.Operation.createFile [0x2F, 0x72, 0x2F, 0x67] {}).act 0).leaves
    (((Host.Operation.createFile [0x2F, 0x72, 0x2F, 0x64, 0x2F, 0x66] {}).act 0).leaves
      (((Host.Operation.makeDirectory [0x2F, 0x72, 0x2F, 0x64] false).act 0).leaves
        ⟨none, 1, [(Host.rootId, Node.emptyDirectory 0)]⟩))

theorem Host.reachable_ofTwoFiles : Host.ofTwoFiles.Reachable :=
  .after 0 _ (.after 0 _ (.after 0 _ (.made (rfl : make? none 0 = .ok _))))

namespace Walk.Plan

variable {plan : Plan} {separator : Text}

/-- Whether a plan is to go into an object. -/
def enters (plan : Plan) : Content → Bool
  | .file _ => false
  | .folder false _ => plan.flags % 2 = 1
  | .folder true _ => plan.flags / 2 = 1

/-- Settings that do what a plan says. -/
structure Follows (plan : Plan) (separator : Text) (settings : Settings) : Prop where
  enters : settings.entersContent = plan.enters
  matchesName : ∀ name,
    Pattern.matchesName settings.pattern name = Pattern.matchesName plan.pattern name
  looks : 1 ≤ settings.maxEntries
  room : 0 < settings.bufferSize
  separator : settings.separator = separator

/-- Settings that come of a plan follow it. -/
theorem follows_of_settings? {settings : Settings}
    (planned : plan.settings? separator = .ok settings) : plan.Follows separator settings := by
  obtain ⟨-, size, batch, rfl⟩ := settings?_eq_ok_iff.mp planned
  refine ⟨?_, ?_, batch, ?_, rfl⟩
  · funext content
    rcases content with length | ⟨_ | _, children⟩
    · rfl
    · rfl
    · rfl
  · intro name
    dsimp only
    by_cases all : Pattern.isMatchAll plan.pattern = true
    · rw [if_pos all, Pattern.matchesName_of_isMatchAll all]
      rfl
    · rw [if_neg all]
  · dsimp only
    omega

/-- A plan that is in order has settings that follow it. -/
theorem exists_settings (separator : Text) (flags : 0 ≤ plan.flags ∧ plan.flags < 4)
    (size : 24 ≤ plan.bufferSize) (batch : 1 ≤ plan.maxEntries) :
    ∃ settings, plan.settings? separator = .ok settings ∧ plan.Follows separator settings := by
  have planned : plan.settings? separator = .ok _ :=
    settings?_eq_ok_iff.mpr ⟨flags, size, batch, rfl⟩
  exact ⟨_, planned, follows_of_settings? planned⟩

/-- A reader of a sound host surrounds the walk of a plan. -/
theorem Follows.surroundings {ρ : Type} {reader : Reader ρ} {source : ρ → Prop} {calm : Prop}
    {host : Host} {settings : Settings} (follows : plan.Follows separator settings)
    (sound : host.Sound) (legible : host.Legible)
    (reflects : reader.Reflects host.catalogue source calm) :
    Surroundings reader host.catalogue source calm settings :=
  ⟨reflects.restrict _, sound.storable legible, follows.looks, follows.room⟩

end Walk.Plan

end Catwalk
