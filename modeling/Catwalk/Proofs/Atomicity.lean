import Catwalk.Proofs.Histories

/-!
# Calls that fail

An advance that fails changes nothing that can be seen of the walk: not the object that it shows,
nor its names, nor the root. Where it was in the middle of passing over objects, it has moved on
underneath, and only the depth tells.
-/

namespace Catwalk

variable {ρ : Type} {terms : Terms ρ} {reader : Reader ρ}

theorem Settings.filters_of_plan {plan : Walk.Plan} {separator : Text} {settings : Settings}
    (planned : plan.settings? separator = .ok settings)
    (shows : plan.flags = 0 ∨ Pattern.isMatchAll plan.pattern = true) :
    settings.filters = false := by
  obtain ⟨-, -, -, rfl⟩ := Walk.Plan.settings?_eq_ok_iff.mp planned
  unfold filters
  rcases shows with none' | all
  · simp only [none']
    rfl
  · simp only [all, if_true, Option.isSome_none, Bool.and_false]

namespace Walk

/-- Two walks look the same: they show the same object below the same root. -/
structure LooksLike (before after : Walk) : Prop where
  isEmpty : after.isEmpty = before.isEmpty
  name : ∀ kind, after.name kind = before.name kind
  rootPath : after.rootPath = before.rootPath
  information : after.information = before.information
  closed : after.closed = before.closed

variable {before after : Walk} {root : Text}

/-- Walks with the same settings and root look the same if they show the same object. -/
theorem looksLike_of_position (settings : after.settings = before.settings)
    (opened : before.closed = false) (opened' : after.closed = false) (sound : before.Sound root)
    (sound' : after.Sound root) (position : after.position = before.position)
    (isEmpty : after.isEmpty = before.isEmpty) : before.LooksLike after := by
  refine ⟨isEmpty, ?_, ?_, ?_, opened'.trans opened.symm⟩
  · intro kind
    have omitted : after.omitted kind = before.omitted kind := by
      cases kind <;> simp only [omitted, sound.rootLength, sound'.rootLength]
    simp only [name, storedName, position, omitted, settings]
  · rw [sound.rootPath opened, sound'.rootPath opened']
  · rw [information, information, position]

private theorem Interrupted.looksLike
    (interrupted : before.Interrupted terms reader (fun _ walk => walk.Sound root) after)
    (opened : before.closed = false) (shows : before.isEmpty = false) (sound : before.Sound root) :
    before.LooksLike after := by
  cases interrupted with
  | stayed stayed =>
    exact looksLike_of_position stayed.same.settings opened (stayed.same.closed.trans opened) sound
      (stayed.sound sound) (stayed.position sound) stayed.isEmpty
  | under _ setup sound' _ held position =>
    refine looksLike_of_position setup.settings opened (setup.closed.trans opened) sound sound'
      position ?_
    rw [shows, isEmpty, Option.isNone_eq_false_iff.mpr held, Bool.false_and]

/-- An advance that fails, for whatever reason, keeps what the walk shows, and the depth as well if
the walk shows every record that it reads. -/
theorem advance_error_looksLike (reader : Reader ρ) (plan : Plan) (walk after : Walk)
    (patience : Nat) (world world' : World ρ) (fault : Fault)
    (reached : Reachable reader plan walk) (opened : walk.closed = false)
    (failed : advance reader patience (walk, world) = .error fault (after, world')) :
    walk.LooksLike after ∧
      (plan.flags = 0 ∨ Pattern.isMatchAll plan.pattern = true → after.depth = walk.depth) := by
  obtain ⟨settings, planned, live⟩ := reached.live
  cases live with
  | shut closed _ _ =>
    rw [opened] at closed
    cases closed
  | «open» _ same sound =>
    have shows : walk.isEmpty = false := by
      refine eq_false_of_ne_true fun ended => ?_
      rw [advance_of_isEmpty opened ended] at failed
      cases failed
    have covers := Terms.any_covers reader
    have stepped : (step reader patience).Meets (walk, world) _ _ :=
      step_sound_meets covers sound trivial
    obtain ⟨-, -, interrupted⟩ :=
      (advance_meets (rounds_of_covers covers) sound opened shows stepped).of_error failed
    refine ⟨interrupted.looksLike opened shows sound, ?_⟩
    intro plain
    cases interrupted with
    | stayed stayed => exact stayed.depth
    | under filters _ _ _ _ _ =>
      rw [same, Settings.filters_of_plan planned plain] at filters
      cases filters

/-- A walk that shows `a` and fails behind `b`, which it passes over, holds on to `a`; a walk that
shows all files stays on `b`. -/
theorem advance_error_looksLike_on_second :
    let reader := Reader.ofListing
      [⟨[0x61], 1, 0, 0, 0, 0⟩, ⟨[0x62], 1, 0, 0, 0, 0⟩, ⟨[0x63, 0x63, 0x63, 0x63], 1, 0, 0, 0, 0⟩]
    let choosy : Settings := ⟨true, false, some [0x61], 48, 1, [0x2F]⟩
    let plain : Settings := ⟨true, false, none, 48, 1, [0x2F]⟩
    let full : World Unit := ⟨⟨some 0, 0, 0, none⟩, ()⟩
    let onFirst (settings : Settings) := atFile settings (Record.ofFile 0x61 ++ Bytes.zeros 24) 1
    let moved (settings : Settings) :=
      atFile settings (Record.ofFile 0x62 ++ Record.ofFile 0x62) 2
    let after := { moved choosy with held := some ⟨[0x41], [0x61], ⟨0, 0, 0, 0, 1⟩⟩ }
    let onSecond := { onFirst plain with
      levels := [⟨1, Record.ofFile 0x61 ++ Record.ofFile 0x62, 2, some ⟨24, 1, 0⟩⟩] }
    advance reader 3 (onFirst choosy, full) = .error (.outOfMemory 48 0) (after, full) ∧
    (onFirst choosy).LooksLike after ∧
    advance reader 3 (onSecond, full) = .error (.outOfMemory 48 0) (moved plain, full) ∧
    onSecond.LooksLike (moved plain) ∧ (moved plain).depth = onSecond.depth := by
  intro reader choosy plain full onFirst moved after onSecond
  let roomy : World Unit := ⟨⟨none, 0, 0, none⟩, ()⟩
  have failed : advance reader 3 (onFirst choosy, full) =
      .error (.outOfMemory 48 0) (after, full) := by decide +kernel
  have failed' : advance reader 3 (onSecond, full) =
      .error (.outOfMemory 48 0) (moved plain, full) := by decide +kernel
  have started : start reader 3 ⟨[0x41], 1, some [0x61], 48, 1⟩ roomy =
      .ok (onFirst choosy) ⟨⟨none, 146, 3, none⟩, ()⟩ := by decide +kernel
  have reached : Reachable reader ⟨[0x41], 1, some [0x61], 48, 1⟩ (onFirst choosy) :=
    .start started
  have reached' : Reachable reader ⟨[0x41], 1, none, 48, 1⟩ onSecond := by
    have started : start reader 3 ⟨[0x41], 1, none, 48, 1⟩ roomy =
        .ok (onFirst plain) ⟨⟨none, 144, 2, none⟩, ()⟩ := by decide +kernel
    have advanced : ((advance reader 3).leaves (onFirst plain, roomy)).1 = onSecond := by
      decide +kernel
    exact advanced ▸ (Reachable.start started).advance 3 roomy
  obtain ⟨same, -⟩ := advance_error_looksLike reader _ _ _ 3 full full _ reached rfl failed
  obtain ⟨same', depth⟩ := advance_error_looksLike reader _ _ _ 3 full full _ reached' rfl failed'
  exact ⟨failed, same, failed', same', depth (.inr rfl)⟩

end Walk

end Catwalk
