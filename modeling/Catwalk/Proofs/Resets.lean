import Catwalk.Proofs.Likenesses
import Catwalk.Proofs.Plans

/-!
# Resets

A reset that fails leaves a walk that is alike to the one before it, and so it shows the same and
goes on to show the same. A reset that succeeds leaves a walk that is alike to one started afresh,
so that no calls and no changes to the host tell the two apart.
-/

namespace Catwalk

variable {ρ : Type} {reader : Reader ρ}

/-- Sources that are as they should be answer alike, from the catalogue. -/
private theorem Reader.Reflects.agrees {catalogue : Catalogue} {source : ρ → Prop}
    (reflects : reader.Reflects catalogue source True) :
    reader.Agrees fun s t => source s ∧ source t := by
  rintro call s t ⟨held, held'⟩
  refine ⟨?_, reflects.keeps call s held, reflects.keeps call t held'⟩
  have answered := (reflects.answers call s held).resolve_right fun failed => failed.1 trivial
  have answered' := (reflects.answers call t held').resolve_right fun failed => failed.1 trivial
  rw [answered, answered']

/-- Two devices that show the same host, and are not set to fail. -/
def Device.Like (left right : Device) : Prop :=
  ∃ host, (left.Shows host ∧ left.countdown = none) ∧ right.Shows host ∧ right.countdown = none

private theorem Device.agrees (separator : Text) :
    (Device.reader separator).Agrees Device.Like := by
  rintro call left right ⟨host, like⟩
  obtain ⟨same, like'⟩ := (Device.reflects host separator True).agrees call left right like
  exact ⟨same, host, like'⟩

namespace Walk

variable {source : ρ → Prop} {plan : Plan} {walk walk' after left right : Walk} {root : Text}
  {n patience : Nat} {world world' : World ρ} {fault : Fault}

/-! ## Resets that fail -/

/-- The walks that so many advances lead to, one after another, each in a world of its own with the
source as it should be. -/
inductive Onward (reader : Reader ρ) (source : ρ → Prop) (walk : Walk) : Nat → Walk → Prop
  | here : Onward reader source walk 0 walk
  | advanced {n patience : Nat} {world world' : World ρ} {left after : Walk} :
      Onward reader source walk n left → source world.source →
      advance reader patience (left, world) = .ok () (after, world') →
      Onward reader source walk (n + 1) after

/-- Alike walks are alike after every number of advances. -/
private theorem Alike.onward (agrees : reader.Agrees fun s t => source s ∧ source t)
    (alike : walk.Alike walk') (onward : Onward reader source walk n left)
    (onward' : Onward reader source walk' n right) : left.Alike right := by
  induction n generalizing left right with
  | zero =>
    cases onward
    cases onward'
    exact alike
  | succ n ih =>
    cases onward with
    | @advanced _ patience world _ before _ onward held run =>
      cases onward' with
      | @advanced _ patience' world' _ before' _ onward' held' run' =>
        have beside : Beside (fun s t => source s ∧ source t) False (before, world)
            (before', world') := ⟨ih onward onward', ⟨held, held'⟩, False.elim⟩
        exact ((advance_pairs agrees False.elim beside).of_ok run run').walk

/-- A reset that fails leaves the walk as it was, but for the room of its path. -/
private theorem Sound.alike_of_reset_error (sound : walk.Sound root) (opened : walk.closed = false)
    (failed : reset reader patience (walk, world) = .error fault (after, world')) :
    walk.Alike after := by
  have covers := Terms.any_covers reader
  obtain ⟨-, -, ⟨⟨settings, rootLength, closed, -⟩, held⟩, levels, text⟩ :=
    (reset_meets (rounds_of_covers covers) sound opened (covers.serves _ (Level.fresh_holds _ _))
      (fun before after rooted opened => opened.sound rooted.sound rooted.bare) trivial).of_error
      failed
  refine ⟨after.path, text, ?_⟩
  rw [← settings, ← rootLength, ← levels, ← held, ← closed]

/-- A reset that fails, for whatever reason, keeps what the walk shows. Over a source that then
stays as it should be, the walk shows the same after any number of advances as it would have shown
without the reset, and as long as memory has no end, each advance ends as it would have ended. -/
theorem onward_of_reset_error (reader : Reader ρ) (plan : Plan) (walk after : Walk)
    (patience : Nat) (world world' : World ρ) (fault : Fault)
    (reached : Reachable reader plan walk) (opened : walk.closed = false)
    (failed : reset reader patience (walk, world) = .error fault (after, world')) :
    walk.LooksLike after ∧ after.depth = walk.depth ∧
      ∀ (catalogue : Catalogue) (source : ρ → Prop), reader.Reflects catalogue source True →
        ∀ n left right, Onward reader source walk n left → Onward reader source after n right →
          left.LooksLike right ∧ right.depth = left.depth ∧
          ∀ patience (quiet quiet' : World ρ), source quiet.source → source quiet'.source →
            quiet.ledger.Endless → quiet'.ledger.Endless →
            (advance reader patience).fault? (right, quiet') =
              (advance reader patience).fault? (left, quiet) := by
  obtain ⟨settings, -, live⟩ := reached.live
  obtain ⟨-, sound⟩ := live.of_opened opened
  have alike : walk.Alike after := sound.alike_of_reset_error opened failed
  refine ⟨alike.looksLike, alike.depth, ?_⟩
  intro catalogue source reflects n left right onward onward'
  have same : left.Alike right := alike.onward reflects.agrees onward onward'
  refine ⟨same.looksLike, same.depth, ?_⟩
  intro patience quiet quiet' held held' endless endless'
  have beside : Beside (fun s t => source s ∧ source t) True (left, quiet) (right, quiet') :=
    ⟨same, ⟨held, held'⟩, fun _ => ⟨endless, endless'⟩⟩
  exact (advance_pairs reflects.agrees (fun _ => rfl) beside).fault?

/-- A reset that runs out of memory between two files, the first of which is passed over. -/
theorem onward_of_reset_error_between_files :
    let listing : List Entry := [⟨[0x62], 1, 0, 0, 0, 0⟩, ⟨[0x61], 1, 0, 0, 0, 0⟩,
      ⟨[0x63], 1, 0, 0, 0, 0⟩, ⟨[0x61, 0x62], 1, 0, 0, 0, 0⟩]
    let reader := Reader.ofListing listing
    let roomy : World Unit := ⟨⟨none, 0, 0, none⟩, ()⟩
    let armed : World Unit := ⟨⟨none, 0, 0, some 1⟩, ()⟩
    let standing (saved : Text) (buffer : Bytes) (cursor : Int) (nameLength : Nat) : Walk :=
      ⟨⟨true, false, some [0x61, 0x2A], 24, 1, [0x2F]⟩, ⟨[0x41], saved, 64⟩, 1,
        [⟨1, buffer, cursor, some ⟨24, nameLength, 0⟩⟩], none, false⟩
    let onFirst (saved : Text) :=
      standing saved (Record.ofFile 0x62 ++ Record.ofFile 0x61) 2 1
    let onSecond (saved : Text) := standing saved
      (Record.ofFile 0x63 ++ (Bytes.zeros 16 ++ [1, 0, 0, 0, 0x61, 0x62, 0, 0])) (-1) 2
    (∃ after, reset reader 9 (onFirst [], armed) =
      .error (.outOfMemory 24 0) (onFirst [0x41], after)) ∧
    (onFirst []).LooksLike (onFirst [0x41]) ∧ (onFirst [0x41]).depth = (onFirst []).depth ∧
    Onward reader (fun _ => True) (onFirst []) 1 (onSecond []) ∧
    Onward reader (fun _ => True) (onFirst [0x41]) 1 (onSecond [0x41]) ∧
    (onSecond []).LooksLike (onSecond [0x41]) ∧
    (advance reader 9).fault? (onSecond [0x41], roomy) =
      (advance reader 9).fault? (onSecond [], roomy) := by
  intro listing reader roomy armed standing onFirst onSecond
  have started : start reader 9 ⟨[0x41], 1, some [0x61, 0x2A], 24, 1⟩ roomy =
      .ok (onFirst []) ⟨⟨none, 147, 4, none⟩, ()⟩ := by decide +kernel
  have failed : reset reader 9 (onFirst [], armed) = .error (.outOfMemory 24 0)
      (onFirst [0x41], ⟨⟨none, 0, 1, none⟩, ()⟩) := by decide +kernel
  have onward : ∀ saved, advance reader 9 (onFirst saved, roomy) = .ok () (onSecond saved, roomy) →
      Onward reader (fun _ => True) (onFirst saved) 1 (onSecond saved) :=
    fun _ run => .advanced .here trivial run
  have left := onward [] (by decide +kernel)
  have right := onward [0x41] (by decide +kernel)
  have endless : roomy.ledger.Endless := ⟨rfl, rfl⟩
  obtain ⟨same, depth, later⟩ := onward_of_reset_error reader _ _ _ 9 armed _ _ (.start started)
    rfl failed
  have reflects : reader.Reflects (fun _ => .ok listing) (fun _ => True) True :=
    ⟨fun _ _ _ => trivial, fun _ _ _ => .inl rfl⟩
  obtain ⟨same', -, ends⟩ := later _ _ reflects 1 _ _ left right
  exact ⟨⟨_, failed⟩, same, depth, left, right, same',
    ends 9 roomy roomy trivial trivial endless endless⟩

/-! ## Resets that succeed -/

/-- All that callers can see of a walk. -/
structure View where
  isEmpty : Bool
  path : Except Fault Text
  subPath : Except Fault Text
  leaf : Except Fault Text
  rootPath : Text
  depth : Nat
  information : Except Fault (Option Information × Except Fault ObjectType)
deriving DecidableEq

/-- What callers see of the walk. -/
def view (walk : Walk) : View where
  isEmpty := walk.isEmpty
  path := walk.name .path
  subPath := walk.name .subPath
  leaf := walk.name .leaf
  rootPath := walk.rootPath
  depth := walk.depth
  information := walk.information

private theorem Alike.view (alike : walk.Alike walk') : walk'.view = walk.view := by
  have same := alike.looksLike
  simp only [Walk.view, same.isEmpty, same.name, same.rootPath, same.information, alike.depth]

/-- What can be done with a walk, or behind its back to the host that it goes through. -/
inductive Deed where
  | advance (patience : Nat)
  | reset (patience : Nat)
  | operate (act : Act Host Unit)

/-- The act of a deed. -/
def Deed.act (reader : Reader Device) : Deed → Act (Scene Device) Unit
  | advance patience => Walk.advance reader patience
  | reset patience => Walk.reset reader patience
  | operate act =>
    around (Act.within World.source (fun source world => { world with source })
      (Act.within Device.host (fun host device => { device with host }) act))

/-- What callers see after each of some deeds: the fault that it ended in, if any, and the walk. -/
def reports (reader : Reader Device) : List Deed → Scene Device → List (Option Fault × View)
  | [], _ => []
  | deed :: deeds, scene =>
    let after := (deed.act reader).leaves scene
    ((deed.act reader).fault? scene, after.1.view) :: reports reader deeds after

variable {separator : Text} {s t : Scene Device}

/-- Scenes that no deed tells apart. -/
structure Paired (root : Text) (s t : Scene Device) : Prop where
  beside : Beside Device.Like True s t
  opened : s.1.closed = false
  sound : s.1.Sound root
  sound' : t.1.Sound root

private theorem Paired.opened' (paired : Paired root s t) : t.1.closed = false :=
  paired.beside.walk.looksLike.closed.trans paired.opened

/-- Scenes stay paired through what leaves both walks open and sound. -/
private theorem Paired.of_pairs {act : Act (Scene Device) Unit}
    (pairs : Act.Pairs True act act s t (fun _ s _ t => Beside Device.Like True s t)
      (Beside Device.Like True))
    (here : act.Meets s (fun _ s => s.1.closed = false ∧ s.1.Sound root)
      fun _ s => s.1.closed = false ∧ s.1.Sound root)
    (there : act.Meets t (fun _ t => t.1.closed = false ∧ t.1.Sound root)
      fun _ t => t.1.closed = false ∧ t.1.Sound root) :
    Act.Pairs True act act s t (fun _ s _ t => Paired root s t) (Paired root) := by
  refine (pairs.and_meets here there).mono ?_ ?_
  · rintro _ s _ t ⟨beside, ⟨opened, sound⟩, -, sound'⟩
    exact ⟨beside, opened, sound, sound'⟩
  · rintro s t ⟨beside, ⟨-, opened, sound⟩, -, -, sound'⟩
    exact ⟨beside, opened, sound, sound'⟩

private theorem Deed.pairs (separator : Text) (deed : Deed) (paired : Paired root s t) :
    Act.Pairs True (deed.act (Device.reader separator)) (deed.act (Device.reader separator)) s t
      (fun _ s _ t => Paired root s t) (Paired root) := by
  have agrees := Device.agrees separator
  have opened' := paired.opened'
  obtain ⟨beside, opened, sound, sound'⟩ := paired
  cases deed with
  | advance patience =>
    exact Paired.of_pairs (advance_pairs agrees (fun _ => rfl) beside)
      (advance_sound_meets sound opened) (advance_sound_meets sound' opened')
  | reset patience =>
    exact Paired.of_pairs (reset_pairs agrees (fun _ => rfl) beside sound sound' opened)
      (reset_sound_meets sound opened) (reset_sound_meets sound' opened')
  | operate act =>
    obtain ⟨walks, ⟨host, ⟨shows, idle⟩, shows', idle'⟩, ledgers⟩ := beside
    have still : ∀ host, Paired root
        (s.1, { s.2 with source := { s.2.source with host } })
        (t.1, { t.2 with source := { t.2.source with host } }) := fun host =>
      ⟨⟨walks, ⟨host, ⟨⟨shows.source, rfl⟩, idle⟩, ⟨shows'.source, rfl⟩, idle'⟩, ledgers⟩,
        opened, sound, sound'⟩
    refine Act.Pairs.within (Act.Pairs.within (Act.Pairs.within ?_))
    rw [shows.host, shows'.host]
    cases run : act host with
    | ok _ host => exact Act.pairs_of_ok run run (still host)
    | error fault host => exact Act.pairs_of_error run run fun _ => still host

private theorem Paired.reports (separator : Text) (paired : Paired root s t) (deeds : List Deed) :
    reports (Device.reader separator) deeds t = reports (Device.reader separator) deeds s := by
  induction deeds generalizing s t with
  | nil => rfl
  | cons deed deeds ih =>
    have pairs := deed.pairs separator paired
    have after := pairs.leaves
    unfold Walk.reports
    dsimp only
    rw [pairs.fault?, ih after, after.beside.walk.view]

private theorem exists_opening_of_reset_ok (sound : walk.Sound root) (opened : walk.closed = false)
    (run : reset reader patience (walk, world) = .ok () (after, world')) :
    ∃ between, opening reader patience (walk.atRoot root, world) = .ok () (after, between) ∧
      world' = between.updateLedger (LevelStack.release walk.levels) := by
  rw [reset_eq reader patience world sound opened] at run
  obtain ⟨⟨⟩, s, cleaned, rest⟩ := Act.exists_of_bind_ok run
  cases rest
  exact ⟨s.2, Act.ok_of_onFault cleaned, rfl⟩

/-- Where a walk opens at its root, one that is started in calm over the same host opens as well,
and stands beside it. -/
private theorem start_meets_of_opening {host : Host} {world world' between : World Device}
    (sound : walk.Sound plan.path) (opened : walk.closed = false)
    (planned : plan.settings? separator = .ok walk.settings) (calm : world.Calm host)
    (calm' : world'.Calm host)
    (run : opening (Device.reader separator) patience (walk.atRoot plan.path, world) =
      .ok () (after, between)) :
    (start (Device.reader separator) patience plan).Meets world'
      (fun fresh fresh' => Beside Device.Like True (after, between) (fresh, fresh'))
      fun _ _ => False := by
  have reserved := (Terms.keeping (fun device : Device => device.Shows host ∧
    device.countdown = none) True).reserve walk.settings.patternCharge world' calm'.keeping
  refine (start_meets_iff planned).mpr (reserved.mono ?_ ?_)
  · intro _ world' w
    refine setOut_meets_iff.mpr ((PathBuffer.empty.append_meets plan.path w).mono ?_ ?_)
    · rintro path world' ⟨⟨shown, endless⟩, text, -, -, -⟩
      obtain ⟨unlimited, unarmed⟩ := endless trivial
      have beside : Beside Device.Like True (walk.atRoot plan.path, world)
          ({ unstarted walk.settings with path, rootLength := path.text.length }, world') := by
        refine ⟨⟨path, text, ?_⟩, ⟨host, ⟨calm.shows, calm.idle⟩, shown⟩, fun _ =>
          ⟨⟨calm.unlimited, calm.unarmed⟩, unlimited, unarmed⟩⟩
        simp only [unstarted, atRoot, text, sound.rootLength, opened]
        rfl
      exact (opening_pairs (Device.agrees separator) (fun _ => rfl) beside).meets_of_ok run
    · rintro fault world' ⟨-, wild⟩
      exact wild trivial
  · rintro fault world' ⟨-, wild⟩
    exact wild trivial

/-- After a reset that succeeds, no one can tell the walk from one that is started afresh over the
host as it is then: whatever calls are made to both and whatever is done to the host, both show the
same and end in the same faults. -/
theorem reports_of_reset (separator : Text) (plan : Plan) (walk again : Walk) (patience : Nat)
    (host : Host) (world world' after : World Device)
    (reached : Reachable (Device.reader separator) plan walk) (opened : walk.closed = false)
    (calm : world.Calm host) (calm' : world'.Calm host)
    (run : reset (Device.reader separator) patience (walk, world) = .ok () (again, after)) :
    ∃ fresh after', start (Device.reader separator) patience plan world' = .ok fresh after' ∧
      fresh.view = again.view ∧
      ∀ deeds, reports (Device.reader separator) deeds (fresh, after') =
        reports (Device.reader separator) deeds (again, after) := by
  obtain ⟨settings, planned, live⟩ := reached.live
  obtain ⟨rfl, sound⟩ := live.of_opened opened
  obtain ⟨between, first, rfl⟩ := exists_opening_of_reset_ok sound opened run
  obtain ⟨fresh, after', started, beside⟩ :=
    (start_meets_of_opening sound opened planned calm calm' first).exists_ok
  obtain ⟨opened', sound'⟩ := (reset_sound_meets sound opened).of_ok run
  obtain ⟨_, -, live'⟩ := (Reachable.start started).live
  obtain ⟨-, afresh⟩ := live'.of_opened (beside.walk.looksLike.closed.trans opened')
  have worlds := beside.world.update (fun _ endless => endless.releaseAll walk.levels)
    fun _ endless => endless
  have paired : Paired plan.path
      (again, between.updateLedger (LevelStack.release walk.levels)) (fresh, after') :=
    ⟨⟨beside.walk, worlds⟩, opened', sound', afresh⟩
  exact ⟨fresh, after', started, paired.beside.walk.view, paired.reports separator⟩

/-- A walk that is reset inside a directory. A file is made while it goes on, and in the end the
whole folder is removed. -/
theorem reports_of_reset_inside_directory :
    let reader := Device.reader [CodePoint.solidus]
    let plan : Plan := ⟨[0x2F, 0x72], 1, none, 24, 1⟩
    let world : World Device := ⟨⟨none, 0, 0, none⟩, ⟨Host.ofTwoFiles, .host, none, []⟩⟩
    let settings : Settings := ⟨true, false, none, 24, 1, [0x2F]⟩
    let cell (kind attributes name : UInt8) : Bytes :=
      [0, 0xFD, 0xFF, 0xFF, 0, 0, 0, 0, 0, 0, 0, 0,
        attributes, 0, 0, 0, kind, 0, 0, 0, name, 0, 0, 0]
    let onFolder (saved : Text) : Walk :=
      ⟨settings, ⟨[0x2F, 0x72], saved, 64⟩, 2, [⟨2, cell 2 3 0x64, 1, some ⟨0, 1, 0⟩⟩], none, false⟩
    let onFile : Walk :=
      ⟨settings, ⟨[0x2F, 0x72, 0x2F, 0x64], [0x2F, 0x72], 64⟩, 2,
        [⟨4, cell 1 19 0x66, -1, some ⟨0, 1, 0⟩⟩, ⟨2, cell 2 3 0x64, 1, none⟩], none, false⟩
    let again := onFolder [0x2F, 0x72, 0x2F, 0x64]
    let deeds : List Deed := [.advance 9, .operate (Host.createFile 0 [0x2F, 0x72, 0x2F, 0x68] {}),
      .advance 9, .operate (Host.removeTree [0x2F, 0x72]), .reset 9]
    ∃ after fresh after',
      reset reader 9 (onFile, world) = .ok () (again, after) ∧
      start reader 9 plan world = .ok fresh after' ∧ fresh = onFolder [] ∧
      fresh.view = again.view ∧
      reports reader deeds (fresh, after') = reports reader deeds (again, after) ∧
      (reports reader deeds (again, after)).map (fun report => (report.1, report.2.subPath)) =
        [(none, .ok [0x64, 0x2F, 0x66]), (none, .ok [0x64, 0x2F, 0x66]), (none, .ok [0x67]),
          (none, .ok [0x67]), (some (.noObject [0x2F, 0x72]), .ok [0x67])] := by
  intro reader plan world settings cell onFolder onFile again deeds
  have started : start reader 9 plan world =
      .ok (onFolder []) ((start reader 9 plan).leaves world) := by decide +kernel
  have advanced : ((advance reader 9).leaves (onFolder [], world)).1 = onFile := by decide +kernel
  have run : reset reader 9 (onFile, world) =
      .ok () (again, ((reset reader 9).leaves (onFile, world)).2) := by decide +kernel
  have reached : Reachable reader plan onFile :=
    advanced ▸ (Reachable.start started).advance 9 world
  have quiet : world.Calm Host.ofTwoFiles := ⟨⟨rfl, rfl⟩, rfl, rfl, rfl⟩
  obtain ⟨fresh, after', afresh, view, same⟩ :=
    reports_of_reset _ plan onFile again 9 _ world world _ reached rfl quiet quiet run
  refine ⟨_, fresh, after', run, afresh, ?_, view, same deeds, by decide +kernel⟩
  rw [started] at afresh
  cases afresh
  rfl

end Walk

end Catwalk
