import Catwalk.Proofs.Retries
import Catwalk.Proofs.Sightings

/-!
# Leaf names of a flat walk

A host takes in every name that can be encoded, and a walk shows the name that the stored bytes
decode to. A name that spells out the bytes of a sequence in surrogates is read back as what the
sequence stands for, so it is shown under another name, which may be that of a sibling
(`siblings_share_leaf`). All that is lost is that: a flat walk shows what is listed, in order, each
name as its stored bytes decode (`leaf_of_flat_course`).

To read a listing is to read it with every name replaced by the one that it is read back as, if all
names match: then the records are the same (`fill_reread`).
-/

namespace Catwalk

open Entry

namespace Entry

/-- The entry under the name that its own name is read back as. -/
def reread (entry : Entry) : Entry := { entry with name := Text.decode entry.stored.name }

variable {entry : Entry} {entries : List Entry}

private theorem encode?_reread (entry : Entry) :
    Text.encode? entry.reread.name = some entry.stored.name :=
  Text.encode?_decode entry.stored.name

@[simp] theorem stored_reread (entry : Entry) : entry.reread.stored = entry.stored := by
  simp [Entry.stored, Entry.header, reread, Text.encode?_decode]

private theorem storable_reread (packable : entry.Packable)
    (ended : (0 : UInt8) ∉ entry.stored.name) : entry.reread.Storable := by
  refine ⟨?_, ?_, ?_, packable.objectType⟩
  · simp [encode?_reread]
  · simpa using ended
  · rw [stored_reread]
    rfl

private theorem records_reread (entries : List Entry) : records
    (entries.map reread) = records entries := by
  simp [records]

private theorem effort_reread (entries : List Entry) : effort
    (entries.map reread) = effort entries := by
  simp [effort, records_reread]

end Entry

namespace ReadCall

private theorem gather_reread {entries : List Entry} (packable : ∀ entry ∈ entries, entry.Packable)
    (room : Int) (index count : Nat) :
    gather none (entries.map reread) room index count = gather none entries room index count := by
  induction entries generalizing room index count with
  | nil => rfl
  | cons entry entries ih =>
    have others := ih fun other member => packable other (List.mem_cons_of_mem entry member)
    have here : entry.reread.storedName = .ok entry.stored.name := by
      rw [Entry.storedName, entry.encode?_reread]
    have there := (packable entry List.mem_cons_self).storedName
    have same : entry.reread.record entry.stored.name = entry.record entry.stored.name := rfl
    have all : ∀ name : Text, Pattern.matchesName none name = true := fun _ => rfl
    rw [List.map_cons, gather, gather, if_pos (all _), if_pos (all _), here, there]
    simp only [same, others]

/-- Where all names match, a listing is read as the one that is read back. -/
theorem fill_reread {call : ReadCall} (all : call.pattern = none) {listing : List Entry}
    (packable : ∀ entry ∈ listing, entry.Packable) :
    call.fill (listing.map reread) = call.fill listing := by
  have covered : ∀ entry ∈ (listing.drop call.cursor.toNat).take call.maxEntries.toNat,
      entry.Packable := fun entry member =>
    packable entry (List.mem_of_mem_drop (List.mem_of_mem_take member))
  unfold fill
  dsimp only
  rw [all, ← List.map_drop, ← List.map_take, gather_reread covered, List.length_map]

end ReadCall

/-- Entries that are not entered are seen one after the other. -/
private theorem Journey.of_flat {catalogue : Catalogue} {settings : Settings} {entries : List Entry}
    (flat : ∀ entry ∈ entries, settings.enters entry.stored.header.objectType = false)
    (path : Text) (depth : Nat) :
    Journey catalogue settings path depth entries
      (entries.map fun entry => ⟨path, entry, depth⟩) := by
  induction entries with
  | nil => exact .done
  | cons entry entries ih =>
    rw [List.forall_mem_cons] at flat
    exact .pass flat.1 (ih flat.2)

namespace Host

variable {host : Host}

/-- The catalogue of a host, with every name as it is read back. -/
def rereadCatalogue (host : Host) : Catalogue := fun path =>
  (host.catalogue path).map (List.map reread)

private theorem exists_of_rereadCatalogue {path : Text} {listing : List Entry}
    (found : host.rereadCatalogue path = .ok listing) :
    ∃ entries, host.catalogue path = .ok entries ∧ listing = entries.map reread := by
  unfold rereadCatalogue at found
  cases known : host.catalogue path with
  | error fault =>
    rw [known] at found
    cases found
  | ok entries =>
    rw [known] at found
    cases found
    exact ⟨entries, rfl, rfl⟩

private theorem Sound.storable_rereadCatalogue (sound : host.Sound) :
    Catalogue.Storable host.rereadCatalogue := by
  intro path listing found entry member
  obtain ⟨entries, known, rfl⟩ := exists_of_rereadCatalogue found
  obtain ⟨other, listed, rfl⟩ := List.mem_map.mp member
  obtain ⟨packable, ended⟩ := sound.packable known other listed
  exact storable_reread packable ended

private theorem Sound.within_rereadCatalogue (sound : host.Sound) :
    Catalogue.Within host.rereadCatalogue host.effort := by
  intro path listing found
  obtain ⟨entries, known, rfl⟩ := exists_of_rereadCatalogue found
  rw [effort_reread]
  exact sound.within_effort path entries known

/-- A device answers from the names that are read back, where all names match. -/
private theorem Sound.reflects_reread (sound : host.Sound) (separator : Text) :
    (Device.reader separator).ReflectsFor none host.rereadCatalogue
      (fun device => device.Shows host ∧ device.countdown = none) True where
  keeps := (Device.reflects host separator True).keeps
  answers call device held all := by
    refine ((Device.reflects host separator True).answers call device held).imp_left fun answered =>
      answered.trans ?_
    unfold rereadCatalogue
    cases known : host.catalogue call.path with
    | error fault => rfl
    | ok entries =>
      have packable := fun entry member => (sound.packable known entry member).1
      exact (ReadCall.fill_reread all packable).symm

private theorem Grows.names {children : List (Text × NodeId)} {forest : Forest}
    (grows : host.Grows children forest) :
    forest.entries.map Entry.name = children.map Prod.fst := by
  induction grows with
  | nil => rfl
  | object _ _ _ _ ih =>
    rw [Forest.entries, List.map_cons, List.map_cons, ih]
    rfl

/-- A folder has a catalogue, of its names. -/
private theorem Sound.exists_catalogue (sound : host.Sound) {path : Text}
    (folder : host.isFolder path = true) : ∃ entries, host.catalogue path = .ok entries ∧
      host.names path = .ok (entries.map Entry.name) := by
  obtain ⟨node, found, folder⟩ := (Option.any_eq_true _ _).mp folder
  obtain ⟨id, -, known⟩ := Option.bind_eq_some_iff.mp found
  obtain ⟨forest, grows⟩ := sound.exists_grows known
  refine ⟨_, catalogue_of_find? found folder, ?_⟩
  rw [grows.entriesOf_eq, grows.names]
  unfold Host.names childrenOf require
  rw [found]
  cases content : node.content with
  | file length =>
    rw [content] at folder
    cases folder
  | folder isImage children =>
    dsimp only [bind, Except.bind]
    rw [content]
    rfl

/-- A root with files by two names that are stored in the same bytes: an accented letter, and the
bytes of it spelt out in surrogates. -/
def ofTwoSpellings : Host :=
  ((Operation.createFile [0x2F, 0xDCC3, 0xDCA9] {}).act 0).leaves
    (((Operation.createFile [0x2F, 0xE9] {}).act 0).leaves
      ⟨none, 1, [(rootId, Node.emptyDirectory 0)]⟩)

private theorem reachable_ofTwoSpellings : ofTwoSpellings.Reachable :=
  .after 0 _ (.after 0 _ (.made (rfl : make? none 0 = .ok _)))

end Host

namespace Walk

variable {host : Host} {plan : Plan}

/-- A flat walk for which all names match shows the entries of its folder one by one. -/
private theorem course_meets_of_flat (sound : host.Sound) (flat : plan.flags = 0)
    (all : Pattern.isMatchAll plan.pattern = true) (size : 24 ≤ plan.bufferSize)
    (batch : 1 ≤ plan.maxEntries) {entries : List Entry}
    (found : host.catalogue plan.path = .ok entries) {patience : Nat}
    (enough : host.effort + entries.length ≤ patience) {world : World Device}
    (calm : world.Calm host) (n : Nat) :
    (course (Device.reader [CodePoint.solidus]) patience plan n).Meets world
      (fun walk _ => ∃ settings bound, walk.Due host.rereadCatalogue settings plan.path bound
        ((entries.map fun entry => (⟨plan.path, entry.reread, 1⟩ : Sight)).drop n))
      fun _ _ => False := by
  obtain ⟨settings, planned, follows⟩ :=
    plan.exists_settings [CodePoint.solidus] (by omega) size batch
  have pattern : settings.pattern = none := by
    obtain ⟨-, -, -, rfl⟩ := Plan.settings?_eq_ok_iff.mp planned
    exact if_pos all
  have readPattern : settings.readPattern = none := by
    rw [Settings.readPattern, pattern, ite_self]
  have around : Surroundings (Device.reader [CodePoint.solidus]) host.rereadCatalogue
      (fun device => device.Shows host ∧ device.countdown = none) True settings :=
    ⟨readPattern ▸ sound.reflects_reread _, sound.storable_rereadCatalogue, follows.looks,
      follows.room⟩
  have found' : host.rereadCatalogue plan.path = .ok (entries.map reread) := by
    rw [Host.rereadCatalogue, found]
    rfl
  have passed : ∀ entry ∈ entries.map reread,
      settings.enters entry.stored.header.objectType = false := by
    intro entry member
    obtain ⟨other, listed, rfl⟩ := List.mem_map.mp member
    obtain ⟨-, -, -, node, -, -, -, rfl⟩ := sound.exists_link_of_mem found listed
    rw [stored_reread, settings.enters_entry, follows.enters]
    rcases node.content with length | ⟨_ | _, children⟩ <;> simp [Plan.enters, flat]
  have whole : Entry.listed settings.readPattern (entries.map reread) = entries.map reread := by
    rw [readPattern]
    exact List.filter_eq_self.mpr fun _ _ => rfl
  have journey : Journey host.rereadCatalogue settings plan.path 1
      (Entry.listed settings.readPattern (entries.map reread))
      ((entries.map reread).map fun entry => ⟨plan.path, entry, 1⟩) := by
    rw [whole]
    exact Journey.of_flat passed plan.path 1
  have shown : ∀ sight : Sight, settings.shows sight = true := by
    intro sight
    rw [Settings.shows, pattern]
    simp [Pattern.matchesName]
  have enough' : Catalogue.Within host.rereadCatalogue patience ∧
      ((entries.map reread).map fun entry : Entry => Sight.mk plan.path entry 1).length ≤
        patience := by
    rw [List.length_map, List.length_map]
    exact ⟨fun path listing found =>
      Nat.le_trans (sound.within_rereadCatalogue path listing found) (by omega), by omega⟩
  refine (course_meets around enough' planned found' journey calm.keeping n).mono ?_
    fun _ _ never => never
  rintro walk world ⟨-, due⟩
  rw [List.filter_eq_self.mpr fun sight _ => shown sight, List.map_map] at due
  exact ⟨settings, _, due⟩

/-- A flat walk for which all names match shows what its folder lists, in order, and then nothing.
It shows each name as its stored bytes decode, which is the name itself just when it is legible. -/
theorem leaf_of_flat_course (reachable : host.Reachable) (plan : Plan) (flat : plan.flags = 0)
    (all : Pattern.isMatchAll plan.pattern = true) (folder : host.isFolder plan.path = true)
    (size : 24 ≤ plan.bufferSize) (batch : 1 ≤ plan.maxEntries) :
    ∃ names enough, host.names plan.path = .ok names ∧
      ∀ patience ≥ enough, ∀ world : World Device, world.Calm host → ∀ n, ∃ walk world',
        course (Device.reader [CodePoint.solidus]) patience plan n world = .ok walk world' ∧
        (walk.isEmpty = true ↔ names.length ≤ n) ∧
        ∀ name, names[n]? = some name → ∃ bytes, Text.encode? name = some bytes ∧
          walk.name .leaf = .ok (Text.decode bytes) ∧
          (walk.name .leaf = .ok name ↔ name.Legible) := by
  have sound := Host.sound_of_reachable reachable
  obtain ⟨entries, found, named⟩ := sound.exists_catalogue folder
  refine ⟨_, host.effort + entries.length, named, fun patience enough world calm n => ?_⟩
  obtain ⟨walk, world', run, settings, bound, due⟩ :=
    (course_meets_of_flat sound flat all size batch found enough calm n).exists_ok
  refine ⟨walk, world', run, ?_⟩
  rw [List.length_map]
  by_cases more : n < entries.length
  · have split : entries.drop n = entries[n] :: entries.drop (n + 1) :=
      List.drop_eq_getElem_cons more
    rw [← List.map_drop, split, List.map_cons] at due
    obtain ⟨shows, position, -⟩ := due.shown
    have packable := (sound.packable found entries[n] (List.getElem_mem more)).1
    have leaf := (tells_leaf position).told
    simp only [Sight.position, stored_reread] at leaf
    refine ⟨by simp [shows, more], fun name here => ?_⟩
    obtain rfl : entries[n].name = name := by simpa [more] using here
    refine ⟨entries[n].stored.name, packable.encoded, leaf, ?_⟩
    rw [Text.Legible, packable.encoded, leaf]
    simp
  · have none' : entries.length ≤ n := Nat.not_lt.mp more
    rw [← List.map_drop, List.drop_eq_nil_of_le none'] at due
    refine ⟨by simp [due.ended.1, none'], fun name here => ?_⟩
    simp [none'] at here

/-- The second of two files is shown under the name of the first. -/
theorem leaf_of_flat_course_of_two_spellings :
    let plan : Plan := ⟨[0x2F], 0, none, 24, 1⟩
    Host.ofTwoSpellings.Reachable ∧ plan.flags = 0 ∧ Pattern.isMatchAll plan.pattern = true ∧
    Host.ofTwoSpellings.isFolder plan.path = true ∧ 24 ≤ plan.bufferSize ∧ 1 ≤ plan.maxEntries ∧
    Host.ofTwoSpellings.names plan.path = .ok [[0xE9], [0xDCC3, 0xDCA9]] ∧
    ∃ enough, ∀ patience ≥ enough, ∃ walk world',
      course (Device.reader [CodePoint.solidus]) patience plan 1
        ⟨⟨none, 0, 0, none⟩, ⟨Host.ofTwoSpellings, .host, none, []⟩⟩ = .ok walk world' ∧
      walk.isEmpty = false ∧ walk.name .leaf = .ok [0xE9] := by
  intro plan
  have folder : Host.ofTwoSpellings.isFolder plan.path = true := by decide
  have named : Host.ofTwoSpellings.names plan.path = .ok [[0xE9], [0xDCC3, 0xDCA9]] := by decide
  refine ⟨Host.reachable_ofTwoSpellings, rfl, rfl, folder, by decide, by decide, named, ?_⟩
  obtain ⟨names, enough, named', shows⟩ := leaf_of_flat_course Host.reachable_ofTwoSpellings plan
    rfl rfl folder (by decide) (by decide)
  cases named.symm.trans named'
  refine ⟨enough, fun patience patient => ?_⟩
  obtain ⟨walk, world', run, ended, told⟩ := shows patience patient
    ⟨⟨none, 0, 0, none⟩, ⟨Host.ofTwoSpellings, .host, none, []⟩⟩ ⟨⟨rfl, rfl⟩, rfl, rfl, rfl⟩ 1
  obtain ⟨bytes, encoded, leaf, -⟩ := told [0xDCC3, 0xDCA9] rfl
  have spelt : Text.encode? [0xDCC3, 0xDCA9] = some [0xC3, 0xA9] := by decide
  cases spelt.symm.trans encoded
  refine ⟨walk, world', run, ?_, leaf⟩
  exact eq_false_of_ne_true fun none' => absurd (ended.mp none') (by decide)

/-- Siblings are shown under one name, which is not the name that is listed for the second. -/
theorem siblings_share_leaf :
    let plan : Plan := ⟨[0x2F], 0, none, 24, 1⟩
    Host.ofTwoSpellings.Reachable ∧
    Host.ofTwoSpellings.names plan.path = .ok [[0xE9], [0xDCC3, 0xDCA9]] ∧
    ∀ n < 2, ∃ walk world', course (Device.reader [CodePoint.solidus]) 5 plan n
        ⟨⟨none, 0, 0, none⟩, ⟨Host.ofTwoSpellings, .host, none, []⟩⟩ = .ok walk world' ∧
      walk.isEmpty = false ∧ walk.name .leaf = .ok [0xE9] := by
  intro plan
  have every : ∀ n < 2, (course (Device.reader [CodePoint.solidus]) 5 plan n).Meets
      ⟨⟨none, 0, 0, none⟩, ⟨Host.ofTwoSpellings, .host, none, []⟩⟩
      (fun walk _ => walk.isEmpty = false ∧ walk.name .leaf = .ok [0xE9]) fun _ _ => False := by
    decide +kernel
  exact ⟨Host.reachable_ofTwoSpellings, by decide, fun n small => (every n small).exists_ok⟩

end Walk

end Catwalk
