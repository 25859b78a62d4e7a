import Catwalk.Proofs.Plans
import Catwalk.Proofs.Sightings

/-!
# Lengths that are told

The length that a walk tells of an object is the one under which its directory lists it, as far as a
word of a record holds it. A foreign directory lists files of more bytes than a word can count with
the greatest length that there is, but a host lists them as they are, so that their lengths are told
modulo the size of a word (`length_of_recorded`).
-/

namespace Catwalk

private theorem Word.val_ofInt_natCast (n : Nat) : (Word.ofInt n).val = n % 0x100000000 := by
  simp only [Word.ofInt]
  omega

/-! ## Where records come from -/

section
variable {exchange : Exchange} {record : Stored} {answered : Except Fault (List Entry)}

/-- What is delivered of a catalogue is the record of one of its entries. -/
private theorem Exchange.Delivers.exists_entry (found : exchange.Delivers record)
    (answer : exchange.answer = Device.answerFrom exchange.call answered) :
    ∃ listing, answered = .ok listing ∧
      ((∀ entry ∈ listing, (0 : UInt8) ∉ entry.stored.name) →
        ∃ entry ∈ listing, entry.Packable ∧ entry.stored = record) := by
  obtain ⟨batch, fresh, result, number, row, member⟩ := found
  rw [answer] at result
  rw [Exchange.buffer, answer] at row
  cases answered with
  | error fault => cases result
  | ok listing =>
    exact ⟨listing, rfl, fun ended =>
      exchange.call.exists_of_fill ended result number row record member⟩

end

namespace Device

variable {device other : Device} {call : ReadCall}

private theorem answer_congr (source : other.source = device.source)
    (host : other.host = device.host) : (other.answer call).1 = (device.answer call).1 := by
  unfold answer
  rw [source, host]
  cases device.source <;> rfl

/-- A read that does not fail is answered by the source. -/
private theorem read_of_ok {batch : Batch} (ok : (device.read call).1.result = .ok batch) :
    (device.read call).1 = (device.answer call).1 := by
  unfold read at ok ⊢
  dsimp only at ok ⊢
  split at ok
  · cases ok
  · exact answer_congr rfl rfl
  · exact answer_congr rfl rfl

/-- A length is told of an object as its source has it. -/
structure TellsLength (device : Device) (shown : Position) (length : Nat) : Prop where
  /-- The host has the object in the directory by the stored name. -/
  host : device.source = .host → device.host.Reachable → ∃ name node,
    device.host.find? (.ofText (shown.directory ++ CodePoint.solidus :: name)) = some node ∧
      Text.encode? name = some shown.storedName ∧ length = node.content.length % 0x100000000
  /-- The foreign directory has the item by the stored name. -/
  foreign : ∀ directories, device.source = .directories directories → ∃ items,
    directories.lookup shown.directory = some items ∧
      ((∀ item ∈ items, (0 : CodePoint) ∉ item.name) → ∃ item ∈ items, item.gone = false ∧
        Text.encode? item.name = some shown.storedName ∧
        length = if item.kind = .directory then 0 else min item.size 0xFFFFFFFF)

end Device

/-! ## What is told of an entry -/

section
variable {shown : Position}

private theorem Host.length_entry {node : Node} {name : Text}
    (header : shown.header = (node.entry name).header) :
    shown.information.length = node.content.length % 0x100000000 := by
  have typed : shown.header.objectType.val = node.content.objectType.code := by
    rw [header]
    exact Word.val_ofInt (by cases node.content.objectType <;> decide)
  have long : shown.header.length.val = node.content.length % 0x100000000 := by
    rw [header]
    exact Word.val_ofInt_natCast _
  cases content : node.content with
  | file size =>
    rw [content] at typed long
    simpa [Position.information, typed, Content.objectType, ObjectType.code] using long
  | folder isImage children =>
    rw [content] at typed
    cases isImage <;>
      simp [Position.information, typed, Content.objectType, ObjectType.code, Content.length]

/-- An entry is made of its item: a directory has no length. -/
private theorem Item.fields_entry {item : Item} {entry : Entry} (made : item.entry = .ok entry) :
    entry.name = item.name ∧ entry.objectType = (if item.kind = .directory then 2 else 1) ∧
      entry.length = if item.kind = .directory then 0 else min (item.size : Int) 0xFFFFFFFF := by
  unfold Item.entry at made
  cases moment : Moment.ofSeconds? item.changed with
  | error fault =>
    rw [moment] at made
    cases made
  | ok changed =>
    rw [moment] at made
    cases made
    by_cases directory : item.kind = .directory <;> simp [directory, ObjectType.code]

private theorem Item.length_entry {item : Item} {entry : Entry} (made : item.entry = .ok entry)
    (header : shown.header = entry.header) : shown.information.length =
      if item.kind = .directory then 0 else min item.size 0xFFFFFFFF := by
  obtain ⟨-, objectType, length⟩ := Item.fields_entry made
  by_cases directory : item.kind = .directory
  · have typed : shown.header.objectType.val = 2 := by
      simp [header, Entry.header, objectType, directory, Word.ofInt]
    simp [Position.information, typed, directory, ObjectType.code]
  · have typed : shown.header.objectType.val = 1 := by
      simp [header, Entry.header, objectType, directory, Word.ofInt]
    have long : shown.header.length.val = min item.size 0xFFFFFFFF := by
      rw [header]
      simp only [Entry.header, length, if_neg directory, Word.ofInt]
      omega
    simpa [Position.information, typed, directory, ObjectType.code] using long

end

/-- Only a zero in a name is stored as one. -/
private theorem Entry.zero_not_mem_stored {entry : Entry}
    (unbroken : (0 : CodePoint) ∉ entry.name) : (0 : UInt8) ∉ entry.stored.name := by
  unfold Entry.stored
  cases encoded : Text.encode? entry.name with
  | none => simp
  | some bytes => exact Text.zero_not_mem_encode unbroken encoded

/-- What is made of a list is made of its members. -/
private theorem exists_of_mem_mapM {α β : Type} {f : α → Except Fault β} {items : List α}
    {results : List β} (made : items.mapM f = .ok results) :
    ∀ result ∈ results, ∃ item ∈ items, f item = .ok result := by
  induction items generalizing results with
  | nil =>
    cases made
    simp
  | cons item items ih =>
    rw [List.mapM_cons] at made
    cases first : f item with
    | error fault => simp [first, bind, Except.bind] at made
    | ok front =>
      cases rest : items.mapM f with
      | error fault => simp [first, rest, bind, Except.bind] at made
      | ok back =>
        obtain rfl : front :: back = results := by
          simpa [first, rest, bind, Except.bind, pure, Except.pure] using made
        simp only [List.forall_mem_cons, List.exists_mem_cons_iff]
        exact ⟨.inl first, fun result member => .inr (ih rest result member)⟩

/-- Every entry of a foreign directory is that of an item. -/
private theorem Item.exists_of_catalogue {items : List Item} {listing : List Entry}
    (made : Item.catalogue items = .ok listing) :
    ∀ entry ∈ listing, ∃ item ∈ items, item.gone = false ∧ item.entry = .ok entry := by
  intro entry member
  obtain ⟨item, stays, is⟩ := exists_of_mem_mapM made entry member
  obtain ⟨listed, there⟩ := List.mem_filter.mp stays
  exact ⟨item, listed, by simpa using there, is⟩

/-! ## What is told of a record -/

namespace Host

variable {host : Host} {path name : Text} {parent child : NodeId} {node : Node}

/-- A link from a directory leads to the object below the directory's path. -/
private theorem Sound.find?_below (sound : host.Sound)
    (located : host.locate? (.ofText path) = some parent)
    (link : (parent, name, child) ∈ host.links) (known : host.node? child = some node) :
    host.find? (.ofText (path ++ CodePoint.solidus :: name)) = some node := by
  have elements := Path.elements_ofText_below path (sound.names _ link).toPlain
  unfold locate? at located
  have below : host.locateFrom? rootId ((Path.ofText path).elements ++ [name]) = some child := by
    rw [locateFrom?_append, located, Option.bind_some, locateFrom?,
      sound.childId?_eq_some_iff.mpr link]
    rfl
  simp [find?, locate?, elements, below, known]

end Host

/-- Of a record that a device has delivered, the length is told as the device's source has it. -/
private theorem Exchange.Delivers.tellsLength {exchange : Exchange} {record : Stored}
    (found : exchange.Delivers record) {device : Device}
    (answer : (device.read exchange.call).1 = exchange.answer) {shown : Position}
    (directory : exchange.call.path = shown.directory) (name : shown.storedName = record.name)
    (header : shown.header = record.header) :
    device.TellsLength shown shown.information.length := by
  have answered : exchange.answer = (device.answer exchange.call).1 := by
    obtain ⟨batch, -, result, -⟩ := found
    rw [← answer] at result ⊢
    exact Device.read_of_ok result
  constructor
  · intro source reachable
    have sound := Host.sound_of_reachable reachable
    unfold Device.answer at answered
    rw [source] at answered
    obtain ⟨listing, catalogue, own⟩ := found.exists_entry answered
    obtain ⟨entry, listed, packable, rfl⟩ := own fun entry listed =>
      (sound.packable catalogue entry listed).2
    obtain ⟨id, leaf, child, node, located, link, known, rfl⟩ :=
      sound.exists_link_of_mem catalogue listed
    refine ⟨leaf, node, ?_, ?_, Host.length_entry header⟩
    · rw [← directory]
      exact sound.find?_below located link known
    · rw [name]
      exact packable.encoded
  · intro directories source
    unfold Device.answer at answered
    rw [source] at answered
    obtain ⟨listing, catalogue, own⟩ := found.exists_entry answered
    unfold Device.scan Device.directory at catalogue
    rw [directory] at catalogue
    cases known : directories.lookup shown.directory with
    | none =>
      rw [known] at catalogue
      cases catalogue
    | some items =>
      rw [known] at catalogue
      refine ⟨items, rfl, fun unbroken => ?_⟩
      have made := Item.exists_of_catalogue catalogue
      have ended : ∀ entry ∈ listing, (0 : UInt8) ∉ entry.stored.name := by
        intro entry listed
        obtain ⟨item, there, -, is⟩ := made entry listed
        exact Entry.zero_not_mem_stored ((Item.fields_entry is).1 ▸ unbroken item there)
      obtain ⟨entry, listed, packable, rfl⟩ := own ended
      obtain ⟨item, there, stays, is⟩ := made entry listed
      refine ⟨item, there, stays, ?_, Item.length_entry is header⟩
      rw [← (Item.fields_entry is).1, name]
      exact packable.encoded

namespace Walk

/-- What a walk shows of an object was read in the object's directory, and the length that it tells
is the one that the source of the read has it under: modulo the size of a word if that is a host,
and cut to what a word can hold if it is a foreign directory. -/
theorem length_of_recorded (separator : Text) (plan : Plan) (walk : Walk) (calls : List Call)
    (recorded : Recorded (Device.reader separator) plan (some walk) calls)
    (shows : walk.isEmpty = false) :
    ∃ exchange ∈ Call.account calls, exchange.IsFrom (Device.reader separator) ∧
      ∃ shown told objectType, walk.position = .ok (some shown) ∧
      exchange.call.path = shown.directory ∧ walk.information = .ok (some told, objectType) ∧
      ∀ device : Device, (device.read exchange.call).1 = exchange.answer →
        device.TellsLength shown told.length := by
  obtain ⟨never, -⟩ | ⟨settings, stages, shown, -, course, tracks⟩ := recorded.tracks
  · cases never
  have tracks := tracks walk rfl
  obtain ⟨position, known⟩ := tracks.sound.exists_shown shows
  cases shown with
  | none => simp [tracks.position] at known
  | some sighting =>
    have read := (course.origins.2 sighting rfl).record
    obtain ⟨exchange, member, path, found⟩ := read
    have genuine := (course.keeps exchange member).1
    refine ⟨exchange, member, genuine, sighting.position settings plan.path, _, _, tracks.position,
      path, by rw [information, tracks.position]; rfl, fun device answer => ?_⟩
    exact found.tellsLength answer path rfl rfl

/-- A device whose host has one file, `f`, of a length. -/
def deviceOfFile (length : Int) : Device where
  host := ((Host.Operation.createFile [0x2F, 0x66] { length }).act 0).leaves .empty
  source := .host
  countdown := none
  calls := []

private theorem reachable_deviceOfFile (length : Int) : (deviceOfFile length).host.Reachable :=
  .after 0 _ Host.reachable_empty

/-- The file's record with a length of one byte, and a walk that stands on it. -/
def onFile (length : UInt8) : Walk :=
  let record : Bytes := [0, 0xFD, 0xFF, 0xFF, 0, 0, 0, 0, length, 0, 0, 0, 19, 0, 0, 0, 1, 0, 0, 0,
    0x66, 0, 0, 0]
  ⟨⟨false, false, none, 24, 1, [0x2F]⟩, ⟨[0x2F], [], 64⟩, 1, [⟨1, record, -1, some ⟨0, 1, 0⟩⟩],
    none, false⟩

/-- A walk onto a file that is five bytes longer than 4 GiB. -/
theorem length_of_recorded_beyond_word :
    let device := deviceOfFile 0x100000005
    let reader := Device.reader [0x2F]
    (∃ calls, Recorded reader ⟨[0x2F], 0, none, 24, 1⟩ (some (onFile 5)) calls) ∧
      (onFile 5).isEmpty = false ∧ ∃ shown told objectType,
        (onFile 5).position = .ok (some shown) ∧
        (onFile 5).information = .ok (some told, objectType) ∧
        device.TellsLength shown told.length := by
  intro device reader
  let call : ReadCall := ⟨[0x2F], Bytes.zeros 24, 0, 0, 1, none⟩
  let exchange : Exchange := ⟨call, (device.read call).1⟩
  have started : start reader.logged 5 ⟨[0x2F], 0, none, 24, 1⟩ ⟨⟨none, 0, 0, none⟩, device, []⟩ =
      .ok (onFile 5) ⟨⟨none, 120, 2, none⟩, (device.read call).2, [exchange]⟩ := by
    decide +kernel
  have recorded : Recorded reader ⟨[0x2F], 0, none, 24, 1⟩ (some (onFile 5))
      [⟨.start, 5, [exchange], .done⟩] := .start rfl started
  have shows : (onFile 5).isEmpty = false := by decide
  obtain ⟨made, member, -, shown, told, objectType, position, -, information, tells⟩ :=
    length_of_recorded [0x2F] _ _ _ recorded shows
  obtain rfl := List.mem_singleton.mp member
  exact ⟨⟨_, recorded⟩, shows, shown, told, objectType, position, information, tells device rfl⟩

/-- A file of 4 GiB, one byte more than a word can count, is told to have none. -/
theorem length_wraps :
    let device := deviceOfFile 0x100000000
    device.host.Reachable ∧ device.host.fileSize [0x2F, 0x66] = .ok 0x100000000 ∧
      (∃ after, start (Device.reader [0x2F]) 5 ⟨[0x2F], 0, none, 24, 1⟩
        ⟨⟨none, 0, 0, none⟩, device⟩ = .ok (onFile 0) after) ∧
      (onFile 0).name .leaf = .ok [0x66] ∧
      ∃ told, (onFile 0).information = .ok (some told, .ok .file) ∧ told.length = 0 := by
  intro device
  have started : start (Device.reader [0x2F]) 5 ⟨[0x2F], 0, none, 24, 1⟩
      ⟨⟨none, 0, 0, none⟩, device⟩ = .ok (onFile 0) ⟨⟨none, 120, 2, none⟩,
        (device.read ⟨[0x2F], Bytes.zeros 24, 0, 0, 1, none⟩).2⟩ := by decide +kernel
  exact ⟨reachable_deviceOfFile _, by decide +kernel, ⟨_, started⟩, by decide +kernel, _, rfl,
    by decide +kernel⟩

end Walk

end Catwalk
