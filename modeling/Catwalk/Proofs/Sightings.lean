import Catwalk.Proofs.Encodings
import Catwalk.Proofs.Origins
import Catwalk.Proofs.Traversals

/-!
# Names of what is shown

A walk tells the names that have led to the object that it shows: the directories that its course
has entered, and the object's own name, with separators between them (`tells_of_recorded`). At a
root that is not empty the path below the root is just that. At the empty root, where no separator
follows the root, one code point too many is left out once a directory has been entered
(`subPath_of_empty_root`).
-/

namespace Catwalk

namespace Text

variable {c : CodePoint} {t u : Text}

private theorem encodeOne?_of_ascii (ascii : c.val < 0x80) :
    encodeOne? c = some [UInt8.ofNat c.val] := by
  unfold encodeOne?
  exact if_pos ascii

/-- A text that is read back in front of an ASCII separator and of stored bytes. -/
private theorem decode_encode_append (ascii : c.val < 0x80) {x : Bytes}
    (encoded : encode? t = some x) (same : decode x = t) (y : Bytes) :
    encode? (t ++ [c]) = some (x ++ [UInt8.ofNat c.val]) ∧
      decode ((x ++ [UInt8.ofNat c.val]) ++ y) = t ++ c :: decode y := by
  have value : (UInt8.ofNat c.val).toNat = c.val :=
    UInt8.toNat_ofNat_of_lt' (Nat.lt_trans ascii (by decide))
  have single : encode? [c] = some [UInt8.ofNat c.val] := by
    rw [encode?, encodeOne?_of_ascii ascii]
    rfl
  constructor
  · rw [encode?_append, encoded, single]
    rfl
  · rw [List.append_assoc, List.singleton_append, decode_append_ascii (by omega), same]
    simp only [value]

private theorem Legible.append_ascii (ascii : c.val < 0x80) (front : t.Legible) (back : u.Legible) :
    Legible (t ++ ([c] ++ u)) := by
  obtain ⟨x, encoded, same⟩ := Option.map_eq_some_iff.mp front
  obtain ⟨y, encoded', same'⟩ := Option.map_eq_some_iff.mp back
  obtain ⟨cut, joined⟩ := decode_encode_append ascii encoded same y
  refine Option.map_eq_some_iff.mpr ⟨x ++ [UInt8.ofNat c.val] ++ y, ?_, ?_⟩
  · rw [← List.append_assoc, encode?_append, cut, encoded']
    rfl
  · rw [joined, same']
    rfl

private theorem legible_decode (bytes : Bytes) : (decode bytes).Legible := by
  rw [Legible, encode?_decode]
  rfl

private theorem decodeFrom_eq_drop (skip : Nat) (bytes : Bytes) :
    decodeFrom skip bytes = decode (bytes.drop skip) := by
  induction bytes generalizing skip with
  | nil => cases skip <;> rfl
  | cons b bytes ih =>
    cases skip with
    | zero => rfl
    | succ skip => exact ih skip

/-- A text that is read back is so from its second code point on. -/
private theorem Legible.tail (legible : Legible (c :: t)) : t.Legible := by
  obtain ⟨bytes, -, same⟩ := Option.map_eq_some_iff.mp legible
  cases bytes with
  | nil => cases same
  | cons b bytes =>
    rw [decode, decodeFrom] at same
    cases found : sequence? b bytes with
    | none =>
      rw [found] at same
      obtain rfl : decode bytes = t := (List.cons.inj same).2
      exact legible_decode _
    | some sequence =>
      rw [found] at same
      obtain rfl : decodeFrom sequence.2 bytes = t := (List.cons.inj same).2
      rw [decodeFrom_eq_drop]
      exact legible_decode _

private theorem decode_ne_nil {bytes : Bytes} (some' : bytes ≠ []) : decode bytes ≠ [] := by
  intro none'
  have encoded := encode?_decode bytes
  rw [none'] at encoded
  exact some' (Option.some.inj encoded).symm

end Text

/-! ## What a reader delivers -/

variable {ρ : Type} {reader : Reader ρ} {settings : Settings} {root : Text}
  {good : Stored → Prop} {c : CodePoint}

/-- Every record of a batch that the reader deposits is of this kind. -/
def Reader.Delivers (reader : Reader ρ) (good : Stored → Prop) : Prop :=
  ∀ call source batch fresh, (reader.read call source).1.result = .ok batch →
    fresh.length = batch.count →
    Row ((reader.read call source).1.into call.buffer call.offset) call.offset fresh →
    ∀ record ∈ fresh, good record

/-- A reader of a listing delivers the records of its entries. -/
private theorem Reader.delivers_ofListing {listing : List Entry}
    (storable : ∀ entry ∈ listing, entry.Storable) (all : ∀ entry ∈ listing, good entry.stored) :
    (Reader.ofListing listing).Delivers good := by
  intro call source batch fresh result number row record member
  obtain ⟨entry, listed, -, rfl⟩ := call.exists_of_fill
    (fun entry listed => (storable entry listed).ended) result number row record member
  exact all entry listed

private theorem Reader.Delivers.of_exchange (delivers : reader.Delivers good) {exchange : Exchange}
    (genuine : exchange.IsFrom reader) {record : Stored} (found : exchange.Delivers record) :
    good record := by
  obtain ⟨source, answer⟩ := genuine
  obtain ⟨batch, fresh, result, number, row, member⟩ := found
  rw [answer] at result
  rw [Exchange.buffer, answer] at row
  exact delivers _ source batch fresh result number row record member

/-- The record of an object that is shown is of some kind, and so are those of the directories that
lead to it. -/
structure Sighting.Consists (good : Stored → Prop) (sighting : Sighting) : Prop where
  record : good sighting.record
  names : ∀ name ∈ sighting.names, ∃ record, good record ∧ name = Text.decode record.name

/-- What a reader delivers is what its walks show, and what they go through. -/
private theorem Course.consists {calls : List Call} {stages : List Stage} {sighting : Sighting}
    (course : Course reader settings root calls stages (some sighting))
    (delivers : reader.Delivers good) : sighting.Consists good := by
  have kept : ∀ {names record}, ReadIn settings root (Call.account calls) names record →
      good record := by
    rintro names record ⟨exchange, member, -, found⟩
    exact delivers.of_exchange (course.keeps exchange member).1 found
  have read := course.origins.2 sighting rfl
  refine ⟨kept read.record, fun name member => ?_⟩
  obtain ⟨trail, record, known, same⟩ := read.reached.exists_record name member
  exact ⟨record, kept known, same⟩

/-! ## Paths -/

namespace Settings

variable {names : List Text}

/-- The path of a directory: the names that lead to it, behind the root unless that is empty. -/
private theorem pathOf_eq (root : Text) (deep : names ≠ []) (filled : ∀ name ∈ names, name ≠ []) :
    settings.pathOf root names =
      (if root = [] then [] else root ++ settings.separator) ++
        List.intercalate settings.separator names := by
  by_cases rooted : root = []
  · subst rooted
    rw [if_pos rfl, List.nil_append]
    induction names using List.reverseRecOn with
    | nil => exact absurd rfl deep
    | append_singleton names name ih =>
      rw [pathOf_concat]
      by_cases first : names = []
      · rw [first, List.nil_append, List.intercalate_singleton]
        rfl
      · have filled' : ∀ name ∈ names, name ≠ [] :=
          fun name member => filled name (List.mem_append_left _ member)
        have long := Text.intercalate_ne_nil settings.separator first filled'
        rw [ih first filled', Text.intercalate_concat _ first, child, if_neg (by simpa using long)]
  · rw [if_neg rooted, pathOf, foldl_child settings rooted deep, List.append_assoc]

theorem legible_pathOf (separator : settings.separator = [c]) (ascii : c.val < 0x80)
    (legible : root.Legible) (names' : ∀ name ∈ names, name.Legible) :
    (settings.pathOf root names).Legible := by
  induction names using List.reverseRecOn with
  | nil => exact legible
  | append_singleton names name ih =>
    have last := names' name (List.mem_append_right _ (List.mem_singleton_self name))
    have front := ih fun name member => names' name (List.mem_append_left _ member)
    rw [pathOf_concat, child, separator]
    split
    · exact last
    · exact front.append_ascii ascii last

end Settings

/-! ## Names -/

namespace Walk

variable {walk : Walk} {kind : NameKind} {shown : Position} {skip : Nat}

/-- The walk tells a name of its object, and how long the name is as it is stored. -/
structure Tells (walk : Walk) (kind : NameKind) (name : Text) : Prop where
  told : walk.name kind = .ok name
  length : ∃ stored, Text.encode? name = some stored ∧
    ∀ buffer size room, copyRoom buffer size = .ok room →
      ∃ copied, walk.copyName kind buffer size = .ok (stored.length, copied)

private theorem tells_of_storedName {bytes : Bytes} (stored : walk.storedName kind = .ok bytes) :
    walk.Tells kind (Text.decode bytes) := by
  refine ⟨?_, bytes, Text.encode?_decode bytes, ?_⟩
  · rw [name, stored]
    rfl
  · intro buffer size room fits
    refine ⟨buffer.map fun buffer => copyInto buffer room bytes, ?_⟩
    rw [copyName, fits, stored]
    rfl

theorem tells_of_not_lt (position : walk.position = .ok (some shown))
    (skips : walk.omitted kind = some skip) (shallow : ¬ skip < shown.directory.length) :
    walk.Tells kind (Text.decode shown.storedName) :=
  tells_of_storedName (storedName_of_not_lt position skips shallow)

theorem tells_of_lt (position : walk.position = .ok (some shown))
    (skips : walk.omitted kind = some skip) (deep : skip < shown.directory.length)
    (separator : walk.settings.separator = [c]) (ascii : c.val < 0x80)
    (legible : Text.Legible (shown.directory.drop skip)) :
    walk.Tells kind (shown.directory.drop skip ++ c :: Text.decode shown.storedName) := by
  obtain ⟨front, encoded, same⟩ := Option.map_eq_some_iff.mp legible
  obtain ⟨cut, joined⟩ := Text.decode_encode_append ascii encoded same shown.storedName
  rw [← separator] at cut
  have told := tells_of_storedName (storedName_of_lt position skips deep cut)
  rwa [joined] at told

theorem tells_leaf (position : walk.position = .ok (some shown)) :
    walk.Tells .leaf (Text.decode shown.storedName) := by
  refine tells_of_storedName ?_
  rw [storedName, position]
  rfl

private theorem tells_of_none (position : walk.position = .ok none) (kind : NameKind) :
    walk.Tells kind [] := by
  have stored : walk.storedName kind = .ok [] := by
    rw [storedName, position]
    rfl
  exact tells_of_storedName stored

/-- An object of one of the three kinds is told as such. -/
private theorem information_of_kind (position : walk.position = .ok (some shown))
    (kind : shown.header.objectType.val ∈ [1, 2, 3]) :
    ∃ told objectType, walk.information = .ok (some told, .ok objectType) ∧
      objectType ≠ .notFound := by
  have typed : ∀ n ∈ [1, 2, 3], ∃ objectType, ObjectType.ofCode? n = some objectType ∧
      objectType ≠ .notFound := by decide
  obtain ⟨objectType, found, other⟩ := typed _ kind
  refine ⟨shown.information, objectType, ?_, other⟩
  rw [information, position]
  change Except.ok (some shown.information, shown.objectType) = _
  rw [Position.objectType, found]

section
variable {sighting : Sighting} (same : walk.settings = settings)
  (separator : settings.separator = [c]) (ascii : c.val < 0x80)
  (filled : ∀ name ∈ sighting.names, name ≠ [])
  (read : ∀ name ∈ sighting.names, name.Legible)
  (position : walk.position = .ok (some (sighting.position settings root)))
include same separator ascii filled read position

/-- The whole path begins with the root, unless that is empty. -/
private theorem tells_path (legible : root.Legible) :
    let way := List.intercalate [c] (sighting.names ++ [Text.decode sighting.record.name])
    walk.Tells .path (if root = [] then way else root ++ c :: way) := by
  intro way
  have separates : walk.settings.separator = [c] := same ▸ separator
  have front := settings.legible_pathOf separator ascii legible read
  by_cases first : sighting.names = []
  · have directory : (sighting.position settings root).directory = root := by
      rw [Sighting.position, first]
      rfl
    have single : way = Text.decode sighting.record.name := by
      simp only [way, first, List.nil_append, List.intercalate_singleton]
    by_cases rooted : root = []
    · rw [if_pos rooted, single]
      have shallow : ¬ 0 < (sighting.position settings root).directory.length := by
        rw [directory, rooted]
        exact Nat.lt_irrefl 0
      have told : walk.Tells .path _ := tells_of_not_lt position rfl shallow
      exact told
    · rw [if_neg rooted, single]
      have deep : 0 < (sighting.position settings root).directory.length := by
        rw [directory]
        exact List.length_pos_iff.mpr rooted
      have told : walk.Tells .path _ := tells_of_lt position rfl deep separates ascii front
      rwa [List.drop_zero, directory] at told
  · have directory : (sighting.position settings root).directory =
        (if root = [] then [] else root ++ [c]) ++ List.intercalate [c] sighting.names :=
      separator ▸ settings.pathOf_eq _ first filled
    have deep : 0 < (sighting.position settings root).directory.length := by
      rw [directory, List.length_append]
      have := List.length_pos_iff.mpr (Text.intercalate_ne_nil [c] first filled)
      omega
    have told : walk.Tells .path _ := tells_of_lt position rfl deep separates ascii front
    have joined : way = List.intercalate [c] sighting.names ++
        ([c] ++ Text.decode sighting.record.name) := Text.intercalate_concat [c] first _
    rw [List.drop_zero, directory] at told
    rw [joined]
    split at told
    · rwa [if_pos ‹root = []›]
    · rw [if_neg ‹¬ root = []›]
      rwa [List.append_assoc, List.append_assoc] at told

/-- Below a root that is not empty, the path is the way from it to the object. -/
private theorem tells_subPath (rooted : root ≠ []) (rootLength : walk.rootLength = root.length) :
    walk.Tells .subPath
      (List.intercalate [c] (sighting.names ++ [Text.decode sighting.record.name])) := by
  have separates : walk.settings.separator = [c] := same ▸ separator
  have skips : walk.omitted .subPath = some (root.length + 1) := by rw [omitted, rootLength]
  by_cases first : sighting.names = []
  · have shallow : ¬ root.length + 1 < (sighting.position settings root).directory.length := by
      have directory : (sighting.position settings root).directory = root := by
        rw [Sighting.position, first]
        rfl
      rw [directory]
      omega
    rw [first, List.nil_append, List.intercalate_singleton]
    exact tells_of_not_lt position skips shallow
  · have below : settings.pathOf [] sighting.names = List.intercalate [c] sighting.names :=
      separator ▸ settings.pathOf_eq _ first filled
    have directory : (sighting.position settings root).directory =
        (root ++ [c]) ++ List.intercalate [c] sighting.names := by
      have whole := settings.pathOf_eq root first filled
      rw [if_neg rooted, separator] at whole
      exact whole
    have rest : (sighting.position settings root).directory.drop (root.length + 1) =
        List.intercalate [c] sighting.names := by
      rw [directory]
      exact List.drop_left' (List.length_append.trans rfl)
    have deep : root.length + 1 < (sighting.position settings root).directory.length := by
      rw [directory, List.length_append, List.length_append, List.length_singleton]
      have := List.length_pos_iff.mpr (Text.intercalate_ne_nil [c] first filled)
      omega
    have legible : Text.Legible (List.intercalate [c] sighting.names) :=
      below ▸ settings.legible_pathOf separator ascii rfl read
    rw [Text.intercalate_concat [c] first, ← rest]
    exact tells_of_lt position skips deep separates ascii (rest ▸ legible)

/-- Below the empty root, the path is what is left of the way to the object without its first code
point, or the object's own name where no more than that leads to it. -/
private theorem tells_subPath_of_nil (rooted : root = [])
    (rootLength : walk.rootLength = root.length) :
    let leaf := Text.decode sighting.record.name
    walk.Tells .subPath
      (if (List.intercalate [c] sighting.names).length ≤ 1 then leaf
      else (List.intercalate [c] (sighting.names ++ [leaf])).drop 1) := by
  intro leaf
  have separates : walk.settings.separator = [c] := same ▸ separator
  have skips : walk.omitted .subPath = some 1 := by rw [omitted, rootLength, rooted]; rfl
  have directory : (sighting.position settings root).directory =
      List.intercalate [c] sighting.names := by
    by_cases first : sighting.names = []
    · rw [Sighting.position, first, rooted]
      rfl
    · have whole := settings.pathOf_eq root first filled
      rwa [if_pos rooted, List.nil_append, separator] at whole
  split
  next short =>
    rw [← directory] at short
    exact tells_of_not_lt position skips (Nat.not_lt.mpr short)
  next long =>
    rw [← directory] at long
    have deep := Nat.lt_of_not_le long
    have first : sighting.names ≠ [] := by
      intro first
      rw [directory, first] at deep
      exact absurd deep (Nat.not_lt_zero 1)
    have front : Text.Legible (sighting.position settings root).directory :=
      settings.legible_pathOf separator ascii (rooted ▸ rfl) read
    have rest : Text.Legible ((sighting.position settings root).directory.drop 1) := by
      rcases cut : (sighting.position settings root).directory with _ | ⟨head, tail⟩
      · rfl
      · rw [cut] at front
        exact front.tail
    rw [Text.intercalate_concat [c] first, ← directory,
      List.drop_append_of_le_length (Nat.le_of_lt deep)]
    exact tells_of_lt position skips deep separates ascii rest

end

/-- A walk that shows nothing tells nothing. A walk that shows an object tells the names that have
led to it, with separators between them, and the root in front of them unless that is empty. Below
the empty root it leaves out the first code point of the way once it has entered a directory. -/
theorem tells_of_recorded (reader : Reader ρ) (plan : Plan) (walk : Walk) (calls : List Call)
    (c : CodePoint) (separator : reader.separator = [c]) (ascii : c.val < 0x80)
    (delivers : reader.Delivers fun record =>
      record.name ≠ [] ∧ record.header.objectType.val ∈ [1, 2, 3])
    (legible : plan.path.Legible) (recorded : Recorded reader plan (some walk) calls) :
    ∃ settings stages shown, Course reader settings plan.path calls stages shown ∧
      walk.Tracks settings plan.path stages shown ∧
      (shown = none → walk.isEmpty = true ∧ (∀ kind, walk.Tells kind []) ∧
        walk.information = .ok (none, .ok .notFound)) ∧
      ∀ sighting, shown = some sighting →
        let leaf := Text.decode sighting.record.name
        let way := List.intercalate [c] (sighting.names ++ [leaf])
        walk.isEmpty = false ∧
        (∃ told objectType, walk.information = .ok (some told, .ok objectType) ∧
          objectType ≠ .notFound) ∧
        walk.Tells .leaf leaf ∧
        walk.Tells .path (if plan.path = [] then way else plan.path ++ c :: way) ∧
        walk.Tells .subPath
          (if plan.path ≠ [] then way
          else if (List.intercalate [c] sighting.names).length ≤ 1 then leaf
          else way.drop 1) := by
  obtain ⟨never, -⟩ | ⟨settings, stages, shown, planned, course, tracks⟩ := recorded.tracks
  · cases never
  have tracks := tracks walk rfl
  obtain ⟨opened, same, sound, follow, position⟩ := tracks
  have separated : settings.separator = [c] := (Plan.separator_of_settings? planned).trans separator
  refine ⟨settings, stages, shown, course, ⟨opened, same, sound, follow, position⟩, ?_, ?_⟩
  · rintro rfl
    refine ⟨?_, tells_of_none position, ?_⟩
    · refine eq_true_of_ne_false fun shows => ?_
      obtain ⟨other, shown⟩ := sound.exists_shown shows
      rw [position] at shown
      cases shown
    · rw [information, position]
      rfl
  · rintro ⟨names, record⟩ rfl leaf way
    change walk.position = .ok (some ⟨settings.pathOf plan.path names, record.name, record.header⟩)
      at position
    obtain ⟨⟨some', kind⟩, entered⟩ := course.consists delivers
    have filled : ∀ name ∈ names, name ≠ [] := by
      intro name member
      obtain ⟨record, good, rfl⟩ := entered name member
      exact Text.decode_ne_nil good.1
    have read : ∀ name ∈ names, name.Legible := by
      intro name member
      obtain ⟨record, -, rfl⟩ := entered name member
      exact Text.legible_decode _
    have rootLength : walk.rootLength = plan.path.length := sound.rootLength
    refine ⟨?_, information_of_kind position kind, tells_leaf position,
      tells_path same separated ascii filled read position legible, ?_⟩
    · refine eq_false_of_ne_true fun ended => ?_
      obtain ⟨unheld, levels⟩ := Bool.and_eq_true_iff.mp ended
      rw [Walk.position, Option.isNone_iff_eq_none.mp unheld,
        livePosition_of_nil (List.isEmpty_iff.mp levels)] at position
      cases position
    · by_cases rooted : plan.path = []
      · rw [if_neg (not_not_intro rooted)]
        exact tells_subPath_of_nil same separated ascii filled read position rooted rootLength
      · rw [if_pos rooted]
        exact tells_subPath same separated ascii filled read position rooted rootLength

/-- Where every directory has one of the name `abc` in it, a walk enters the first of them. -/
theorem tells_of_recorded_inside_directory :
    let reader := Reader.ofListing [⟨[0x61, 0x62, 0x63], 2, 0, 0, 0, 0⟩]
    let plan : Plan := ⟨[0x41], 1, none, 24, 1⟩
    let record : Bytes := Bytes.zeros 16 ++ [2, 0, 0, 0, 0x61, 0x62, 0x63, 0]
    let outside : Walk := ⟨⟨true, false, none, 24, 1, [0x2F]⟩, ⟨[0x41], [], 64⟩, 1,
      [⟨1, record, -1, some ⟨0, 3, 0⟩⟩], none, false⟩
    let inside : Walk := { outside with
      path := ⟨[0x41, 0x2F, 0x61, 0x62, 0x63], [0x41], 64⟩
      levels := [⟨5, record, -1, some ⟨0, 3, 0⟩⟩, ⟨1, record, -1, none⟩] }
    (∃ calls, Recorded reader plan (some inside) calls) ∧ inside.isEmpty = false ∧
      inside.Tells .leaf [0x61, 0x62, 0x63] ∧
      inside.Tells .path [0x41, 0x2F, 0x61, 0x62, 0x63, 0x2F, 0x61, 0x62, 0x63] ∧
      inside.Tells .subPath [0x61, 0x62, 0x63, 0x2F, 0x61, 0x62, 0x63] := by
  intro reader plan record outside inside
  let exchange (path : Text) : Exchange :=
    ⟨⟨path, Bytes.zeros 24, 0, 0, 1, none⟩, ⟨record, .ok ⟨1, -1⟩⟩⟩
  have started : start reader.logged 5 plan ⟨⟨none, 0, 0, none⟩, (), []⟩ =
      .ok outside ⟨⟨none, 120, 2, none⟩, (), [exchange [0x41]]⟩ := by decide +kernel
  have advanced : advance reader.logged 5 (outside, ⟨⟨none, 120, 2, none⟩, (), []⟩) =
      .ok () (inside, ⟨⟨none, 176, 3, none⟩, (),
        [exchange [0x41, 0x2F, 0x61, 0x62, 0x63]]⟩) := by decide +kernel
  have recorded : ∃ calls, Recorded reader plan (some inside) calls :=
    ⟨_, .advance (.start rfl started) rfl advanced⟩
  have delivers : reader.Delivers fun record =>
      record.name ≠ [] ∧ record.header.objectType.val ∈ [1, 2, 3] := by
    refine Reader.delivers_ofListing (List.forall_mem_singleton.mpr ?_)
      (List.forall_mem_singleton.mpr (by decide))
    exact ⟨by decide, by decide, by decide, by decide⟩
  obtain ⟨calls, run⟩ := recorded
  obtain ⟨settings, stages, shown, -, tracks, none', some'⟩ :=
    tells_of_recorded reader plan inside calls 0x2F rfl (by decide) delivers (by decide) run
  obtain _ | sighting := shown
  · exact absurd (none' rfl).1 (by decide)
  obtain ⟨shows, -, leaf, path, subPath⟩ := some' sighting rfl
  have name : ([0x61, 0x62, 0x63] : Bytes) = sighting.record.name :=
    congrArg Position.storedName (Option.some.inj (Except.ok.inj tracks.position))
  have whole : inside.name .path =
      .ok [0x41, 0x2F, 0x61, 0x62, 0x63, 0x2F, 0x61, 0x62, 0x63] := by decide +kernel
  have way := Except.ok.inj (path.told.symm.trans whole)
  rw [way] at path
  rw [if_neg (by decide : plan.path ≠ [])] at way
  rw [if_pos (by decide : plan.path ≠ []), (List.cons.inj (List.cons.inj way).2).2] at subPath
  rw [← name] at leaf
  exact ⟨⟨calls, run⟩, shows, leaf, path, subPath⟩

/-- Inside a directory below the empty root, the path below the root is not the whole path. -/
theorem subPath_of_empty_root :
    let reader := Reader.ofListing [⟨[0x61, 0x62, 0x63], 2, 0, 0, 0, 0⟩]
    let record : Bytes := Bytes.zeros 16 ++ [2, 0, 0, 0, 0x61, 0x62, 0x63, 0]
    let outside : Walk := ⟨⟨true, false, none, 24, 1, [0x2F]⟩, ⟨[], [], 64⟩, 0,
      [⟨0, record, -1, some ⟨0, 3, 0⟩⟩], none, false⟩
    let inside : Walk := { outside with
      path := ⟨[0x61, 0x62, 0x63], [], 64⟩
      levels := [⟨3, record, -1, some ⟨0, 3, 0⟩⟩, ⟨0, record, -1, none⟩] }
    (∃ calls, Recorded reader ⟨[], 1, none, 24, 1⟩ (some inside) calls) ∧
      inside.name .leaf = .ok [0x61, 0x62, 0x63] ∧
      inside.name .path = .ok [0x61, 0x62, 0x63, 0x2F, 0x61, 0x62, 0x63] ∧
      inside.name .subPath = .ok [0x62, 0x63, 0x2F, 0x61, 0x62, 0x63] := by
  intro reader record outside inside
  let exchange (path : Text) : Exchange :=
    ⟨⟨path, Bytes.zeros 24, 0, 0, 1, none⟩, ⟨record, .ok ⟨1, -1⟩⟩⟩
  have started : start reader.logged 5 ⟨[], 1, none, 24, 1⟩ ⟨⟨none, 0, 0, none⟩, (), []⟩ =
      .ok outside ⟨⟨none, 120, 2, none⟩, (), [exchange []]⟩ := by decide +kernel
  have advanced : advance reader.logged 5 (outside, ⟨⟨none, 120, 2, none⟩, (), []⟩) =
      .ok () (inside, ⟨⟨none, 176, 3, none⟩, (), [exchange [0x61, 0x62, 0x63]]⟩) := by
    decide +kernel
  exact ⟨⟨_, .advance (.start rfl started) rfl advanced⟩, by decide +kernel, by decide +kernel,
    by decide +kernel⟩

end Walk

end Catwalk
