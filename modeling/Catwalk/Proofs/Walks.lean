import Catwalk.Proofs.Refills
import Catwalk.Walk.Show

/-!
# Sound walks

The invariant of a walk between calls. Every level holds the records from its current one on, the
deepest level has one, and the path of the walk is the path of the deepest directory: it starts with
the root, the path lengths of the levels grow from the root's to its own, and it fits its capacity.
A sound walk answers every question about what it shows.
-/

namespace Catwalk

namespace Settings

/-- The path of what lies below a directory under a name. -/
def child (settings : Settings) (path name : Text) : Text :=
  if path.isEmpty then name else path ++ (settings.separator ++ name)

/-- What reading the directory of a level asks for, on a way with the given path. -/
def requestAt (settings : Settings) (path : Text) (level : Level) : Request :=
  settings.request (path.take level.pathLength)

theorem prefix_child (settings : Settings) (path name : Text) :
    path <+: settings.child path name := by
  unfold child
  by_cases empty : path.isEmpty = true
  · rw [if_pos empty, List.isEmpty_iff.mp empty]
    exact List.nil_prefix
  · rw [if_neg empty]
    exact List.prefix_append _ _

end Settings

namespace LevelStack

/-- The length of the path to the deepest directory, which without levels is the root. -/
def ground (rootLength : Nat) : LevelStack → Nat
  | level :: _ => level.pathLength
  | [] => rootLength

/-- Levels that hold records, with paths that grow from the root's. -/
structure Sound (rootLength : Nat) (levels : LevelStack) : Prop where
  holds : ∀ level ∈ levels, ∃ records, level.Holds records
  deeper : levels.Pairwise fun deeper shallower => shallower.pathLength ≤ deeper.pathLength
  bottom : ∀ level, levels.getLast? = some level → level.pathLength = rootLength

variable {rootLength : Nat} {level : Level} {levels : LevelStack}

theorem sound_nil : Sound rootLength [] := by
  refine ⟨?_, List.Pairwise.nil, ?_⟩
  · intro level member
    cases member
  · intro level last
    cases last

theorem sound_cons_iff : Sound rootLength (level :: levels) ↔
    (∃ records, level.Holds records) ∧ ground rootLength levels ≤ level.pathLength ∧
      (levels = [] → level.pathLength = rootLength) ∧ Sound rootLength levels := by
  constructor
  · rintro ⟨holds, deeper, bottom⟩
    have tail : Sound rootLength levels := by
      refine ⟨fun level member => holds level (List.mem_cons_of_mem _ member),
        (List.pairwise_cons.mp deeper).2, fun last found => bottom last ?_⟩
      rw [List.getLast?_cons, found]
      rfl
    refine ⟨holds level List.mem_cons_self, ?_, ?_, tail⟩
    · cases levels with
      | nil => exact Nat.le_of_eq (bottom level rfl).symm
      | cons next rest => exact (List.pairwise_cons.mp deeper).1 next List.mem_cons_self
    · rintro rfl
      exact bottom level rfl
  · rintro ⟨holds, higher, single, tail⟩
    refine ⟨?_, List.pairwise_cons.mpr ⟨?_, tail.deeper⟩, ?_⟩
    · intro other member
      rcases List.mem_cons.mp member with rfl | member
      · exact holds
      · exact tail.holds other member
    · intro other member
      cases levels with
      | nil => cases member
      | cons next rest =>
        rcases List.mem_cons.mp member with rfl | member
        · exact higher
        · exact Nat.le_trans ((List.pairwise_cons.mp tail.deeper).1 other member) higher
    · intro last found
      cases levels with
      | nil =>
        cases found
        exact single rfl
      | cons next rest =>
        rw [List.getLast?_cons_cons] at found
        exact tail.bottom last found

theorem Sound.tail (sound : Sound rootLength (level :: levels)) : Sound rootLength levels :=
  (sound_cons_iff.mp sound).2.2.2

theorem Sound.rootLength_le (sound : Sound rootLength levels) :
    rootLength ≤ ground rootLength levels := by
  induction levels with
  | nil => exact Nat.le_refl _
  | cons level levels ih =>
    obtain ⟨-, higher, -, tail⟩ := sound_cons_iff.mp sound
    exact Nat.le_trans (ih tail) higher

theorem Sound.pathLength_le (sound : Sound rootLength levels) :
    ∀ level ∈ levels, level.pathLength ≤ ground rootLength levels := by
  induction levels with
  | nil =>
    intro level member
    cases member
  | cons first levels ih =>
    obtain ⟨-, higher, -, tail⟩ := sound_cons_iff.mp sound
    intro level member
    rcases List.mem_cons.mp member with rfl | member
    · exact Nat.le_refl _
    · exact Nat.le_trans (ih tail level member) higher

/-- A level may give way to another one for the same directory. -/
theorem Sound.replace (sound : Sound rootLength (level :: levels)) {other : Level}
    (holds : ∃ records, other.Holds records) (same : other.pathLength = level.pathLength) :
    Sound rootLength (other :: levels) := by
  obtain ⟨-, higher, single, tail⟩ := sound_cons_iff.mp sound
  exact sound_cons_iff.mpr ⟨holds, same ▸ higher, fun none' => same.trans (single none'), tail⟩

end LevelStack

namespace Walk

/-- The invariant of a walk below a root. -/
structure Sound (root : Text) (walk : Walk) : Prop where
  rootLength : walk.rootLength = root.length
  below : root <+: walk.path.text
  fits : walk.path.text.length < walk.path.capacity
  stack : walk.levels.Sound root.length
  /-- The deepest level has a record left, and its directory is where the walk is. -/
  top : ∀ level, walk.levels.head? = some level →
    0 < level.remaining ∧ level.pathLength = walk.path.text.length
  drained : walk.levels = [] → walk.path.text = root

variable {root : Text} {walk : Walk}

namespace Sound

theorem ground (sound : walk.Sound root) :
    walk.levels.ground root.length = walk.path.text.length := by
  cases levels : walk.levels with
  | nil => rw [sound.drained levels, LevelStack.ground]
  | cons level shallower => exact (sound.top level (by rw [levels]; rfl)).2

private theorem pathLength_le (sound : walk.Sound root) :
    ∀ level ∈ walk.levels, level.pathLength ≤ walk.path.text.length := by
  rw [← sound.ground]
  exact sound.stack.pathLength_le

/-- The deepest directory is where the walk is. -/
theorem pathLength_top (sound : walk.Sound root) {level : Level} {shallower : LevelStack}
    (levels : walk.levels = level :: shallower) : level.pathLength = walk.path.text.length :=
  (sound.top level (by rw [levels]; rfl)).2

theorem take_top (sound : walk.Sound root) {level : Level} {shallower : LevelStack}
    (levels : walk.levels = level :: shallower) :
    walk.path.text.take level.pathLength = walk.path.text := by
  rw [sound.pathLength_top levels, List.take_length]

/-- Going further down leaves the directories on the way where they are. -/
theorem take_child (sound : walk.Sound root) (name : Text) {level : Level}
    (member : level ∈ walk.levels) :
    (walk.settings.child walk.path.text name).take level.pathLength =
      walk.path.text.take level.pathLength := by
  obtain ⟨tail, split⟩ := walk.settings.prefix_child walk.path.text name
  rw [← split, List.take_append_of_le_length (sound.pathLength_le level member)]

/-- A walk with levels stands on a record of the deepest one. -/
theorem exists_record (sound : walk.Sound root) {level : Level} {shallower : LevelStack}
    (levels : walk.levels = level :: shallower) :
    ∃ record records, level.Holds (record :: records) := by
  obtain ⟨records, holds⟩ := sound.stack.holds level (by rw [levels]; exact List.mem_cons_self)
  have left := (sound.top level (by rw [levels]; rfl)).1
  cases records with
  | nil =>
    rw [holds.remaining] at left
    exact absurd left (Nat.lt_irrefl 0)
  | cons record records => exact ⟨record, records, holds⟩

theorem rootPath (sound : walk.Sound root) (opened : walk.closed = false) :
    walk.rootPath = root := by
  rw [Walk.rootPath, opened, sound.rootLength]
  exact (List.prefix_iff_eq_take.mp sound.below).symm

end Sound

/-- What a walk shows when it stands on a record of its deepest level. -/
theorem livePosition_of_holds {level : Level} {shallower : LevelStack} {record : Stored}
    {records : List Stored} (levels : walk.levels = level :: shallower)
    (holds : level.Holds (record :: records)) :
    walk.livePosition = .ok (some
      { directory := walk.path.text.take level.pathLength
        storedName := record.name
        header := record.header }) := by
  simp only [livePosition, levels, holds.storedName, holds.header]
  rfl

theorem livePosition_of_nil (levels : walk.levels = []) : walk.livePosition = .ok none := by
  rw [livePosition, levels]

/-- A sound walk can tell what it shows. -/
theorem Sound.exists_position (sound : walk.Sound root) :
    ∃ position, walk.position = .ok position := by
  unfold position
  cases walk.held with
  | some held => exact ⟨some held, rfl⟩
  | none =>
    cases levels : walk.levels with
    | nil => exact ⟨none, livePosition_of_nil levels⟩
    | cons level shallower =>
      obtain ⟨record, records, holds⟩ := sound.exists_record levels
      exact ⟨_, livePosition_of_holds levels holds⟩

/-- A sound walk that is not empty shows an object. -/
theorem Sound.exists_shown (sound : walk.Sound root) (shows : walk.isEmpty = false) :
    ∃ shown, walk.position = .ok (some shown) := by
  unfold position
  unfold isEmpty at shows
  cases held : walk.held with
  | some shown => exact ⟨shown, rfl⟩
  | none =>
    cases levels : walk.levels with
    | nil =>
      rw [held, levels] at shows
      cases shows
    | cons level shallower =>
      obtain ⟨record, records, holds⟩ := sound.exists_record levels
      exact ⟨_, livePosition_of_holds levels holds⟩

end Walk

end Catwalk
