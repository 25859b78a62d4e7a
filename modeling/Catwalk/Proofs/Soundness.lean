import Catwalk.Proofs.Steps

/-!
# Steps keep walks sound

Whether a step succeeds or fails, a sound walk stays sound (`Stepped.sound`, `Stayed.sound`), and
one that fails leaves the object that the walk stands on (`Stayed.livePosition`).
-/

namespace Catwalk

variable {ρ : Type} {terms : Terms ρ} {reader : Reader ρ} {ask : Level → Request} {rootLength : Nat}

private theorem LevelStack.Tried.sound {levels tried : LevelStack}
    (attempts : LevelStack.Tried terms reader ask levels tried) (sound : levels.Sound rootLength) :
    tried.Sound rootLength ∧ tried.ground rootLength = levels.ground rootLength := by
  induction attempts with
  | nil => exact ⟨sound, rfl⟩
  | @cons level left levels tried attempt attempts ih =>
    obtain ⟨⟨kept, holds⟩, higher, single, tail⟩ := LevelStack.sound_cons_iff.mp sound
    obtain ⟨pathLength, fresh, holds'⟩ := attempt.holds holds
    obtain ⟨rest, ground⟩ := ih tail
    refine ⟨LevelStack.sound_cons_iff.mpr ⟨⟨_, holds'⟩, ?_, ?_, rest⟩, pathLength⟩
    · rw [ground, pathLength]
      exact higher
    · rintro rfl
      cases attempts
      exact pathLength.trans (single rfl)

/-- A walk that goes up lands on sound levels, at or above where it began, with a record to stand
on. -/
private theorem Landing.sound {levels landed : LevelStack}
    (landing : Landing terms reader ask levels landed) (sound : levels.Sound rootLength) :
    landed.Sound rootLength ∧ landed.ground rootLength ≤ levels.ground rootLength ∧
      ∀ level, landed.head? = some level → 0 < level.remaining := by
  induction landing with
  | nowhere =>
    refine ⟨sound, Nat.le_refl _, ?_⟩
    intro level found
    cases found
  | here attempt left =>
    obtain ⟨⟨kept, holds⟩, -, -, -⟩ := LevelStack.sound_cons_iff.mp sound
    obtain ⟨pathLength, fresh, holds'⟩ := attempt.holds holds
    refine ⟨sound.replace ⟨_, holds'⟩ pathLength, Nat.le_of_eq pathLength, ?_⟩
    rintro level ⟨⟩
    exact left
  | past attempt none' ended landing ih =>
    obtain ⟨-, higher, -, tail⟩ := LevelStack.sound_cons_iff.mp sound
    obtain ⟨sound', lower, standing⟩ := ih tail
    exact ⟨sound', Nat.le_trans lower higher, standing⟩

namespace Walk

variable {root : Text} {before after : Walk}

/-- Going up leaves the directories on the way where they are. -/
theorem Sound.take_ground {walk : Walk} (sound : walk.Sound root) {level : Level}
    {shallower landed : LevelStack} (levels : walk.levels = level :: shallower)
    (landing : Landing terms reader ask shallower landed) {other : Level}
    (member : other ∈ landed) :
    (walk.path.text.take (landed.ground walk.rootLength)).take other.pathLength =
      walk.path.text.take other.pathLength := by
  obtain ⟨stack, -, -⟩ := landing.sound (levels ▸ sound.stack).tail
  rw [sound.rootLength, List.take_take, Nat.min_eq_left (stack.pathLength_le other member)]

/-- A walk on sound levels whose path is the deepest directory's. -/
theorem sound_of_ground {walk : Walk} (rootLength : walk.rootLength = root.length)
    (below : root <+: walk.path.text) (fits : walk.path.text.length < walk.path.capacity)
    (stack : walk.levels.Sound root.length)
    (ground : walk.path.text.length = walk.levels.ground root.length)
    (standing : ∀ level, walk.levels.head? = some level → 0 < level.remaining) :
    walk.Sound root := by
  refine ⟨rootLength, below, fits, stack, ?_, ?_⟩
  · intro level found
    refine ⟨standing level found, ?_⟩
    cases levels : walk.levels with
    | nil => rw [levels] at found; cases found
    | cons top shallower =>
      rw [levels] at found ground
      cases found
      exact ground.symm
  · intro none'
    rw [none'] at ground
    exact (below.eq_of_length ground.symm).symm

/-- A step that fails leaves the record that the walk stands on, if there is one. -/
theorem Stayed.standing (stayed : before.Stayed terms reader after) (sound : before.Sound root) :
    (before.levels = [] ∧ after.levels = []) ∨
      ∃ level shallower tried left record records later,
        before.levels = level :: shallower ∧ after.levels = tried :: left ∧
          tried.pathLength = level.pathLength ∧ level.Holds (record :: records) ∧
            tried.Holds (record :: later) := by
  have attempts := stayed.levels
  cases levels : before.levels with
  | nil =>
    rw [levels] at attempts
    exact .inl ⟨rfl, List.forall₂_nil_left_iff.mp attempts⟩
  | cons level shallower =>
    obtain ⟨record, records, holds⟩ := sound.exists_record levels
    rw [levels] at attempts
    obtain ⟨tried, left, attempt, -, levels'⟩ := List.forall₂_cons_left_iff.mp attempts
    obtain ⟨pathLength, fresh, holds'⟩ := attempt.holds holds
    exact .inr ⟨level, shallower, tried, left, record, records, records ++ fresh, rfl, levels',
      pathLength, holds, holds'⟩

theorem Stayed.sound (stayed : before.Stayed terms reader after) (sound : before.Sound root) :
    after.Sound root := by
  obtain ⟨stack, ground⟩ := stayed.levels.sound sound.stack
  have text := stayed.text
  refine sound_of_ground (stayed.same.rootLength.trans sound.rootLength) (text ▸ sound.below)
    ?_ stack ?_ ?_
  · rw [text]
    exact Nat.lt_of_lt_of_le sound.fits stayed.same.capacity
  · rw [text, ground, sound.ground]
  · intro level found
    rcases stayed.standing sound with
      ⟨-, none'⟩ | ⟨-, -, tried, left, record, -, later, -, levels, -, -, holds⟩
    · rw [none'] at found
      cases found
    · rw [levels] at found
      cases found
      rw [holds.remaining]
      exact Nat.succ_pos _

/-- A step that fails leaves the walk on the object that it stands on. -/
theorem Stayed.livePosition (stayed : before.Stayed terms reader after)
    (sound : before.Sound root) : after.livePosition = before.livePosition := by
  rcases stayed.standing sound with
    ⟨none', left⟩ | ⟨level, shallower, tried, left, record, records, later, levels, levels',
      pathLength, holds, holds'⟩
  · rw [livePosition_of_nil none', livePosition_of_nil left]
  · rw [livePosition_of_holds levels holds, livePosition_of_holds levels' holds', stayed.text,
      pathLength]

theorem Stayed.depth (stayed : before.Stayed terms reader after) : after.depth = before.depth :=
  stayed.levels.length_eq.symm

theorem Stepped.sound (stepped : before.Stepped terms reader after) (same : before.Same after)
    (sound : before.Sound root) : after.Sound root := by
  have rootLength := same.rootLength.trans sound.rootLength
  cases stepped with
  | @entered level inner shallower record records current levels holds enters text fits run left
      holds' levels' =>
    have grown := before.settings.prefix_child before.path.text (Text.decode record.name)
    have stack := (levels ▸ sound.stack).replace ⟨_, holds'⟩ rfl
    obtain ⟨pathLength, fresh, holds''⟩ := run.tried.holds (Level.fresh_holds _ _)
    have deep : inner.pathLength = after.path.text.length := by
      rw [pathLength, text]
      rfl
    have level' := sound.pathLength_top levels
    refine sound_of_ground rootLength ?_ fits ?_ ?_ ?_
    · rw [text]
      exact sound.below.trans grown
    · rw [levels']
      refine LevelStack.sound_cons_iff.mpr ⟨⟨_, holds''⟩, ?_, fun none' => (by cases none'), stack⟩
      rw [deep, text, LevelStack.ground, level']
      exact grown.length_le
    · rw [levels']
      exact deep.symm
    · intro found is
      rw [levels'] at is
      cases is
      exact left
  | @moved level filled shallower record next records later current levels holds declines attempt
      holds' holds'' text levels' =>
    obtain ⟨pathLength, -⟩ := attempt.holds holds
    have ground := sound.ground
    rw [levels] at ground
    refine sound_of_ground rootLength (text ▸ sound.below) ?_ ?_ ?_ ?_
    · rw [text]
      exact Nat.lt_of_lt_of_le sound.fits same.capacity
    · rw [levels']
      exact (levels ▸ sound.stack).replace ⟨_, holds''⟩ pathLength
    · rw [levels', text, ← ground]
      exact pathLength.symm
    · intro found is
      rw [levels'] at is
      cases is
      rw [holds''.remaining]
      exact Nat.succ_pos _
  | @climbed level filled shallower record levels holds declines attempt holds' ended landing
      text =>
    obtain ⟨-, higher, -, tail⟩ := LevelStack.sound_cons_iff.mp (levels ▸ sound.stack)
    obtain ⟨stack, lower, standing⟩ := landing.sound tail
    have ground := sound.ground
    rw [levels, LevelStack.ground] at ground
    rw [sound.rootLength] at text
    have length : after.path.text.length = after.levels.ground root.length := by
      rw [text, List.length_take]
      omega
    refine sound_of_ground rootLength ?_ ?_ stack length standing
    · rw [text]
      exact List.prefix_take_iff.mpr ⟨sound.below, stack.rootLength_le⟩
    · have fits := sound.fits
      have capacity := same.capacity
      omega

end Walk

end Catwalk
