import Catwalk.Proofs.Atomicity
import Catwalk.Proofs.Pairs
import Catwalk.Proofs.Readings

/-!
# Walks that are alike

Two walks are alike if they differ in the room of their paths at most, and in what an undo of the
path would bring back. Alike walks that go through worlds which answer alike stay alike, whatever
their calls do (`step_pairs`, `advance_pairs`, `reset_pairs`): when memory has no end they end in
the same way, and otherwise they are alike as long as both succeed.
-/

namespace Catwalk

variable {ρ : Type} {rel : ρ → ρ → Prop} {calm : Prop} {reader : Reader ρ}
  {patience patience' : Nat}

/-- Sources that are related answer alike and stay related. -/
def Reader.Agrees (reader : Reader ρ) (rel : ρ → ρ → Prop) : Prop :=
  ∀ call s t, rel s t → (reader.read call t).1 = (reader.read call s).1 ∧
    rel (reader.read call s).2 (reader.read call t).2

/-- There is no end to the memory, and no refusal is pending. -/
structure Ledger.Endless (ledger : Ledger) : Prop where
  unlimited : ledger.limit = none
  unarmed : ledger.countdown = none

/-- In calm, two ledgers have memory without end. -/
def Ledger.Paired (calm : Prop) (left right : Ledger) : Prop :=
  calm → left.Endless ∧ right.Endless

/-- Worlds with related sources, and in calm with memory without end. -/
structure World.Alike (rel : ρ → ρ → Prop) (calm : Prop) (left right : World ρ) : Prop where
  source : rel left.source right.source
  ledgers : Ledger.Paired calm left.ledger right.ledger

/-! ## Ledgers -/

namespace Ledger

variable {left right : Ledger}

private theorem Endless.release (endless : left.Endless) (size : Int) :
    (left.release size).Endless := by
  rw [release_eq]
  exact ⟨endless.unlimited, endless.unarmed⟩

theorem Endless.releaseAll (endless : left.Endless) (levels : LevelStack) :
    (LevelStack.release levels left).Endless := by
  induction levels generalizing left with
  | nil => exact endless
  | cons level levels ih => exact ih (endless.release level.charge)

/-- Whatever the sizes, two reservations are granted in calm. -/
private theorem Paired.reserve (paired : Paired calm left right) (size size' : Int) :
    Act.Pairs calm (reserve size) (reserve size') left right
      (fun _ ledger _ ledger' => Paired calm ledger ledger') (Paired calm) := by
  by_cases still : calm
  · obtain ⟨endless, endless'⟩ := paired still
    obtain ⟨_, ledger, run, unlimited, unarmed⟩ :=
      (reserve_meets_unlimited size endless.unlimited endless.unarmed).exists_ok
    obtain ⟨_, ledger', run', unlimited', unarmed'⟩ :=
      (reserve_meets_unlimited size' endless'.unlimited endless'.unarmed).exists_ok
    exact Act.pairs_of_ok run run' fun _ => ⟨⟨unlimited, unarmed⟩, unlimited', unarmed'⟩
  · refine Act.pairs_of_not_calm still ?_
    intro _ _ _ _ _ _ still'
    exact absurd still' still

end Ledger

namespace World.Alike

variable {left right : World ρ} {α : Type}

theorem update (alike : left.Alike rel calm right) {change change' : Ledger → Ledger}
    (keeps : ∀ ledger : Ledger, ledger.Endless → (change ledger).Endless)
    (keeps' : ∀ ledger : Ledger, ledger.Endless → (change' ledger).Endless) :
    (left.updateLedger change).Alike rel calm (right.updateLedger change') := by
  refine ⟨alike.source, ?_⟩
  intro still
  obtain ⟨endless, endless'⟩ := alike.ledgers still
  exact ⟨keeps _ endless, keeps' _ endless'⟩

private theorem release (alike : left.Alike rel calm right) (size size' : Int) :
    (left.updateLedger (Ledger.release size)).Alike rel calm
      (right.updateLedger (Ledger.release size')) :=
  alike.update (fun _ endless => endless.release size) fun _ endless => endless.release size'

private theorem releaseAll (alike : left.Alike rel calm right) (levels levels' : LevelStack) :
    (left.updateLedger (LevelStack.release levels)).Alike rel calm
      (right.updateLedger (LevelStack.release levels')) :=
  alike.update (fun _ endless => endless.releaseAll levels) fun _ endless =>
    endless.releaseAll levels'

/-- Acts that are paired on ledgers are paired on worlds that are alike. -/
private theorem charging (alike : left.Alike rel calm right) {act act' : Act Ledger α}
    {done : α → α → Prop} (pairs : Act.Pairs calm act act' left.ledger right.ledger
      (fun a ledger b ledger' => done a b ∧ Ledger.Paired calm ledger ledger')
      (Ledger.Paired calm)) :
    Act.Pairs calm (World.charging act) (World.charging act') left right
      (fun a s b t => done a b ∧ s.Alike rel calm t) fun s t => s.Alike rel calm t := by
  apply Act.Pairs.within
  refine pairs.mono ?_ ?_
  · rintro a ledger b ledger' ⟨met, paired⟩
    exact ⟨met, alike.source, paired⟩
  · intro ledger ledger' paired
    exact ⟨alike.source, paired⟩

end World.Alike

/-! ## Levels -/

namespace Level

variable {request : Request} {left right : World ρ} {level : Level} {cursor : Int}

/-- The same level in worlds that are alike. -/
structure Paired (rel : ρ → ρ → Prop) (calm : Prop) (s t : Level × World ρ) : Prop where
  level : t.1 = s.1
  world : s.2.Alike rel calm t.2

private theorem allocate_pairs (alike : left.Alike rel calm right) (pathLength size : Nat) :
    Act.Pairs calm (World.charging (allocate pathLength size))
      (World.charging (allocate pathLength size)) left right
      (fun level s level' t => level' = level ∧ s.Alike rel calm t)
      fun s t => s.Alike rel calm t := by
  have whole : ¬ (size : Int) < 0 := by omega
  apply alike.charging
  unfold allocate Ledger.reserveFor
  refine (alike.ledgers.reserve _ _).bind ?_
  intro _ ledger _ ledger' paired
  rw [Act.pairs_get_bind]
  simp only [if_neg whole, Act.pairs_pure]
  exact ⟨trivial, paired⟩

private theorem growInPlace_pairs (alike : left.Alike rel calm right) :
    Act.Pairs calm growInPlace growInPlace (level, left) (level, right)
      (fun _ s _ t => Paired rel calm s t) (Paired rel calm) := by
  have grown : Act.Pairs calm
      (Act.within Prod.snd (fun world state => (state.1, world)) (World.charging level.grow))
      (Act.within Prod.snd (fun world state => (state.1, world)) (World.charging level.grow))
      (level, left) (level, right)
      (fun grown s grown' t => grown' = grown ∧ s.2.Alike rel calm t.2) (Paired rel calm) := by
    apply Act.Pairs.within
    refine (alike.charging ?_).mono (fun _ _ _ _ met => met) fun _ _ alike => ⟨rfl, alike⟩
    unfold grow
    refine (alike.ledgers.reserve _ _).bind ?_
    intro _ ledger _ ledger' paired
    exact ⟨rfl, paired⟩
  unfold growInPlace
  rw [Act.pairs_get_bind]
  refine grown.bind ?_
  rintro grown s _ t ⟨rfl, alike⟩
  exact ⟨rfl, alike⟩

/-- The same question is answered alike, in calm or not. -/
private theorem ask_pairs (agrees : reader.Agrees rel) (alike : left.Alike rel calm right) :
    Act.Pairs True (ask reader request cursor) (ask reader request cursor) (level, left)
      (level, right) (fun batch s batch' t => batch' = batch ∧ Paired rel calm s t)
      (Paired rel calm) := by
  obtain ⟨same, related⟩ := agrees (call request level cursor) _ _ alike.source
  unfold call at same related
  unfold Act.Pairs ask
  dsimp only
  rw [same]
  cases (reader.read _ left.source).1.result with
  | ok batch => exact ⟨rfl, rfl, related, alike.ledgers⟩
  | error fault => exact fun _ => ⟨rfl, rfl, related, alike.ledgers⟩

section
variable (agrees : reader.Agrees rel) (patient : calm → patience' = patience)
include agrees patient

/-- Reads for the same level bring the same. -/
private theorem fetch_pairs (alike : left.Alike rel calm right) :
    Act.Pairs calm (fetch reader request patience cursor) (fetch reader request patience' cursor)
      (level, left) (level, right)
      (fun batch s batch' t => batch' = batch ∧ Paired rel calm s t) (Paired rel calm) := by
  induction patience generalizing patience' cursor level left right with
  | zero =>
    cases patience' with
    | zero => exact Act.pairs_throw.mpr fun _ => ⟨rfl, alike⟩
    | succ patience' => exact Act.pairs_throw_left fun still => by cases patient still
  | succ patience ih =>
    cases patience' with
    | zero => exact Act.pairs_throw_right fun still => by cases patient still
    | succ patience' =>
      have patient : calm → patience' = patience := fun still => Nat.succ.inj (patient still)
      unfold fetch
      refine (ask_pairs agrees alike).outcome_bind ?_ ?_
      · rintro _ ⟨_, left⟩ batch ⟨level, right⟩ ⟨rfl, rfl, alike⟩
        dsimp only
        exact Act.pairs_ite (fun _ => ih patient alike) fun _ => ⟨rfl, rfl, alike⟩
      · rintro fault ⟨_, left⟩ ⟨level, right⟩ ⟨rfl, alike⟩
        dsimp only
        refine Act.pairs_ite (fun _ => ?_) fun _ => Act.pairs_throw.mpr fun _ => ⟨rfl, alike⟩
        refine (growInPlace_pairs alike).bind ?_
        rintro _ ⟨_, left⟩ _ ⟨level, right⟩ ⟨rfl, alike⟩
        exact ih patient alike

/-- Refills of the same level bring the same. -/
private theorem refill_pairs (alike : left.Alike rel calm right) (request : Request)
    (level : Level) :
    Act.Pairs calm (refill reader patience request) (refill reader patience' request)
      (level, left) (level, right) (fun _ s _ t => Paired rel calm s t) (Paired rel calm) := by
  have whole : Paired rel calm (level, left) (level, right) := ⟨rfl, alike⟩
  unfold refill
  rw [Act.pairs_get_bind]
  dsimp only
  refine Act.pairs_ite (fun _ => Act.pairs_throw.mpr fun _ => whole) fun _ => ?_
  refine Act.pairs_ite (fun _ => Act.pairs_throw.mpr fun _ => whole) fun _ => ?_
  rw [Act.pairs_modify_bind]
  have fetched : Act.Pairs calm
      (do
        let batch ← fetch reader request patience level.moveToFront.cursor
        let state ← get
        Act.ofExcept (Record.check state.1.buffer batch.count level.moveToFront.keep)
        return batch)
      (do
        let batch ← fetch reader request patience' level.moveToFront.cursor
        let state ← get
        Act.ofExcept (Record.check state.1.buffer batch.count level.moveToFront.keep)
        return batch)
      (level.moveToFront, left) (level.moveToFront, right)
      (fun batch s batch' t => batch' = batch ∧ Paired rel calm s t) (Paired rel calm) := by
    refine (fetch_pairs agrees patient alike).bind ?_
    rintro _ ⟨_, left⟩ batch ⟨level, right⟩ ⟨rfl, rfl, alike⟩
    rw [Act.pairs_get_bind]
    exact Act.pairs_ofExcept_bind (fun _ _ => ⟨rfl, rfl, alike⟩) fun _ => ⟨rfl, alike⟩
  refine (Act.Pairs.onFault fetched ?_).bind ?_
  · rintro ⟨_, left⟩ ⟨level, right⟩ ⟨rfl, alike⟩
    exact ⟨rfl, alike.release _ _⟩
  · rintro _ ⟨_, left⟩ batch ⟨level, right⟩ ⟨rfl, rfl, alike⟩
    rw [Act.pairs_get_bind]
    refine Act.pairs_ofExcept_bind (fun accepted _ => ?_) fun _ => ⟨rfl, alike⟩
    rw [Act.pairs_modify_bind]
    exact ⟨rfl, alike⟩

/-- The same directory yields the same level. -/
private theorem enter?_pairs (alike : left.Alike rel calm right) (pathLength size : Nat) :
    Act.Pairs calm (enter? reader patience request pathLength size)
      (enter? reader patience' request pathLength size) left right
      (fun found s found' t => found' = found ∧ s.Alike rel calm t)
      fun s t => s.Alike rel calm t := by
  unfold enter?
  refine (allocate_pairs alike pathLength size).bind ?_
  rintro _ left level right ⟨rfl, alike⟩
  refine (refill_pairs agrees patient alike request level).follow ?_ ?_ ?_ ?_
  · rintro _ ⟨_, left⟩ _ ⟨level, right⟩ run run' ⟨rfl, alike⟩
    unfold Act.Pairs
    dsimp only
    rw [run, run']
    by_cases empty : level.remaining = 0
    · simp only [if_pos empty]
      exact ⟨trivial, alike.release _ _⟩
    · simp only [if_neg empty]
      exact ⟨trivial, alike⟩
  · rintro fault ⟨_, left⟩ ⟨level, right⟩ run run' ⟨rfl, alike⟩
    unfold Act.Pairs
    dsimp only
    rw [run, run']
    exact fun _ => ⟨rfl, alike.release _ _⟩
  · intro fault s failed
    exact ⟨_, by simp only [failed]; rfl⟩
  · intro fault s failed
    exact ⟨_, by simp only [failed]; rfl⟩

end

end Level

/-! ## Paths -/

namespace PathBuffer

variable {left right : World ρ} {path path' : PathBuffer}

/-- Paths with the same text, now and before the last change. -/
structure Twins (path path' : PathBuffer) : Prop where
  text : path'.text = path.text
  saved : path'.saved = path.saved

private theorem append_pairs (alike : left.Alike rel calm right) (same : path'.text = path.text)
    (text : Text) :
    Act.Pairs calm (World.charging (path.append text)) (World.charging (path'.append text)) left
      right (fun path s path' t => path.Twins path' ∧ s.Alike rel calm t)
      fun s t => s.Alike rel calm t := by
  apply alike.charging
  unfold append
  refine (alike.ledgers.reserve _ _).bind ?_
  intro _ ledger _ ledger' paired
  rw [Act.pairs_pure, same]
  exact ⟨⟨rfl, rfl⟩, paired⟩

private theorem appendSeparated_pairs (alike : left.Alike rel calm right)
    (same : path'.text = path.text) (separator text : Text) :
    Act.Pairs calm (World.charging (path.appendSeparated separator text))
      (World.charging (path'.appendSeparated separator text)) left right
      (fun path s path' t => path.Twins path' ∧ s.Alike rel calm t)
      fun s t => s.Alike rel calm t := by
  unfold appendSeparated
  rw [same]
  by_cases empty : path.text.isEmpty = true
  · simp only [if_pos empty]
    exact append_pairs alike same text
  · simp only [if_neg empty]
    exact append_pairs alike same _

/-- Paths with the same text are cut alike. -/
private theorem truncate_cases (same : path'.text = path.text) (length : Int) :
    (∃ cut cut', path.truncate length = .ok cut ∧ path'.truncate length = .ok cut' ∧
      cut.Twins cut') ∨
    ∃ fault, path.truncate length = .error fault ∧ path'.truncate length = .error fault := by
  unfold truncate
  rw [same]
  by_cases inside : 0 ≤ length ∧ length ≤ path.text.length
  · rw [if_pos inside, if_pos inside]
    exact .inl ⟨_, _, rfl, rfl, rfl, rfl⟩
  · rw [if_neg inside, if_neg inside]
    exact .inr ⟨_, rfl, rfl⟩

end PathBuffer

/-! ## Steps -/

namespace Walk

variable {walk walk' : Walk} {left right : World ρ} {s t : Scene ρ} {root : Text}

/-- Walks that differ in the room of their paths at most, and in what an undo would bring back. -/
def Alike (walk walk' : Walk) : Prop :=
  ∃ path : PathBuffer, path.text = walk.path.text ∧ walk' = { walk with path }

/-- Alike walks in alike worlds. -/
structure Beside (rel : ρ → ρ → Prop) (calm : Prop) (s t : Scene ρ) : Prop where
  walk : s.1.Alike t.1
  world : s.2.Alike rel calm t.2

private theorem Beside.levels (beside : Beside rel calm s t) : t.1.levels = s.1.levels := by
  obtain ⟨path, -, same⟩ := beside.walk
  rw [same]

private theorem Beside.relevel (beside : Beside rel calm s t) (levels : LevelStack) :
    Beside rel calm ({ s.1 with levels }, s.2) ({ t.1 with levels }, t.2) := by
  obtain ⟨⟨path, text, same⟩, worlds⟩ := beside
  refine ⟨⟨path, text, ?_⟩, worlds⟩
  rw [same]

/-- The scenes after their walks have been given the same levels. -/
def Relevelled (rel : ρ → ρ → Prop) (calm : Prop) (s t s' t' : Scene ρ) : Prop :=
  ∃ levels, s'.1 = { s.1 with levels } ∧ t'.1 = { t.1 with levels } ∧ s'.2.Alike rel calm t'.2

private theorem Relevelled.beside {s' t' : Scene ρ} (relevelled : Relevelled rel calm s t s' t')
    (alike : s.1.Alike t.1) : Beside rel calm s' t' := by
  obtain ⟨levels, same, same', worlds⟩ := relevelled
  obtain ⟨path, text, alike⟩ := alike
  refine ⟨⟨path, ?_, ?_⟩, worlds⟩
  · rw [text, same]
  · rw [same', same, alike]

/-- Acts that look at their walks first go on with those. -/
private theorem pairs_getWalk_bind {α : Type} {next next' : Walk → Act (Scene ρ) α}
    {done : α → Scene ρ → α → Scene ρ → Prop} {failed : Scene ρ → Scene ρ → Prop} :
    Act.Pairs calm (getWalk >>= next) (getWalk >>= next') s t done failed ↔
      Act.Pairs calm (next s.1) (next' t.1) s t done failed := Iff.rfl

private theorem pairs_change_bind {α : Type} {update update' : Walk → Walk}
    {next next' : Unit → Act (Scene ρ) α} {done : α → Scene ρ → α → Scene ρ → Prop}
    {failed : Scene ρ → Scene ρ → Prop} :
    Act.Pairs calm (change update >>= next) (change update' >>= next') s t done failed ↔
      Act.Pairs calm (next ()) (next' ()) (update s.1, s.2) (update' t.1, t.2) done failed :=
  Iff.rfl

/-- Alike walks can both be cut back to a length, or neither can. -/
private theorem truncate_pairs (beside : Beside rel calm s t) (length : Int) :
    Act.Pairs calm (changePath (·.truncate length)) (changePath (·.truncate length)) s t
      (fun _ s _ t => Beside rel calm s t ∧ s.1.path.Twins t.1.path) (Beside rel calm) := by
  obtain ⟨walk, left⟩ := s
  obtain ⟨_, right⟩ := t
  obtain ⟨⟨path, text, rfl⟩, worlds⟩ := beside
  unfold changePath
  rw [pairs_getWalk_bind]
  rcases PathBuffer.truncate_cases text length with
    ⟨cut, cut', run, run', twins⟩ | ⟨fault, run, run'⟩
  · dsimp only
    rw [run, run']
    exact ⟨⟨⟨cut', twins.text, rfl⟩, worlds⟩, twins⟩
  · dsimp only
    rw [run, run']
    exact fun _ => ⟨rfl, ⟨path, text, rfl⟩, worlds⟩

private theorem settle_pairs (beside : Beside rel calm s t) (done left : LevelStack) :
    Act.Pairs calm (settle done left) (settle done left) s t
      (fun _ s _ t => Beside rel calm s t) (Beside rel calm) := by
  obtain ⟨walk, world⟩ := s
  obtain ⟨_, world'⟩ := t
  obtain ⟨⟨path, text, rfl⟩, worlds⟩ := beside
  unfold settle
  rw [Act.pairs_modify_bind, pairs_getWalk_bind]
  have settled : Beside rel calm
      ({ walk with levels := left }, world.updateLedger (LevelStack.release done))
      ({ walk with path, levels := left }, world'.updateLedger (LevelStack.release done)) :=
    ⟨⟨path, text, rfl⟩, worlds.releaseAll done done⟩
  exact (truncate_pairs settled _).mono (fun _ _ _ _ met => met.1) fun _ _ beside => beside

section
variable (agrees : reader.Agrees rel) (patient : calm → patience' = patience)
include agrees patient

private theorem openDirectory_pairs (beside : Beside rel calm s t) :
    Act.Pairs calm (openDirectory reader patience) (openDirectory reader patience') s t
      (fun found s' found' t' => found' = found ∧ s'.1 = s.1 ∧ t'.1 = t.1 ∧ Beside rel calm s' t')
      fun s' t' => s'.1 = s.1 ∧ t'.1 = t.1 ∧ Beside rel calm s' t' := by
  obtain ⟨walk, left⟩ := s
  obtain ⟨_, right⟩ := t
  obtain ⟨⟨path, text, rfl⟩, worlds⟩ := beside
  unfold openDirectory around
  rw [pairs_getWalk_bind]
  dsimp only
  rw [text]
  apply Act.Pairs.within
  refine (Level.enter?_pairs agrees patient worlds _ _).mono ?_ ?_
  · rintro found left found' right ⟨same, worlds⟩
    exact ⟨same, rfl, rfl, ⟨path, text, rfl⟩, worlds⟩
  · intro left right worlds
    exact ⟨rfl, rfl, ⟨path, text, rfl⟩, worlds⟩

private theorem openRoot_pairs (beside : Beside rel calm s t) :
    Act.Pairs calm (openRoot reader patience) (openRoot reader patience') s t
      (fun _ s _ t => Beside rel calm s t) (Beside rel calm) := by
  unfold openRoot
  refine ((openDirectory_pairs agrees patient beside).mono (fun _ _ _ _ met => met)
    fun _ _ met => met.2.2).bind ?_
  rintro _ ⟨walk, left⟩ found ⟨_, right⟩ ⟨rfl, -, -, ⟨path, text, rfl⟩, worlds⟩
  cases found with
  | none => exact ⟨⟨path, text, rfl⟩, worlds⟩
  | some level => exact ⟨⟨path, text, rfl⟩, worlds⟩

private theorem descend?_pairs (beside : Beside rel calm s t) (level : Level) :
    Act.Pairs calm (descend? reader patience level) (descend? reader patience' level) s t
      (fun found s found' t => found' = found ∧ Beside rel calm s t) (Beside rel calm) := by
  obtain ⟨walk, left⟩ := s
  obtain ⟨_, right⟩ := t
  obtain ⟨⟨path, text, rfl⟩, worlds⟩ := beside
  have whole : ∀ left right : World ρ, left.Alike rel calm right →
      Beside rel calm (walk, left) ({ walk with path }, right) :=
    fun _ _ worlds => ⟨⟨path, text, rfl⟩, worlds⟩
  unfold descend?
  rw [pairs_getWalk_bind]
  refine Act.pairs_ofExcept_bind (fun objectType _ => ?_) fun _ => whole _ _ worlds
  dsimp only
  refine Act.pairs_ite (fun _ => ?_) fun _ => ⟨rfl, whole _ _ worlds⟩
  refine Act.pairs_ofExcept_bind (fun name _ => ?_) fun _ => whole _ _ worlds
  have appended : Act.Pairs calm
      (around (World.charging (walk.path.appendSeparated walk.settings.separator name)))
      (around (World.charging (path.appendSeparated walk.settings.separator name)))
      (walk, left) ({ walk with path }, right)
      (fun grown s grown' t => grown.Twins grown' ∧ s.1 = walk ∧ t.1 = { walk with path } ∧
        s.2.Alike rel calm t.2) (Beside rel calm) := by
    apply Act.Pairs.within
    exact (PathBuffer.appendSeparated_pairs worlds text _ _).mono
      (fun _ _ _ _ ⟨twins, worlds⟩ => ⟨twins, rfl, rfl, worlds⟩) whole
  refine appended.bind ?_
  rintro grown ⟨walk, left⟩ grown' ⟨_, right⟩ ⟨twins, rfl, rfl, worlds⟩
  have below : Beside rel calm ({ walk with path := grown }, left)
      ({ walk with path := grown' }, right) := ⟨⟨grown', twins.text, rfl⟩, worlds⟩
  rw [pairs_change_bind]
  refine (Act.Pairs.onFault (openDirectory_pairs agrees patient below) ?_).bind ?_
  · rintro ⟨_, left⟩ ⟨_, right⟩ ⟨rfl, rfl, -, worlds⟩
    exact ⟨⟨grown'.undo, twins.saved, rfl⟩, worlds⟩
  · rintro _ ⟨_, left⟩ found ⟨_, right⟩ ⟨rfl, rfl, rfl, beside⟩
    cases found with
    | some inner => exact ⟨rfl, beside⟩
    | none => exact ⟨rfl, ⟨grown'.undo, twins.saved, rfl⟩, beside.world⟩

private theorem refillBetween_pairs (beside : Beside rel calm s t) (deeper shallower : LevelStack)
    (level : Level) :
    Act.Pairs calm (refillBetween reader patience deeper level shallower)
      (refillBetween reader patience' deeper level shallower) s t
      (fun filled s' filled' t' => filled' = filled ∧ Relevelled rel calm s t s' t')
      (Relevelled rel calm s t) := by
  obtain ⟨walk, left⟩ := s
  obtain ⟨_, right⟩ := t
  obtain ⟨⟨path, text, rfl⟩, worlds⟩ := beside
  refine (Level.refill_pairs agrees patient worlds (walk.settings.request walk.path.text)
    level).follow ?_ ?_ ?_ ?_
  · rintro _ ⟨_, left⟩ _ ⟨level, right⟩ run run' ⟨rfl, worlds⟩
    unfold Act.Pairs refillBetween
    dsimp only
    rw [text, run, run']
    exact ⟨rfl, _, rfl, rfl, worlds⟩
  · rintro fault ⟨_, left⟩ ⟨level, right⟩ run run' ⟨rfl, worlds⟩
    unfold Act.Pairs refillBetween
    dsimp only
    rw [text, run, run']
    exact fun _ => ⟨rfl, _, rfl, rfl, worlds⟩
  · intro fault _ failed
    unfold refillBetween
    exact ⟨_, by simp only [failed]; rfl⟩
  · intro fault _ failed
    unfold refillBetween
    exact ⟨_, by simp only [text, failed]; rfl⟩

private theorem refillAbove_pairs (beside : Beside rel calm s t) (deeper shallower : LevelStack)
    (level : Level) :
    Act.Pairs calm (refillAbove reader patience deeper level shallower)
      (refillAbove reader patience' deeper level shallower) s t
      (fun filled s filled' t => filled' = filled ∧ Beside rel calm s t) (Beside rel calm) := by
  unfold refillAbove
  refine (truncate_pairs beside _).bind ?_
  rintro _ s _ t ⟨beside, twins⟩
  -- both walks get back the texts that they had before they were cut
  have undone : ∀ s' t', Relevelled rel calm s t s' t' →
      Beside rel calm ({ s'.1 with path := s'.1.path.undo }, s'.2)
        ({ t'.1 with path := t'.1.path.undo }, t'.2) := by
    rintro ⟨_, left⟩ ⟨_, right⟩ ⟨levels, rfl, rfl, worlds⟩
    obtain ⟨path, text, same⟩ := beside.walk
    rw [same] at twins ⊢
    exact ⟨⟨path.undo, twins.saved, rfl⟩, worlds⟩
  refine Act.Pairs.bind (Act.Pairs.onFault
    (refillBetween_pairs agrees patient beside deeper shallower level) ?_) ?_
  · intro s' t' relevelled
    exact undone s' t' relevelled
  · rintro _ s' filled t' ⟨rfl, relevelled⟩
    exact ⟨rfl, undone s' t' relevelled⟩

private theorem climb_pairs (beside : Beside rel calm s t) (done left : LevelStack) :
    Act.Pairs calm (climb reader patience done left) (climb reader patience' done left) s t
      (fun _ s _ t => Beside rel calm s t) (Beside rel calm) := by
  induction left generalizing done s t with
  | nil => exact settle_pairs beside done []
  | cons level shallower ih =>
    unfold climb
    refine Act.pairs_ite (fun _ => settle_pairs beside done _) fun _ => ?_
    refine Act.pairs_ite (fun _ => ih beside _) fun _ => ?_
    refine (refillAbove_pairs agrees patient beside done shallower level).bind ?_
    rintro _ s filled t ⟨rfl, beside⟩
    exact Act.pairs_ite (fun _ => settle_pairs beside done _) fun _ => ih beside _

private theorem moveOn_pairs (beside : Beside rel calm s t) (level : Level)
    (shallower : LevelStack) :
    Act.Pairs calm (moveOn reader patience level shallower)
      (moveOn reader patience' level shallower) s t
      (fun _ s _ t => Beside rel calm s t) (Beside rel calm) := by
  -- how the walk goes on from its level, refilled or not
  have onwards : ∀ (level : Level) (s t : Scene ρ), Beside rel calm s t → Act.Pairs calm
      (if level.remaining < 2 then climb reader patience [level] shallower
        else do
          let level ← Act.ofExcept level.advance
          change fun walk => { walk with levels := level :: shallower })
      (if level.remaining < 2 then climb reader patience' [level] shallower
        else do
          let level ← Act.ofExcept level.advance
          change fun walk => { walk with levels := level :: shallower }) s t
      (fun _ s _ t => Beside rel calm s t) (Beside rel calm) := by
    intro level s t beside
    refine Act.pairs_ite (fun _ => climb_pairs agrees patient beside _ _) fun _ => ?_
    exact Act.pairs_ofExcept_bind (fun _ _ => beside.relevel _) fun _ => beside
  unfold moveOn
  refine Act.pairs_ite (fun _ => ?_) fun _ => onwards level s t beside
  refine ((refillBetween_pairs agrees patient beside [] shallower level).mono
    (fun _ _ _ _ met => met) fun _ _ relevelled => relevelled.beside beside.walk).bind ?_
  rintro _ s' filled t' ⟨rfl, relevelled⟩
  exact onwards filled s' t' (relevelled.beside beside.walk)

/-- Alike walks take the same step. -/
theorem step_pairs (beside : Beside rel calm s t) :
    Act.Pairs calm (step reader patience) (step reader patience') s t
      (fun _ s _ t => Beside rel calm s t) (Beside rel calm) := by
  unfold step
  rw [pairs_getWalk_bind, beside.levels]
  cases s.1.levels with
  | nil => exact beside
  | cons level shallower =>
    dsimp only
    refine (descend?_pairs agrees patient beside level).bind ?_
    rintro _ s found t ⟨rfl, beside⟩
    cases found with
    | none => exact moveOn_pairs agrees patient beside level shallower
    | some inner =>
      dsimp only
      exact Act.pairs_ofExcept_bind (fun _ _ => beside.relevel _) fun _ => beside

end

/-! ## Calls -/

private theorem Alike.isUnmatched (alike : walk.Alike walk') :
    walk'.isUnmatched = walk.isUnmatched := by
  obtain ⟨path, -, rfl⟩ := alike
  rfl

private theorem Alike.isEmpty (alike : walk.Alike walk') : walk'.isEmpty = walk.isEmpty := by
  obtain ⟨path, -, rfl⟩ := alike
  rfl

theorem Alike.depth (alike : walk.Alike walk') : walk'.depth = walk.depth := by
  obtain ⟨path, -, rfl⟩ := alike
  rfl

private theorem Alike.livePosition (alike : walk.Alike walk') :
    walk'.livePosition = walk.livePosition := by
  obtain ⟨path, text, rfl⟩ := alike
  simp only [Walk.livePosition, text]

private theorem Alike.position (alike : walk.Alike walk') : walk'.position = walk.position := by
  have live := alike.livePosition
  obtain ⟨path, -, rfl⟩ := alike
  simp only [Walk.position, live]

/-- Alike walks show the same. -/
theorem Alike.looksLike (alike : walk.Alike walk') : walk.LooksLike walk' := by
  have position := alike.position
  have isEmpty := alike.isEmpty
  obtain ⟨path, text, rfl⟩ := alike
  refine ⟨isEmpty, ?_, ?_, ?_, rfl⟩
  · intro kind
    have omitted : Walk.omitted { walk with path } kind = walk.omitted kind := by cases kind <;> rfl
    simp only [name, storedName, position, omitted]
  · simp only [rootPath, text]
  · simp only [information, position]

private theorem Alike.atRoot (alike : walk.Alike walk') (root : Text) :
    (walk.atRoot root).Alike (walk'.atRoot root) := by
  obtain ⟨path, -, rfl⟩ := alike
  exact ⟨⟨root, path.text, path.capacity⟩, rfl, rfl⟩

private theorem passesOver_pairs (beside : Beside rel calm s t) (start : Option Position) :
    Act.Pairs calm (passesOver start) (passesOver start) s t
      (fun unmatched s unmatched' t => unmatched' = unmatched ∧ Beside rel calm s t)
      (Beside rel calm) := by
  unfold passesOver
  rw [pairs_getWalk_bind, beside.walk.isUnmatched]
  refine Act.pairs_ofExcept_bind (fun unmatched _ => ?_) fun _ => beside
  obtain ⟨⟨path, text, same⟩, worlds⟩ := beside
  rw [pairs_change_bind, same]
  exact ⟨rfl, ⟨path, text, rfl⟩, worlds⟩

/-- Alike walks pass over the same record, and what they do then is all that matters. -/
private theorem passing_pairs {onwards onwards' : Act (Scene ρ) Unit} (beside : Beside rel calm s t)
    (start : Option Position)
    (pairs : ∀ s t, Beside rel calm s t → Act.Pairs calm onwards onwards' s t
      (fun _ s _ t => Beside rel calm s t) (Beside rel calm)) :
    Act.Pairs calm (do if ← passesOver start then onwards) (do if ← passesOver start then onwards')
      s t (fun _ s _ t => Beside rel calm s t) (Beside rel calm) := by
  refine (passesOver_pairs beside start).bind ?_
  rintro _ s unmatched t ⟨rfl, beside⟩
  cases unmatched with
  | true => exact pairs s t beside
  | false => exact beside

private theorem opening_sameSetup_meets (sound : walk.Sound root) (opened : walk.closed = false) :
    (opening reader patience).Meets (walk.atRoot root, left) (fun _ _ => True)
      fun _ s => (walk.atRoot root).SameSetup s.1 := by
  have covers := Terms.any_covers reader
  have rooted := sound.rooted opened
  exact (opening_meets (rounds_of_covers covers) rooted.bare rooted.unheld
    (covers.serves _ (Level.fresh_holds _ _))
    (fun after opened => opened.sound rooted.sound rooted.bare) trivial).mono
    (fun _ _ _ => trivial) fun _ _ failed => failed.2.2

section
variable (agrees : reader.Agrees rel) (patient : calm → patience' = patience)
include agrees patient

private theorem skipUnmatched_pairs (beside : Beside rel calm s t) (start : Option Position)
    {n n' : Nat} (rounds : calm → n' = n) :
    Act.Pairs calm (skipUnmatched reader patience start n) (skipUnmatched reader patience' start n')
      s t (fun _ s _ t => Beside rel calm s t) (Beside rel calm) := by
  induction n generalizing n' s t with
  | zero =>
    cases n' with
    | zero => exact passing_pairs beside start fun s t beside => Act.pairs_throw.mpr fun _ => beside
    | succ n' =>
      refine passing_pairs beside start fun s t _ => ?_
      exact Act.pairs_throw_left fun still => by cases rounds still
  | succ n ih =>
    cases n' with
    | zero =>
      refine passing_pairs beside start fun s t _ => ?_
      exact Act.pairs_throw_right fun still => by cases rounds still
    | succ n' =>
      have rounds : calm → n' = n := fun still => Nat.succ.inj (rounds still)
      refine passing_pairs beside start fun s t beside => ?_
      refine (step_pairs agrees patient beside).bind ?_
      intro _ s _ t beside
      exact ih beside rounds

/-- Alike walks advance to the same object. -/
theorem advance_pairs (beside : Beside rel calm s t) :
    Act.Pairs calm (advance reader patience) (advance reader patience') s t
      (fun _ s _ t => Beside rel calm s t) (Beside rel calm) := by
  have onwards : ∀ start : Option Position, Act.Pairs calm
      (do step reader patience; skipUnmatched reader patience start patience)
      (do step reader patience'; skipUnmatched reader patience' start patience') s t
      (fun _ s _ t => Beside rel calm s t) (Beside rel calm) := by
    intro start
    refine (step_pairs agrees patient beside).bind ?_
    intro _ s _ t beside
    exact skipUnmatched_pairs agrees patient beside start patient
  have isEmpty := beside.walk.isEmpty
  have live := beside.walk.livePosition
  obtain ⟨path, -, same⟩ := beside.walk
  unfold advance
  rw [pairs_getWalk_bind, isEmpty, live, same]
  dsimp only
  refine Act.pairs_ite (fun _ => Act.pairs_throw.mpr fun _ => beside) fun _ => ?_
  refine Act.pairs_ite (fun _ => beside) fun _ => ?_
  cases s.1.held with
  | some held => exact onwards (some held)
  | none =>
    dsimp only
    refine Act.pairs_ite (fun _ => ?_) fun _ => onwards none
    exact Act.pairs_ofExcept_bind (fun position _ => onwards position) fun _ => beside

theorem opening_pairs (beside : Beside rel calm s t) :
    Act.Pairs calm (opening reader patience) (opening reader patience') s t
      (fun _ s _ t => Beside rel calm s t) (Beside rel calm) := by
  unfold opening
  refine (openRoot_pairs agrees patient beside).bind ?_
  intro _ s _ t beside
  exact skipUnmatched_pairs agrees patient beside none patient

/-- Alike walks are reset to the same object. -/
theorem reset_pairs (beside : Beside rel calm s t) (sound : s.1.Sound root)
    (sound' : t.1.Sound root) (opened : s.1.closed = false) :
    Act.Pairs calm (reset reader patience) (reset reader patience') s t
      (fun _ s _ t => Beside rel calm s t) (Beside rel calm) := by
  obtain ⟨walk, left⟩ := s
  obtain ⟨walk', right⟩ := t
  obtain ⟨alike, worlds⟩ := beside
  have opened' : walk'.closed = false := alike.looksLike.closed.trans opened
  unfold Act.Pairs
  rw [reset_eq reader patience left sound opened, reset_eq reader patience' right sound' opened']
  have set : Act.Pairs calm (opening reader patience) (opening reader patience')
      (walk.atRoot root, left) (walk'.atRoot root, right)
      (fun _ s _ t => Beside rel calm s t) (Beside rel calm) :=
    opening_pairs agrees patient ⟨alike.atRoot root, worlds⟩
  have kept := set.and_meets (opening_sameSetup_meets sound opened)
    (opening_sameSetup_meets sound' opened')
  refine Act.Pairs.bind (Act.Pairs.onFault kept ?_) ?_
  · rintro ⟨failed, failing⟩ ⟨_, failing'⟩ ⟨⟨⟨grown, -, rfl⟩, between⟩, ⟨-, setup⟩, -, setup'⟩
    obtain ⟨path, text, rfl⟩ := alike
    refine Act.pairs_of_ok (takeBack_of_sameSetup failing sound setup)
      (takeBack_of_sameSetup failing' sound' setup')
      ⟨⟨⟨path.text, grown.text, grown.capacity⟩, text, rfl⟩, between.releaseAll _ _⟩
  · rintro _ s _ t ⟨beside, -⟩
    exact ⟨beside.walk, beside.world.releaseAll _ _⟩

end

end Walk

end Catwalk
