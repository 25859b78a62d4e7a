import Catwalk.Proofs.Outcomes

/-!
# Pairs of acts

Two acts are run side by side, each in a state of its own. In calm they end in the same way: both
with a value, or both with the same fault. Otherwise one may fail where the other does not, and then
nothing is said of them; but when both succeed, the same is known as in calm. What a pair of
compound acts does follows from what the pairs of their parts do (`Pairs.bind`, `Pairs.onFault`).
-/

namespace Catwalk.Act

variable {σ τ α β : Type} {calm : Prop}

/-- The acts, run in `s` and in `t`, end alike. -/
def Pairs (calm : Prop) (left right : Act σ α) (s t : σ) (done : α → σ → α → σ → Prop)
    (failed : σ → σ → Prop) : Prop :=
  match left s, right t with
  | .ok a s, .ok b t => done a s b t
  | .error fault s, .error other t => calm → other = fault ∧ failed s t
  | .ok _ _, .error _ _ => ¬ calm
  | .error _ _, .ok _ _ => ¬ calm

section
variable {left right : Act σ α} {s t s' t' : σ} {a b : α} {fault other : Fault}
  {done done' : α → σ → α → σ → Prop} {failed failed' : σ → σ → Prop}

theorem Pairs.of_ok (pairs : Pairs calm left right s t done failed) (run : left s = .ok a s')
    (run' : right t = .ok b t') : done a s' b t' := by
  simpa only [Pairs, run, run'] using pairs

/-- In calm, acts that are paired end in the same way. -/
private theorem Pairs.cases (pairs : Pairs True left right s t done failed) :
    (∃ a s' b t', left s = .ok a s' ∧ right t = .ok b t' ∧ done a s' b t') ∨
      ∃ fault s' t', left s = .error fault s' ∧ right t = .error fault t' ∧ failed s' t' := by
  unfold Pairs at pairs
  cases run : left s with
  | ok a s' =>
    cases run' : right t with
    | ok b t' =>
      rw [run, run'] at pairs
      exact .inl ⟨a, s', b, t', rfl, rfl, pairs⟩
    | error other t' =>
      rw [run, run'] at pairs
      exact absurd trivial pairs
  | error fault s' =>
    cases run' : right t with
    | ok b t' =>
      rw [run, run'] at pairs
      exact absurd trivial pairs
    | error other t' =>
      rw [run, run'] at pairs
      obtain ⟨rfl, after⟩ := pairs trivial
      exact .inr ⟨other, s', t', rfl, rfl, after⟩

/-- In calm, what is paired with an act that succeeds succeeds. -/
theorem Pairs.meets_of_ok (pairs : Pairs True left right s t done failed)
    (run : left s = .ok a s') : right.Meets t (done a s') fun _ _ => False := by
  unfold Meets
  rcases pairs.cases with ⟨b, u, c, v, first, second, met⟩ | ⟨fault, u, v, first, -, -⟩
  · rw [run] at first
    cases first
    rw [second]
    exact met
  · rw [run] at first
    cases first

/-- The fault that the act ends in, if it fails. -/
def fault? (act : Act σ α) (s : σ) : Option Fault :=
  match act s with
  | .ok _ _ => none
  | .error fault _ => some fault

theorem Pairs.fault? (pairs : Pairs True left right s t done failed) :
    right.fault? t = left.fault? s := by
  unfold Act.fault?
  rcases pairs.cases with ⟨a, s', b, t', run, run', -⟩ | ⟨fault, s', t', run, run', -⟩
  · rw [run, run']
  · rw [run, run']

theorem Pairs.leaves {after : σ → σ → Prop}
    (pairs : Pairs True left right s t (fun _ s _ t => after s t) after) :
    after (left.leaves s) (right.leaves t) := by
  unfold Act.leaves
  rcases pairs.cases with ⟨a, s', b, t', run, run', met⟩ | ⟨fault, s', t', run, run', met⟩
  · rwa [run, run']
  · rwa [run, run']

theorem Pairs.mono (pairs : Pairs calm left right s t done failed)
    (ok : ∀ a s b t, done a s b t → done' a s b t) (error : ∀ s t, failed s t → failed' s t) :
    Pairs calm left right s t done' failed' := by
  unfold Pairs at pairs ⊢
  split
  · next run run' =>
    rw [run, run'] at pairs
    exact ok _ _ _ _ pairs
  · next run run' =>
    rw [run, run'] at pairs
    intro still
    obtain ⟨same, after⟩ := pairs still
    exact ⟨same, error _ _ after⟩
  · next run run' =>
    rw [run, run'] at pairs
    exact pairs
  · next run run' =>
    rw [run, run'] at pairs
    exact pairs

/-- What one of the acts meets by itself is known of it in a pair. -/
theorem Pairs.and_meets {doneLeft doneRight : α → σ → Prop}
    {failedLeft failedRight : Fault → σ → Prop}
    (pairs : Pairs calm left right s t done failed) (here : left.Meets s doneLeft failedLeft)
    (there : right.Meets t doneRight failedRight) :
    Pairs calm left right s t (fun a s b t => done a s b t ∧ doneLeft a s ∧ doneRight b t)
      fun s t => failed s t ∧ (∃ fault, failedLeft fault s) ∧ ∃ fault, failedRight fault t := by
  unfold Pairs at pairs ⊢
  unfold Meets at here there
  cases run : left s with
  | ok a s' =>
    cases run' : right t with
    | ok b t' =>
      rw [run] at pairs here
      rw [run'] at pairs there
      exact ⟨pairs, here, there⟩
    | error other t' =>
      rw [run, run'] at pairs
      exact pairs
  | error fault s' =>
    cases run' : right t with
    | ok b t' =>
      rw [run, run'] at pairs
      exact pairs
    | error other t' =>
      rw [run] at pairs here
      rw [run'] at pairs there
      intro still
      obtain ⟨same, after⟩ := pairs still
      exact ⟨same, after, ⟨fault, here⟩, other, there⟩

/-- Acts that end in the same way are paired. -/
theorem pairs_of_ok (run : left s = .ok a s') (run' : right t = .ok b t') (met : done a s' b t') :
    Pairs calm left right s t done failed := by
  unfold Pairs
  rw [run, run']
  exact met

theorem pairs_of_error (run : left s = .error fault s') (run' : right t = .error fault t')
    (met : calm → failed s' t') : Pairs calm left right s t done failed := by
  unfold Pairs
  rw [run, run']
  exact fun still => ⟨rfl, met still⟩

/-- Without calm it is enough to know what comes of two successes. -/
theorem pairs_of_not_calm (wild : ¬ calm)
    (both : ∀ a s' b t', left s = .ok a s' → right t = .ok b t' → done a s' b t') :
    Pairs calm left right s t done failed := by
  unfold Pairs
  cases run : left s with
  | ok a s' =>
    cases run' : right t with
    | ok b t' => exact both a s' b t' run run'
    | error other t' => exact wild
  | error fault s' =>
    cases run' : right t with
    | ok b t' => exact wild
    | error other t' => exact fun still => absurd still wild

end

variable {s t : σ} {failed : σ → σ → Prop}

@[simp] theorem pairs_pure {a b : α} {done : α → σ → α → σ → Prop} :
    Pairs calm (pure a) (pure b) s t done failed ↔ done a s b t := Iff.rfl

/-- Without calm nothing is known of an act beside one that fails. -/
theorem pairs_throw_left {fault : Fault} {right : Act σ α} {done : α → σ → α → σ → Prop}
    (wild : ¬ calm) : Pairs calm (throw fault) right s t done failed := by
  refine pairs_of_not_calm wild ?_
  rintro _ _ _ _ ⟨⟩

theorem pairs_throw_right {fault : Fault} {left : Act σ α} {done : α → σ → α → σ → Prop}
    (wild : ¬ calm) : Pairs calm left (throw fault) s t done failed := by
  refine pairs_of_not_calm wild ?_
  rintro _ _ _ _ _ ⟨⟩

@[simp] theorem pairs_throw {fault : Fault} {done : α → σ → α → σ → Prop} :
    Pairs calm (throw fault) (throw fault) s t done failed ↔ (calm → failed s t) := by
  change (calm → fault = fault ∧ failed s t) ↔ _
  simp

theorem pairs_ite {condition : Prop} [Decidable condition] {act act' other other' : Act σ α}
    {done : α → σ → α → σ → Prop}
    (pos : condition → Pairs calm act act' s t done failed)
    (neg : ¬ condition → Pairs calm other other' s t done failed) :
    Pairs calm (if condition then act else other) (if condition then act' else other') s t done
      failed := by
  by_cases holds : condition
  · rw [if_pos holds, if_pos holds]
    exact pos holds
  · rw [if_neg holds, if_neg holds]
    exact neg holds

theorem Pairs.bind {left right : Act σ α} {next next' : α → Act σ β}
    {between : α → σ → α → σ → Prop} {done : β → σ → β → σ → Prop}
    (pairs : Pairs calm left right s t between failed)
    (onwards : ∀ a s b t, between a s b t → Pairs calm (next a) (next' b) s t done failed) :
    Pairs calm (left >>= next) (right >>= next') s t done failed := by
  change Pairs calm (EStateM.bind left next) (EStateM.bind right next') s t done failed
  unfold Pairs EStateM.bind at *
  cases run : left s with
  | ok a s' =>
    cases run' : right t with
    | ok b t' =>
      rw [run, run'] at pairs
      exact onwards a s' b t' pairs
    | error other t' =>
      rw [run, run'] at pairs
      dsimp only
      cases next a s' with
      | ok => exact pairs
      | error => exact fun still => absurd still pairs
  | error fault s' =>
    cases run' : right t with
    | ok b t' =>
      rw [run, run'] at pairs
      dsimp only
      cases next' b t' with
      | ok => exact pairs
      | error => exact fun still => absurd still pairs
    | error other t' =>
      rw [run, run'] at pairs
      exact pairs

/-- Acts that look at their states first go on with those. -/
theorem pairs_get_bind {next next' : σ → Act σ β} {done : β → σ → β → σ → Prop} :
    Pairs calm (get >>= next) (get >>= next') s t done failed ↔
      Pairs calm (next s) (next' t) s t done failed := Iff.rfl

theorem pairs_modify_bind {update update' : σ → σ} {next next' : PUnit → Act σ β}
    {done : β → σ → β → σ → Prop} :
    Pairs calm (modify update >>= next) (modify update' >>= next') s t done failed ↔
      Pairs calm (next ⟨⟩) (next' ⟨⟩) (update s) (update' t) done failed := Iff.rfl

theorem pairs_ofExcept_bind {result : Except Fault α} {next next' : α → Act σ β}
    {done : β → σ → β → σ → Prop}
    (ok : ∀ a, result = .ok a → Pairs calm (next a) (next' a) s t done failed)
    (error : calm → failed s t) :
    Pairs calm (ofExcept result >>= next) (ofExcept result >>= next') s t done failed := by
  cases result with
  | ok a => exact ok a rfl
  | error fault => exact fun still => ⟨rfl, error still⟩

/-- What comes after an act may depend on how that ended, if both acts end in the same way. -/
theorem Pairs.outcome_bind {left right : Act σ α} {next next' : Except Fault α → Act σ β}
    {between : α → σ → α → σ → Prop} {failing : σ → σ → Prop} {done : β → σ → β → σ → Prop}
    (pairs : Pairs True left right s t between failing)
    (ok : ∀ a s b t, between a s b t →
      Pairs calm (next (.ok a)) (next' (.ok b)) s t done failed)
    (error : ∀ fault s t, failing s t →
      Pairs calm (next (.error fault)) (next' (.error fault)) s t done failed) :
    Pairs calm (left.outcome >>= next) (right.outcome >>= next') s t done failed := by
  rcases pairs.cases with ⟨a, s', b, t', run, run', met⟩ | ⟨fault, s', t', run, run', met⟩
  · have both : Pairs calm left.outcome right.outcome s t
        (fun x s y t => x = .ok a ∧ y = .ok b ∧ between a s b t) failed :=
      pairs_of_ok (outcome_of_ok run) (outcome_of_ok run') ⟨rfl, rfl, met⟩
    refine both.bind ?_
    rintro _ s _ t ⟨rfl, rfl, met⟩
    exact ok a s b t met
  · have both : Pairs calm left.outcome right.outcome s t
        (fun x s y t => x = .error fault ∧ y = .error fault ∧ failing s t) failed :=
      pairs_of_ok (outcome_of_error run) (outcome_of_error run') ⟨rfl, rfl, met⟩
    refine both.bind ?_
    rintro _ s _ t ⟨rfl, rfl, met⟩
    exact error fault s t met

theorem Pairs.within {part : σ → τ} {update update' : τ → σ → σ} {left right : Act τ α}
    {done : α → σ → α → σ → Prop}
    (pairs : Pairs calm left right (part s) (part t)
      (fun a p b q => done a (update p s) b (update' q t))
      fun p q => failed (update p s) (update' q t)) :
    Pairs calm (Act.within part update left) (Act.within part update' right) s t done failed := by
  unfold Pairs Act.within at *
  cases run : left (part s) <;> cases run' : right (part t) <;> simpa only [run, run'] using pairs

/-- Acts that run others in states of their own, and fail if those do. -/
theorem Pairs.follow {act act' : Act σ β} {left right : Act τ α} {p q : τ}
    {between : α → τ → α → τ → Prop} {failing : τ → τ → Prop} {done : β → σ → β → σ → Prop}
    (pairs : Pairs calm left right p q between failing)
    (ok : ∀ a p' b q', left p = .ok a p' → right q = .ok b q' → between a p' b q' →
      Pairs calm act act' s t done failed)
    (error : ∀ fault p' q', left p = .error fault p' → right q = .error fault q' →
      failing p' q' → Pairs calm act act' s t done failed)
    (stops : ∀ fault p', left p = .error fault p' → ∃ s', act s = .error fault s')
    (stops' : ∀ fault q', right q = .error fault q' → ∃ t', act' t = .error fault t') :
    Pairs calm act act' s t done failed := by
  by_cases still : calm
  · obtain rfl : calm = True := eq_true still
    rcases pairs.cases with ⟨a, p', b, q', run, run', met⟩ | ⟨fault, p', q', run, run', met⟩
    · exact ok a p' b q' run run' met
    · exact error fault p' q' run run' met
  · refine pairs_of_not_calm still ?_
    intro b s' b' t' ended ended'
    cases run : left p with
    | error fault p' =>
      obtain ⟨s'', stopped⟩ := stops fault p' run
      rw [stopped] at ended
      cases ended
    | ok a p' =>
      cases run' : right q with
      | error fault q' =>
        obtain ⟨t'', stopped⟩ := stops' fault q' run'
        rw [stopped] at ended'
        cases ended'
      | ok a' q' => exact (ok a p' a' q' run run' (pairs.of_ok run run')).of_ok ended ended'

/-- Only an act that succeeds succeeds with a cleanup. -/
theorem ok_of_onFault {act : Act σ α} {cleanup : Act σ Unit} {s s' : σ} {a : α}
    (run : act.onFault cleanup s = .ok a s') : act s = .ok a s' := by
  unfold Act.onFault at run
  cases first : act s with
  | ok b t =>
    rw [first] at run
    exact run
  | error fault t =>
    rw [first] at run
    dsimp only at run
    cases second : cleanup t with
    | ok _ u =>
      rw [second] at run
      cases run
    | error _ u =>
      rw [second] at run
      cases run

theorem Pairs.onFault {left right : Act σ α} {cleanup cleanup' : Act σ Unit}
    {done : α → σ → α → σ → Prop} {failing : σ → σ → Prop}
    (pairs : Pairs calm left right s t done failing)
    (cleaned : ∀ s t, failing s t →
      Pairs calm cleanup cleanup' s t (fun _ s _ t => failed s t) failed) :
    Pairs calm (left.onFault cleanup) (right.onFault cleanup') s t done failed := by
  by_cases still : calm
  · obtain rfl : calm = True := eq_true still
    rcases pairs.cases with ⟨a, s', b, t', run, run', met⟩ | ⟨fault, s', t', run, run', failing⟩
    · exact pairs_of_ok (onFault_of_ok run) (onFault_of_ok run') met
    · rcases (cleaned s' t' failing).cases with
        ⟨⟨⟩, u, ⟨⟩, v, clean, clean', met⟩ | ⟨second, u, v, clean, clean', met⟩
      · exact pairs_of_error (onFault_of_error run clean) (onFault_of_error run' clean')
          fun _ => met
      · have ended : left.onFault cleanup s = .error second u := by
          simp only [Act.onFault, run, clean]
        have ended' : right.onFault cleanup' t = .error second v := by
          simp only [Act.onFault, run', clean']
        exact pairs_of_error ended ended' fun _ => met
  · refine pairs_of_not_calm still ?_
    intro a s' b t' run run'
    exact pairs.of_ok (ok_of_onFault run) (ok_of_onFault run')

end Catwalk.Act
