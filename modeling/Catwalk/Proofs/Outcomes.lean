import Catwalk.Act

/-!
# Outcomes of acts

An act meets a pair of postconditions when its outcome satisfies the one that it falls under: the
first if it yields a value, and the second if it fails. What a compound act meets follows from what
its parts meet (`meets_bind`, `meets_onFault`, `meets_within`), so that every act below has one
statement of its outcomes, failures included.
-/

namespace Catwalk

namespace Act

variable {σ τ α β : Type}

/-- Outcomes can be compared. -/
instance decidableEqResult [DecidableEq σ] [DecidableEq α] :
    DecidableEq (EStateM.Result Fault σ α)
  | .ok a s, .ok b t => decidable_of_iff (a = b ∧ s = t) (by simp)
  | .error fault s, .error other t => decidable_of_iff (fault = other ∧ s = t) (by simp)
  | .ok _ _, .error _ _ => isFalse nofun
  | .error _ _, .ok _ _ => isFalse nofun

/-- An act that looks at its state first goes on with that state. -/
theorem get_bind (next : σ → Act σ β) (s : σ) : (get >>= next) s = next s s := rfl

theorem bind_of_ok {act : Act σ α} {next : α → Act σ β} {s t : σ} {a : α} (run : act s = .ok a t) :
    (act >>= next) s = next a t := by
  change EStateM.bind act next s = _
  unfold EStateM.bind
  rw [run]

/-- Acts that succeed one after the other succeed one by one. -/
theorem exists_of_bind_ok {act : Act σ α} {next : α → Act σ β} {s u : σ} {b : β}
    (run : (act >>= next) s = .ok b u) : ∃ a t, act s = .ok a t ∧ next a t = .ok b u := by
  change EStateM.bind act next s = _ at run
  unfold EStateM.bind at run
  cases first : act s with
  | ok a t =>
    rw [first] at run
    exact ⟨a, t, rfl, run⟩
  | error fault t =>
    rw [first] at run
    cases run

/-- Run in `s`, the act ends in a value and a state that satisfy `done`, or in a fault and a state
that satisfy `failed`. -/
def Meets (act : Act σ α) (s : σ) (done : α → σ → Prop) (failed : Fault → σ → Prop) : Prop :=
  match act s with
  | .ok a t => done a t
  | .error fault t => failed fault t

/-- An act can be run to see what it meets. -/
instance decidableMeets {act : Act σ α} {s : σ} {done : α → σ → Prop} {failed : Fault → σ → Prop}
    [∀ a t, Decidable (done a t)] [∀ fault t, Decidable (failed fault t)] :
    Decidable (act.Meets s done failed) :=
  match run : act s with
  | .ok a t => decidable_of_iff (done a t) (by rw [Meets, run])
  | .error fault t => decidable_of_iff (failed fault t) (by rw [Meets, run])

/-- The state that an act leaves, however it ends. -/
def leaves (act : Act σ α) (s : σ) : σ :=
  match act s with
  | .ok _ t => t
  | .error _ t => t

section
variable {act : Act σ α} {s t : σ} {a : α} {fault : Fault}
  {done done' : α → σ → Prop} {failed failed' : Fault → σ → Prop}

theorem Meets.of_ok (meets : act.Meets s done failed) (run : act s = .ok a t) : done a t := by
  simpa only [Meets, run] using meets

theorem Meets.of_error (meets : act.Meets s done failed) (run : act s = .error fault t) :
    failed fault t := by
  simpa only [Meets, run] using meets

theorem meets_iff : act.Meets s done failed ↔
    (∀ a t, act s = .ok a t → done a t) ∧ ∀ fault t, act s = .error fault t → failed fault t := by
  constructor
  · intro meets
    exact ⟨fun _ _ => meets.of_ok, fun _ _ => meets.of_error⟩
  · rintro ⟨ok, error⟩
    unfold Meets
    split
    · next run => exact ok _ _ run
    · next run => exact error _ _ run

theorem Meets.mono (meets : act.Meets s done failed) (ok : ∀ a t, done a t → done' a t)
    (error : ∀ fault t, failed fault t → failed' fault t) : act.Meets s done' failed' := by
  rw [meets_iff] at meets ⊢
  exact ⟨fun a t run => ok a t (meets.1 a t run), fun f t run => error f t (meets.2 f t run)⟩

theorem Meets.and (left : act.Meets s done failed) (right : act.Meets s done' failed') :
    act.Meets s (fun a t => done a t ∧ done' a t)
      fun fault t => failed fault t ∧ failed' fault t := by
  rw [meets_iff] at left right ⊢
  exact ⟨fun a t run => ⟨left.1 a t run, right.1 a t run⟩,
    fun fault t run => ⟨left.2 fault t run, right.2 fault t run⟩⟩

/-- An act that cannot fail yields a value. -/
theorem Meets.exists_ok (meets : act.Meets s done fun _ _ => False) :
    ∃ a t, act s = .ok a t ∧ done a t := by
  unfold Meets at meets
  split at meets
  · next a t run => exact ⟨a, t, run, meets⟩
  · exact meets.elim

/-- What holds of a state however an act ends holds of the one that it leaves. -/
theorem Meets.leaves {after : σ → Prop}
    (meets : act.Meets s (fun _ => after) fun _ => after) : after (act.leaves s) := by
  unfold Meets at meets
  unfold Act.leaves
  cases run : act s with
  | ok a t => rwa [run] at meets
  | error fault t => rwa [run] at meets

end

variable {s : σ} {failed : Fault → σ → Prop}

@[simp] theorem meets_pure {a : α} {done : α → σ → Prop} :
    (pure a : Act σ α).Meets s done failed ↔ done a s := Iff.rfl

@[simp] theorem meets_throw {fault : Fault} {done : α → σ → Prop} :
    (throw fault : Act σ α).Meets s done failed ↔ failed fault s := Iff.rfl

@[simp] theorem meets_get {done : σ → σ → Prop} :
    (get : Act σ σ).Meets s done failed ↔ done s s := Iff.rfl

@[simp] theorem meets_set {t : σ} {done : PUnit → σ → Prop} :
    (set t : Act σ PUnit).Meets s done failed ↔ done ⟨⟩ t := Iff.rfl

@[simp] theorem meets_modify {update : σ → σ} {done : PUnit → σ → Prop} :
    (modify update : Act σ PUnit).Meets s done failed ↔ done ⟨⟩ (update s) := Iff.rfl

@[simp] theorem meets_bind {act : Act σ α} {next : α → Act σ β} {done : β → σ → Prop} :
    (act >>= next).Meets s done failed ↔
      act.Meets s (fun a t => (next a).Meets t done failed) failed := by
  change Meets (EStateM.bind act next) s done failed ↔ _
  unfold Meets EStateM.bind
  cases act s <;> rfl

@[simp] theorem meets_map {f : α → β} {act : Act σ α} {done : β → σ → Prop} :
    (f <$> act).Meets s done failed ↔ act.Meets s (fun a => done (f a)) failed := by
  change (match EStateM.map f act s with | .ok a t => done a t | .error fault t => _) ↔ _
  unfold Meets EStateM.map
  cases act s <;> rfl

@[simp] theorem meets_ofExcept {result : Except Fault α} {done : α → σ → Prop} :
    (ofExcept result : Act σ α).Meets s done failed ↔
      match result with
      | .ok a => done a s
      | .error fault => failed fault s := by
  cases result <;> rfl

@[simp] theorem meets_within {part : σ → τ} {update : τ → σ → σ} {act : Act τ α}
    {done : α → σ → Prop} :
    (within part update act).Meets s done failed ↔
      act.Meets (part s) (fun a t => done a (update t s))
        fun fault t => failed fault (update t s) := by
  unfold Meets within
  cases act (part s) <;> rfl

@[simp] theorem meets_outcome {act : Act σ α} {done : Except Fault α → σ → Prop} :
    act.outcome.Meets s done failed ↔
      act.Meets s (fun a => done (.ok a)) fun fault => done (.error fault) := by
  unfold Meets outcome
  cases act s <;> rfl

@[simp] theorem meets_onFault {act : Act σ α} {cleanup : Act σ Unit} {done : α → σ → Prop} :
    (act.onFault cleanup).Meets s done failed ↔
      act.Meets s done fun fault t => cleanup.Meets t (fun _ => failed fault) failed := by
  unfold Meets onFault
  cases act s with
  | ok a t => rfl
  | error fault t => cases h : cleanup t <;> simp only [h]

end Act

end Catwalk
