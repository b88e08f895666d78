import Mathlib.Logic.Basic

/-!
# Actions

An action reads and writes a state and either returns or raises.  What it wrote
before it raised stays written, and a rescue goes on from there.
-/

namespace Mmog.Ruby

abbrev Action (ε σ : Type) := EStateM ε σ

namespace Action

variable {ε σ α β : Type}

/-- The state an action leaves behind, whether it returns or raises. -/
def after : EStateM.Result ε σ α → σ
  | .ok _ state => state
  | .error _ state => state

/-- What an action returns, if it does. -/
def value? : EStateM.Result ε σ α → Option α
  | .ok value _ => some value
  | .error _ _ => none

/-- The action returned. -/
def returned : EStateM.Result ε σ α → Bool
  | .ok _ _ => true
  | .error _ _ => false

@[simp] theorem after_ok (value : α) (state : σ) :
    after (.ok value state : EStateM.Result ε σ α) = state := rfl
@[simp] theorem after_error (err : ε) (state : σ) :
    after (.error err state : EStateM.Result ε σ α) = state := rfl
@[simp] theorem returned_ok (value : α) (state : σ) :
    returned (.ok value state : EStateM.Result ε σ α) = true := rfl
@[simp] theorem returned_error (err : ε) (state : σ) :
    returned (.error err state : EStateM.Result ε σ α) = false := rfl

theorem exists_of_returned {result : EStateM.Result ε σ α} (hreturned : returned result = true) :
    ∃ value, result = .ok value (after result) := by
  cases result with
  | ok value state => exact ⟨value, rfl⟩
  | error err state => cases hreturned

theorem eq_ok_of_value? {result : EStateM.Result ε σ α} {value : α}
    (hvalue : value? result = some value) : result = .ok value (after result) := by
  cases result with
  | ok value' state =>
      cases hvalue
      rfl
  | error err state => cases hvalue

/-! ## Evaluation -/

@[simp] theorem run_pure (value : α) (state : σ) :
    (pure value : Action ε σ α).run state = .ok value state := rfl

@[simp] theorem run_get (state : σ) : (get : Action ε σ σ).run state = .ok state state := rfl

@[simp] theorem run_modify (change : σ → σ) (state : σ) :
    (modify change : Action ε σ PUnit).run state = .ok ⟨⟩ (change state) := rfl

@[simp] theorem run_throw (err : ε) (state : σ) :
    (throw err : Action ε σ α).run state = .error err state := rfl

theorem run_bind (action : Action ε σ α) (next : α → Action ε σ β) (state : σ) :
    (action >>= next).run state = match action.run state with
      | .ok value state' => (next value).run state'
      | .error err state' => .error err state' := rfl

@[simp] theorem run_bind_pure (value : α) (next : α → Action ε σ β) (state : σ) :
    (pure value >>= next).run state = (next value).run state := rfl

@[simp] theorem run_bind_get (next : σ → Action ε σ β) (state : σ) :
    (get >>= next).run state = (next state).run state := rfl

@[simp] theorem run_bind_modify (change : σ → σ) (next : PUnit → Action ε σ β) (state : σ) :
    (modify change >>= next).run state = (next ⟨⟩).run (change state) := rfl

@[simp] theorem run_bind_throw (err : ε) (next : α → Action ε σ β) (state : σ) :
    (throw err >>= next).run state = .error err state := rfl

theorem run_bind_of_ok {action : Action ε σ α} {state state' : σ} {value : α}
    (hok : action.run state = .ok value state') (next : α → Action ε σ β) :
    (action >>= next).run state = (next value).run state' := by
  rw [run_bind, hok]

theorem run_bind_of_error {action : Action ε σ α} {state state' : σ} {err : ε}
    (herror : action.run state = .error err state') (next : α → Action ε σ β) :
    (action >>= next).run state = .error err state' := by
  rw [run_bind, herror]

/-- What only changes the value of an action leaves the same state behind. -/
theorem after_bind_pure (action : Action ε σ α) (f : α → β) (state : σ) :
    after ((action >>= fun value => pure (f value)).run state) = after (action.run state) := by
  rw [run_bind]
  cases action.run state <;> rfl

theorem run_map (action : Action ε σ α) (f : α → β) (state : σ) :
    (f <$> action).run state = match action.run state with
      | .ok value state' => .ok (f value) state'
      | .error err state' => .error err state' := rfl

theorem run_map_of_ok {action : Action ε σ α} {state state' : σ} {value : α}
    (hok : action.run state = .ok value state') (f : α → β) :
    (f <$> action).run state = .ok (f value) state' := by
  rw [run_map, hok]

theorem run_tryCatch (action : Action ε σ α) (rescue : ε → Action ε σ α) (state : σ) :
    (tryCatch action rescue : Action ε σ α).run state = match action.run state with
      | .ok value state' => .ok value state'
      | .error err state' => (rescue err).run state' := by
  change EStateM.tryCatch action rescue state = _
  delta EStateM.tryCatch EStateM.run
  cases action state <;> rfl

/-! ## Inversion -/

theorem run_bind_eq_ok {action : Action ε σ α} {next : α → Action ε σ β} {state final : σ}
    {result : β} (hok : (action >>= next).run state = .ok result final) :
    ∃ value middle, action.run state = .ok value middle ∧
      (next value).run middle = .ok result final := by
  rw [run_bind] at hok
  cases haction : action.run state with
  | ok value middle =>
      rw [haction] at hok
      exact ⟨value, middle, rfl, hok⟩
  | error err middle =>
      rw [haction] at hok
      cases hok

end Action

/-- A fold that does not fail keeps what its steps keep. -/
theorem foldlM_keeps {ε α β : Type} {step : β → α → Except ε β} {φ : β → Prop}
    (hstep : ∀ acc a next, φ acc → step acc a = .ok next → φ next) (l : List α) {start final : β} (hstart : φ start)
    (hfinal : l.foldlM step start = .ok final) : φ final := by
  induction l generalizing start with
  | nil =>
      cases hfinal
      exact hstart
  | cons a l ih =>
      rw [List.foldlM_cons] at hfinal
      cases hnext : step start a with
      | error err =>
          rw [hnext] at hfinal
          cases hfinal
      | ok next =>
          rw [hnext] at hfinal
          exact ih (hstep start a next hstart hnext) hfinal

end Mmog.Ruby
