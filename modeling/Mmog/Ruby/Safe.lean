import Mmog.Ruby.Action

/-!
# Actions that keep an invariant

An action is safe if it keeps an invariant of the state, whether it returns or
raises, and what it returns has a property.  One rule for each way in which
actions are put together.
-/

namespace Mmog.Ruby.Action

variable {ε σ α β : Type} {I : σ → Prop}

/-- The action keeps `I`, and what it returns is `φ`. -/
def Safe (I : σ → Prop) (action : Action ε σ α) (φ : α → Prop) : Prop :=
  ∀ state, I state → I (after (action.run state)) ∧ ∀ value, value? (action.run state) = some value → φ value

/-- Nothing is known of the value. -/
def anything (_ : α) : Prop := True

namespace Safe

theorem after {action : Action ε σ α} {φ : α → Prop} (hsafe : Safe I action φ) {state : σ}
    (hinv : I state) : I (after (action.run state)) :=
  (hsafe state hinv).1

theorem pure {value : α} {φ : α → Prop} (hvalue : φ value) :
    Safe I (Pure.pure value : Action ε σ α) φ := by
  intro state hinv
  refine ⟨hinv, fun found hfound => ?_⟩
  cases hfound
  exact hvalue

theorem throw (err : ε) (φ : α → Prop) : Safe I (MonadExcept.throw err : Action ε σ α) φ := by
  intro state hinv
  refine ⟨hinv, fun found hfound => ?_⟩
  cases hfound

theorem get : Safe I (MonadState.get : Action ε σ σ) I := by
  intro state hinv
  refine ⟨hinv, fun found hfound => ?_⟩
  cases hfound
  exact hinv

theorem modify {change : σ → σ} (hchange : ∀ state, I state → I (change state)) :
    Safe I (modify change : Action ε σ PUnit) anything :=
  fun state hinv => ⟨hchange state hinv, fun _ _ => trivial⟩

theorem set {state : σ} (hinv : I state) : Safe I (set state : Action ε σ PUnit) anything :=
  fun _ _ => ⟨hinv, fun _ _ => trivial⟩

theorem bind {action : Action ε σ α} {next : α → Action ε σ β} {φ : α → Prop} {ψ : β → Prop}
    (haction : Safe I action φ) (hnext : ∀ value, φ value → Safe I (next value) ψ) :
    Safe I (action >>= next) ψ := by
  intro state hinv
  obtain ⟨hmiddle, hvalue⟩ := haction state hinv
  rw [run_bind]
  cases hres : action.run state with
  | ok value middle =>
      rw [hres] at hmiddle hvalue
      exact hnext value (hvalue value rfl) middle hmiddle
  | error err middle =>
      rw [hres] at hmiddle
      refine ⟨hmiddle, fun found hfound => ?_⟩
      cases hfound

/-- What follows a safe action may leave `I` for `J`, if raising in `I` is good enough for `J`. -/
theorem after_bind {J : σ → Prop} {action : Action ε σ α} {next : α → Action ε σ β} {φ : α → Prop}
    (haction : Safe I action φ) {state : σ} (hinv : I state) (hraised : ∀ middle, I middle → J middle)
    (hnext : ∀ value middle, φ value → I middle → J (Action.after ((next value).run middle))) :
    J (Action.after ((action >>= next).run state)) := by
  obtain ⟨hmiddle, hvalue⟩ := haction state hinv
  rw [run_bind]
  cases hres : action.run state with
  | ok value middle =>
      rw [hres] at hmiddle hvalue
      exact hnext value middle (hvalue value rfl) hmiddle
  | error err middle =>
      rw [hres] at hmiddle
      exact hraised middle hmiddle

theorem throw_bind (err : ε) (next : α → Action ε σ β) (ψ : β → Prop) :
    Safe I ((MonadExcept.throw err : Action ε σ α) >>= next) ψ :=
  (throw err fun _ => False).bind fun _ hfalse => hfalse.elim

theorem map {action : Action ε σ α} {f : α → β} {φ : α → Prop} {ψ : β → Prop}
    (haction : Safe I action φ) (hf : ∀ value, φ value → ψ (f value)) :
    Safe I (f <$> action) ψ := by
  intro state hinv
  obtain ⟨hmiddle, hvalue⟩ := haction state hinv
  rw [run_map]
  cases hres : action.run state with
  | ok value middle =>
      rw [hres] at hmiddle hvalue
      refine ⟨hmiddle, fun found hfound => ?_⟩
      cases hfound
      exact hf value (hvalue value rfl)
  | error err middle =>
      rw [hres] at hmiddle
      refine ⟨hmiddle, fun found hfound => ?_⟩
      cases hfound

theorem tryCatch {action : Action ε σ α} {rescue : ε → Action ε σ α} {φ : α → Prop}
    (haction : Safe I action φ) (hrescue : ∀ err, Safe I (rescue err) φ) :
    Safe I (MonadExcept.tryCatch action rescue) φ := by
  intro state hinv
  obtain ⟨hmiddle, hvalue⟩ := haction state hinv
  rw [run_tryCatch]
  cases hres : action.run state with
  | ok value middle =>
      rw [hres] at hmiddle hvalue
      exact ⟨hmiddle, hvalue⟩
  | error err middle =>
      rw [hres] at hmiddle
      exact hrescue err middle hmiddle

theorem pureNone {φ : α → Prop} :
    Safe I (Pure.pure none : Action ε σ (Option α)) fun found => ∀ value ∈ found, φ value :=
  pure fun value hmem => absurd hmem (Option.not_mem_none value)

theorem mapSome {action : Action ε σ α} {φ : α → Prop} (haction : Safe I action φ) :
    Safe I (some <$> action) fun found => ∀ value ∈ found, φ value :=
  haction.map fun _ hvalue _ hfound => Option.some.inj hfound ▸ hvalue

/-- An action that is tried, with nothing if it raises. -/
theorem attempt {action : Action ε σ α} {φ : α → Prop} (haction : Safe I action φ) :
    Safe I (MonadExcept.tryCatch (some <$> action) fun _ => Pure.pure none : Action ε σ (Option α))
      fun found => ∀ value ∈ found, φ value :=
  tryCatch haction.mapSome fun _ => pureNone

theorem ite {condition : Prop} [Decidable condition] {yes no : Action ε σ α} {φ : α → Prop}
    (hyes : condition → Safe I yes φ) (hno : ¬ condition → Safe I no φ) :
    Safe I (if condition then yes else no) φ := by
  split
  · exact hyes ‹_›
  · exact hno ‹_›

theorem weaken {action : Action ε σ α} {φ ψ : α → Prop} (hsafe : Safe I action φ)
    (himp : ∀ value, φ value → ψ value) : Safe I action ψ :=
  fun state hinv => ⟨(hsafe state hinv).1, fun value hvalue => himp value ((hsafe state hinv).2 value hvalue)⟩

theorem forget {action : Action ε σ α} {φ : α → Prop} (hsafe : Safe I action φ) :
    Safe I action anything :=
  hsafe.weaken fun _ _ => trivial

/-- An action that only reads. -/
theorem reads {action : Action ε σ α} (hreads : ∀ state, Action.after (action.run state) = state) :
    Safe I action anything := by
  intro state hinv
  refine ⟨?_, fun _ _ => trivial⟩
  rw [hreads]
  exact hinv

theorem forM {l : List α} {f : α → Action ε σ PUnit} {φ : PUnit → Prop}
    (hall : ∀ a ∈ l, Safe I (f a) φ) : Safe I (l.forM f) anything := by
  induction l with
  | nil => exact pure trivial
  | cons a l ih =>
      change Safe I (f a >>= fun _ => l.forM f) anything
      exact (hall a List.mem_cons_self).bind fun _ _ =>
        ih fun b hb => hall b (List.mem_cons_of_mem a hb)

theorem mapM {l : List α} {f : α → Action ε σ β} {φ : β → Prop}
    (hall : ∀ a ∈ l, Safe I (f a) φ) : Safe I (l.mapM f) fun bs => ∀ b ∈ bs, φ b := by
  induction l with
  | nil =>
      rw [List.mapM_nil]
      exact pure (List.forall_mem_nil _)
  | cons a l ih =>
      rw [List.mapM_cons]
      refine (hall a List.mem_cons_self).bind fun b hb => ?_
      refine (ih fun b hb => hall b (List.mem_cons_of_mem a hb)).bind fun bs hbs => ?_
      exact pure (List.forall_mem_cons.mpr ⟨hb, hbs⟩)

theorem foldlM {l : List α} {f : β → α → Action ε σ β} {φ : β → Prop} {start : β} (hstart : φ start)
    (hstep : ∀ acc, ∀ a ∈ l, φ acc → Safe I (f acc a) φ) : Safe I (l.foldlM f start) φ := by
  induction l generalizing start with
  | nil => exact pure hstart
  | cons a l ih =>
      rw [List.foldlM_cons]
      refine (hstep start a List.mem_cons_self hstart).bind fun acc hacc => ?_
      exact ih hacc fun acc b hb => hstep acc b (List.mem_cons_of_mem a hb)

/-- Nothing is asked of the state. -/
theorem always (action : Action ε σ α) : Safe (fun _ => True) action anything :=
  fun _ _ => ⟨trivial, fun _ _ => trivial⟩

end Safe

/-! ## Loops -/

/-- A loop keeps an invariant of the state and the rest of the list, up to the empty one, and what
follows it leads to `J`, as does raising. -/
theorem after_forM_bind {I : List α → σ → Prop} {J : σ → Prop} {l : List α} {f : α → Action ε σ PUnit}
    {next : PUnit → Action ε σ β}
    (hok : ∀ a rest state middle, I (a :: rest) state → (f a).run state = .ok ⟨⟩ middle → I rest middle)
    (herror : ∀ a rest state err middle, I (a :: rest) state → (f a).run state = .error err middle → J middle)
    (hnext : ∀ state, I [] state → J (after ((next ⟨⟩).run state)))
    {state : σ} (hinv : I l state) : J (after ((l.forM f >>= next).run state)) := by
  induction l generalizing state with
  | nil => exact hnext state hinv
  | cons a l ih =>
      change J (after (((f a >>= fun _ => l.forM f) >>= next).run state))
      rw [bind_assoc, run_bind]
      cases hres : (f a).run state with
      | ok value middle => exact ih (hok a l state middle hinv hres)
      | error err middle => exact herror a l state err middle hinv hres

end Mmog.Ruby.Action
