import Mathlib.Data.Nat.Notation
import Mathlib.Logic.Function.Iterate
import Mathlib.Tactic.Choose

/-!
# Loops that draw

A loop whose body draws something at random in every round and may raise.  It
ends normally with some draws, with all of them, or, if whoever draws can keep
it going, not with all of them.
-/

namespace Mmog.Ruby

section Drawing

variable {σ δ ε : Type*} (goes : σ → Prop) (body : δ → σ → Except ε σ)

/-- With these draws the loop goes on for this many rounds and then ends normally in the state. -/
def EndsAfter : (ℕ → δ) → ℕ → σ → σ → Prop
  | _, 0, state, final => ¬goes state ∧ state = final
  | draws, n + 1, state, final =>
      goes state ∧ ∃ next, body (draws 0) state = .ok next ∧ EndsAfter (fun i => draws (i + 1)) n next final

variable {goes body}

/-- What every round keeps holds in the end. -/
theorem EndsAfter.keeps {Inv : σ → Prop}
    (hstep : ∀ draw state next, Inv state → goes state → body draw state = .ok next → Inv next)
    {draws : ℕ → δ} {n : ℕ} {state final : σ} (hinv : Inv state)
    (hends : EndsAfter goes body draws n state final) : Inv final ∧ ¬goes final := by
  induction n generalizing draws state with
  | zero =>
      obtain ⟨hstops, rfl⟩ := hends
      exact ⟨hinv, hstops⟩
  | succ n ih =>
      obtain ⟨hgoes, next, hnext, hrest⟩ := hends
      exact ih (hstep _ state next hinv hgoes hnext) hrest

/-- The loop ends whatever is drawn if no round raises and every one lowers a measure. -/
theorem exists_endsAfter (Inv : σ → Prop) (measure : σ → ℕ)
    (hstep : ∀ draw state, Inv state → goes state →
      ∃ next, body draw state = .ok next ∧ Inv next ∧ measure next < measure state)
    {state : σ} (hinv : Inv state) (draws : ℕ → δ) :
    ∃ n final, EndsAfter goes body draws n state final ∧ Inv final := by
  classical
  induction hbound : measure state using Nat.strongRecOn generalizing state draws with
  | _ bound ih =>
      by_cases hgoes : goes state
      · obtain ⟨next, hnext, hinv', hless⟩ := hstep (draws 0) state hinv hgoes
        obtain ⟨n, final, hends, hfinal⟩ := ih (measure next) (hbound ▸ hless) hinv' (fun i => draws (i + 1)) rfl
        exact ⟨n + 1, final, ⟨hgoes, next, hnext, hends⟩, hfinal⟩
      · exact ⟨0, state, ⟨hgoes, rfl⟩, hinv⟩

/-- The loop does not end with all draws if one can always draw something that keeps it going. -/
theorem exists_endless [Nonempty δ] (Inv : σ → Prop) (hgoes : ∀ state, Inv state → goes state)
    (hdraw : ∀ state, Inv state → ∃ draw, ∀ next, body draw state = .ok next → Inv next)
    {state : σ} (hinv : Inv state) :
    ∃ draws, ∀ n final, ¬EndsAfter goes body draws n state final := by
  classical
  choose! draw hdraw using hdraw
  -- the states that these draws lead through
  let after (state : σ) : σ := match body (draw state) state with
    | .ok next => next
    | .error _ => state
  refine ⟨fun i => draw (after^[i] state), fun n => ?_⟩
  induction n generalizing state with
  | zero =>
      rintro final ⟨hstops, -⟩
      exact hstops (hgoes state hinv)
  | succ n ih =>
      rintro final ⟨-, next, hnext, hrest⟩
      have hafter : after state = next := by
        change (match body (draw state) state with | .ok next => next | .error _ => state) = next
        rw [show body (draw state) state = .ok next from hnext]
      have hshift : (fun i => draw (after^[i + 1] state)) = fun i => draw (after^[i] next) := by
        funext i
        rw [Function.iterate_succ_apply, hafter]
      rw [hshift] at hrest
      exact ih (hdraw state hinv next hnext) final hrest

end Drawing

end Mmog.Ruby
