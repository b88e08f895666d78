import Mmog.Ruby.Run
import Mathlib.Data.List.Basic

/-!
# The states of a run

The states that a run comes to on its way.  An invariant may speak about them,
for what a run has come to once it does not unmake.
-/

namespace Mmog.Ruby

variable {σ ε : Type*} {step : σ → ε → Option σ} {start state final : σ} {events : List ε}

/-- The state is that of the run after some of its events. -/
def Visits (step : σ → ε → Option σ) (start : σ) (events : List ε) (state : σ) : Prop :=
  ∃ past, past <+: events ∧ run step start past = some state

theorem Visits.of_append {past future : List ε} (hrun : run step start past = some state) :
    Visits step start (past ++ future) state :=
  ⟨past, List.prefix_append past future, hrun⟩

/-- An invariant that may mention the states of the run. -/
theorem run_visits {Inv : σ → Prop}
    (hstep : ∀ state event next, Visits step start events state → Visits step start events next → Inv state →
      step state event = some next → Inv next)
    (hinv : Inv start) (hrun : run step start events = some final) : Inv final := by
  suffices hall : ∀ future past state, past ++ future = events → run step start past = some state → Inv state →
      run step state future = some final → Inv final from hall events [] start rfl rfl hinv hrun
  intro future
  induction future with
  | nil =>
      intro past state _ _ hstate hfinal
      cases hfinal
      exact hstate
  | cons event future ih =>
      intro past state hsplit hpast hstate hfinal
      obtain ⟨next, hnext, hrest⟩ := run_cons hfinal
      have hlonger : run step start (past ++ [event]) = some next := by
        rw [run_append, hpast, Option.bind_some, run, hnext]
        rfl
      have hsplit' : past ++ [event] ++ future = events := by
        rw [List.append_assoc, List.singleton_append, hsplit]
      have hvisits : Visits step start events state := hsplit ▸ Visits.of_append hpast
      have hvisits' : Visits step start events next := hsplit' ▸ Visits.of_append hlonger
      exact ih (past ++ [event]) next hsplit' hlonger (hstep state event next hvisits hvisits' hstate hnext) hrest

end Mmog.Ruby
