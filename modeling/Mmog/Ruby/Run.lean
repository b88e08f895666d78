import Mathlib.Algebra.Order.Monoid.Defs

/-!
# Runs

Runs of a machine whose step may refuse an event.  An invariant that every
step with an admissible event keeps holds after every run of such steps, and a
quantity that every step changes by a known amount changes by the sum.
-/

namespace Mmog.Ruby

section Run

variable {σ ε : Type*} (step : σ → ε → Option σ)

/-- The state after a list of events, if every one of them is a step. -/
def run : σ → List ε → Option σ
  | state, [] => some state
  | state, event :: events => (step state event).bind fun next => run next events

/-- Every event of the run is admissible in the state in which it happens. -/
def Along (good : σ → ε → Prop) : σ → List ε → Prop
  | _, [] => True
  | state, event :: events =>
      good state event ∧ ∀ next, step state event = some next → Along good next events

instance Along.decidable (good : σ → ε → Prop) [∀ state event, Decidable (good state event)] :
    ∀ state events, Decidable (Along step good state events)
  | _, [] => .isTrue trivial
  | state, event :: events =>
      have : Decidable (∀ next, step state event = some next → Along step good next events) :=
        match step state event with
        | none => .isTrue nofun
        | some next =>
            have := Along.decidable good next events
            decidable_of_iff (Along step good next events)
              ⟨fun hgood _ heq => Option.some.inj heq ▸ hgood, fun hall => hall next rfl⟩
      inferInstanceAs (Decidable (_ ∧ _))

/-- The sum of what the events of a run are worth. -/
def sumAlong {μ : Type*} [AddMonoid μ] (worth : σ → ε → μ) : σ → List ε → μ
  | _, [] => 0
  | state, event :: events =>
      worth state event + ((step state event).map fun next => sumAlong worth next events).getD 0

/-- What the events of a run leave in a log, in order. -/
def collect {ρ : Type*} (record : σ → ε → List ρ) : σ → List ε → List ρ
  | _, [] => []
  | state, event :: events =>
      record state event ++ ((step state event).map fun next => collect record next events).getD []

variable {step}

/-- A machine that remembers more runs as the one that remembers less. -/
theorem map_run {σ' : Type*} {step' : σ' → ε → Option σ'} (f : σ → σ')
    (hstep : ∀ state event, (step state event).map f = step' (f state) event) (state : σ) (events : List ε) :
    (run step state events).map f = run step' (f state) events := by
  induction events generalizing state with
  | nil => rfl
  | cons event events ih =>
      rw [run, run, ← hstep]
      cases step state event with
      | none => rfl
      | some next => exact ih next

/-- What holds of every event holds along the run. -/
theorem along_of_forall {good : ε → Prop} {state : σ} {events : List ε}
    (hall : ∀ event ∈ events, good event) : Along step (fun _ event => good event) state events := by
  induction events generalizing state with
  | nil => trivial
  | cons event events ih =>
      exact ⟨hall event List.mem_cons_self,
        fun _ _ => ih fun other hother => hall other (List.mem_cons_of_mem event hother)⟩

theorem Along.and {good better : σ → ε → Prop} {state : σ} {events : List ε}
    (hgood : Along step good state events) (hbetter : Along step better state events) :
    Along step (fun state event => good state event ∧ better state event) state events := by
  induction events generalizing state with
  | nil => trivial
  | cons event events ih =>
      exact ⟨⟨hgood.1, hbetter.1⟩, fun next hnext => ih (hgood.2 next hnext) (hbetter.2 next hnext)⟩

/-- What an invariant and admissible events imply of every step holds along the run. -/
theorem Along.of_invariant {good better : σ → ε → Prop} (Inv : σ → Prop)
    (hstep : ∀ state event next, Inv state → good state event → step state event = some next → Inv next)
    (hbetter : ∀ state event, Inv state → good state event → better state event)
    {state : σ} {events : List ε} (hinv : Inv state) (hgood : Along step good state events) :
    Along step better state events := by
  induction events generalizing state with
  | nil => trivial
  | cons event events ih =>
      refine ⟨hbetter state event hinv hgood.1, fun next hnext => ?_⟩
      exact ih (hstep state event next hinv hgood.1 hnext) (hgood.2 next hnext)

/-- The machine with a memory that is kept up with every step. -/
def remembering {μ : Type*} (step : σ → ε → Option σ) (note : σ → ε → μ → μ) (state : σ × μ) (event : ε) :
    Option (σ × μ) :=
  (step state.1 event).map fun next => (next, note state.1 event state.2)

/-- A memory that is linked to the state helps to tell which events are admissible. -/
theorem Along.of_remembering {μ : Type*} {note : σ → ε → μ → μ} {good : σ × μ → ε → Prop} {better : σ → ε → Prop}
    (Inv : σ → μ → Prop)
    (hstep : ∀ state memory event next, Inv state memory → good (state, memory) event →
      step state event = some next → Inv next (note state event memory))
    (hbetter : ∀ state memory event, Inv state memory → good (state, memory) event → better state event)
    {state : σ} {memory : μ} {events : List ε} (hinv : Inv state memory)
    (hgood : Along (remembering step note) good (state, memory) events) : Along step better state events := by
  induction events generalizing state memory with
  | nil => trivial
  | cons event events ih =>
      refine ⟨hbetter state memory event hinv hgood.1, fun next hnext => ?_⟩
      have hremembered : remembering step note (state, memory) event = some (next, note state event memory) := by
        rw [remembering, hnext, Option.map_some]
      exact ih (hstep state memory event next hinv hgood.1 hnext) (hgood.2 _ hremembered)

theorem run_cons {state final : σ} {event : ε} {events : List ε}
    (hrun : run step state (event :: events) = some final) :
    ∃ next, step state event = some next ∧ run step next events = some final :=
  Option.bind_eq_some_iff.mp hrun

theorem run_append (state : σ) (past future : List ε) :
    run step state (past ++ future) = (run step state past).bind fun mid => run step mid future := by
  induction past generalizing state with
  | nil => rfl
  | cons event past ih =>
      rw [List.cons_append, run, run]
      cases step state event with
      | none => rfl
      | some next => exact ih next

/-- An event is admissible along the run exactly if it is after everything that may come before it. -/
theorem along_iff {good : σ → ε → Prop} {state : σ} {events : List ε} :
    Along step good state events ↔
      ∀ past event future, events = past ++ event :: future →
        ∀ mid, run step state past = some mid → good mid event := by
  induction events generalizing state with
  | nil =>
      refine iff_of_true trivial fun past event future hsplit => ?_
      exact absurd hsplit.symm (List.append_ne_nil_of_right_ne_nil past (List.cons_ne_nil event future))
  | cons first events ih =>
      constructor
      · rintro ⟨hgood, hrest⟩ past event future hsplit mid hmid
        cases past with
        | nil =>
            obtain ⟨rfl, -⟩ := List.cons_eq_cons.mp hsplit
            cases hmid
            exact hgood
        | cons other past =>
            obtain ⟨rfl, htail⟩ := List.cons_eq_cons.mp hsplit
            obtain ⟨next, hnext, hlater⟩ := run_cons hmid
            exact ih.mp (hrest next hnext) past event future htail mid hlater
      · intro hall
        refine ⟨hall [] first events rfl state rfl, fun next hnext => ih.mpr ?_⟩
        intro past event future hsplit mid hmid
        apply hall (first :: past) event future (congrArg (first :: ·) hsplit)
        rw [run, hnext]
        exact hmid

theorem Along.of_append {good : σ → ε → Prop} {state : σ} {past future : List ε}
    (hgood : Along step good state (past ++ future)) : Along step good state past := by
  rw [along_iff] at hgood ⊢
  rintro first event rest rfl
  exact hgood first event (rest ++ future) (by rw [List.append_assoc, List.cons_append])

/-- What every admissible step keeps, every run of admissible steps keeps. -/
theorem run_keeps {good : σ → ε → Prop} (Inv : σ → Prop)
    (hstep : ∀ state event next, Inv state → good state event →
      step state event = some next → Inv next)
    {state final : σ} {events : List ε} (hinv : Inv state) (hgood : Along step good state events)
    (hrun : run step state events = some final) :
    Inv final := by
  induction events generalizing state with
  | nil =>
      cases hrun
      exact hinv
  | cons event events ih =>
      obtain ⟨next, hnext, hrest⟩ := run_cons hrun
      exact ih (hstep state event next hinv hgood.1 hnext) (hgood.2 next hnext) hrest

/-- What every step keeps, every run keeps. -/
theorem run_invariant {Inv : σ → Prop}
    (hstep : ∀ state event next, Inv state → step state event = some next → Inv next)
    {state final : σ} {events : List ε} (hinv : Inv state)
    (hrun : run step state events = some final) :
    Inv final := by
  induction events generalizing state with
  | nil =>
      cases hrun
      exact hinv
  | cons event events ih =>
      obtain ⟨next, hnext, hrest⟩ := run_cons hrun
      exact ih (hstep state event next hinv hnext) hrest

/-- What every admissible step keeps of the log so far and the state, every run keeps. -/
theorem run_collects {ρ : Type*} {record : σ → ε → List ρ} {good : σ → ε → Prop}
    (Inv : List ρ → σ → Prop)
    (hstep : ∀ log state event next, Inv log state → good state event →
      step state event = some next → Inv (log ++ record state event) next)
    {log : List ρ} {state final : σ} {events : List ε} (hinv : Inv log state)
    (hgood : Along step good state events) (hrun : run step state events = some final) :
    Inv (log ++ collect step record state events) final := by
  induction events generalizing log state with
  | nil =>
      cases hrun
      rw [collect, List.append_nil]
      exact hinv
  | cons event events ih =>
      obtain ⟨next, hnext, hrest⟩ := run_cons hrun
      have hlog := ih (hstep log state event next hinv hgood.1 hnext) (hgood.2 next hnext) hrest
      rw [collect, hnext, Option.map_some, Option.getD_some, ← List.append_assoc]
      exact hlog

/-- A quantity that every step changes by the worth of its event changes over a run by the sum. -/
theorem run_sums {μ : Type*} [AddMonoid μ] {good : σ → ε → Prop} {Inv : σ → Prop}
    {quantity : σ → μ} {worth : σ → ε → μ}
    (hstep : ∀ state event next, Inv state → good state event →
      step state event = some next →
        Inv next ∧ quantity next = quantity state + worth state event)
    {state final : σ} {events : List ε} (hinv : Inv state) (hgood : Along step good state events)
    (hrun : run step state events = some final) :
    quantity final = quantity state + sumAlong step worth state events := by
  induction events generalizing state with
  | nil =>
      cases hrun
      exact (add_zero _).symm
  | cons event events ih =>
      obtain ⟨next, hnext, hrest⟩ := run_cons hrun
      obtain ⟨hinv', hworth⟩ := hstep state event next hinv hgood.1 hnext
      rw [ih hinv' (hgood.2 next hnext) hrest, hworth, add_assoc, sumAlong, hnext]
      rfl

/-- A quantity that no step raises by more than the worth of its event. -/
theorem run_sums_le {μ : Type*} [AddCommMonoid μ] [PartialOrder μ] [IsOrderedAddMonoid μ] {Inv : σ → Prop}
    {quantity : σ → μ} {worth : σ → ε → μ}
    (hstep : ∀ state event next, Inv state → step state event = some next →
      Inv next ∧ quantity next ≤ quantity state + worth state event)
    {state final : σ} {events : List ε} (hinv : Inv state) (hrun : run step state events = some final) :
    quantity final ≤ quantity state + sumAlong step worth state events := by
  induction events generalizing state with
  | nil =>
      cases hrun
      exact (add_zero _).ge
  | cons event events ih =>
      obtain ⟨next, hnext, hrest⟩ := run_cons hrun
      obtain ⟨hinv', hworth⟩ := hstep state event next hinv hnext
      rw [sumAlong, hnext, Option.map_some, Option.getD_some, ← add_assoc]
      exact (ih hinv' hrest).trans (add_le_add_left hworth _)

/-- What a run uses up of a potential is at most what was there and what it adds. -/
theorem run_drains {μ : Type*} [AddCommMonoid μ] [PartialOrder μ] [IsOrderedAddMonoid μ] {Inv : σ → Prop}
    {potential : σ → μ} {gain cost : σ → ε → μ}
    (hstep : ∀ state event next, Inv state → step state event = some next →
      Inv next ∧ potential next + cost state event ≤ potential state + gain state event)
    {state final : σ} {events : List ε} (hinv : Inv state) (hrun : run step state events = some final) :
    potential final + sumAlong step cost state events ≤ potential state + sumAlong step gain state events := by
  induction events generalizing state with
  | nil =>
      cases hrun
      exact le_rfl
  | cons event events ih =>
      obtain ⟨next, hnext, hrest⟩ := run_cons hrun
      obtain ⟨hinv', hdrain⟩ := hstep state event next hinv hnext
      rw [sumAlong, sumAlong, hnext, Option.map_some, Option.getD_some, Option.map_some, Option.getD_some]
      calc potential final + (cost state event + sumAlong step cost next events)
          = potential final + sumAlong step cost next events + cost state event := by
            rw [add_left_comm, add_comm]
        _ ≤ potential next + sumAlong step gain next events + cost state event := add_le_add_left (ih hinv' hrest) _
        _ = potential next + cost state event + sumAlong step gain next events := add_right_comm _ _ _
        _ ≤ potential state + gain state event + sumAlong step gain next events := add_le_add_left hdrain _
        _ = potential state + (gain state event + sumAlong step gain next events) := add_assoc _ _ _

/-- A view of the state that only the deeds of some events change is what these make of it. -/
theorem run_view {α δ : Type*} {view : σ → α} {deed : ε → Option δ} {apply : α → δ → α} {Inv : σ → Prop}
    (hstep : ∀ state event next, Inv state → step state event = some next →
      Inv next ∧ view next = (deed event).elim (view state) (apply (view state)))
    {state final : σ} {events : List ε} (hinv : Inv state) (hrun : run step state events = some final) :
    view final = (events.filterMap deed).foldl apply (view state) := by
  induction events generalizing state with
  | nil =>
      cases hrun
      rfl
  | cons event events ih =>
      obtain ⟨next, hnext, hrest⟩ := run_cons hrun
      obtain ⟨hinv', hview⟩ := hstep state event next hinv hnext
      rw [ih hinv' hrest, hview]
      cases hdeed : deed event with
      | none => rw [List.filterMap_cons_none hdeed, Option.elim_none]
      | some done => rw [List.filterMap_cons_some hdeed, List.foldl_cons, Option.elim_some]

theorem sumAlong_append {μ : Type*} [AddMonoid μ] (worth : σ → ε → μ) {state mid : σ} {past : List ε}
    (hrun : run step state past = some mid) (future : List ε) :
    sumAlong step worth state (past ++ future) = sumAlong step worth state past + sumAlong step worth mid future := by
  induction past generalizing state with
  | nil =>
      cases hrun
      exact (zero_add _).symm
  | cons event past ih =>
      obtain ⟨next, hnext, hrest⟩ := run_cons hrun
      have htail := ih hrest
      rw [List.cons_append, sumAlong, sumAlong, hnext, Option.map_some, Option.getD_some, htail, Option.map_some,
        Option.getD_some, add_assoc]

end Run

end Mmog.Ruby
