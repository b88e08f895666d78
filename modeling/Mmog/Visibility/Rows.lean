import Mmog.Model.Visibility
import Mmog.Ruby.Run

/-!
# What a look and a visit store

Rows are only added.  A look adds one for each planet of a user without an alliance
if his list is computed, and a visit one more if the list does not show the
sunsystem.
-/

namespace Mmog.Visibility

open Ruby

theorem mem_sunsystemsOf {sky : Sky} {user : UserId} {sunsystem : ℕ} :
    sunsystem ∈ sky.sunsystemsOf user ↔ (sunsystem, user) ∈ sky.sunsystemsUsers := by
  simp [Sky.sunsystemsOf]

@[simp] theorem reveal_rows (sky : Sky) (sunsystems : List ℕ) (user : UserId) :
    (sky.reveal sunsystems user).sunsystemsUsers = sky.sunsystemsUsers ++ sunsystems.map (·, user) := rfl

@[simp] theorem reveal_nil (sky : Sky) (user : UserId) : sky.reveal [] user = sky := by
  rw [Sky.reveal, List.map_nil, List.append_nil]

/-! ## Looks -/

namespace Sight

variable (caching : Bool) (sight : Sight)

/-- What a computation of the list stores. -/
def own : List ℕ :=
  match sight.user.alliance with
  | none => sight.planets.map (·.sunsystem)
  | some _ => []

/-- What a look at the list stores. -/
def writes : List ℕ := if sight.recomputesSunsystems caching then sight.own else []

@[simp] theorem load_sky (suns : Suns) : (sight.load suns).sky = sight.sky := by
  cases suns <;> rfl

@[simp] theorem load_id (suns : Suns) : (sight.load suns).user.id = sight.user.id := by
  cases suns <;> rfl

theorem computeSunsystems_sky : sight.computeSunsystems.2.sky = sight.sky.reveal sight.own sight.user.id := by
  rw [computeSunsystems, own]
  cases sight.user.alliance with
  | none => rfl
  | some alliance => exact (reveal_nil _ _).symm

theorem computeSunsystems_id : sight.computeSunsystems.2.user.id = sight.user.id := by
  rw [computeSunsystems]
  cases sight.user.alliance <;> rfl

theorem visibleSunsystems_sky :
    (sight.visibleSunsystems caching).2.sky = sight.sky.reveal (sight.writes caching) sight.user.id := by
  rw [visibleSunsystems, writes]
  split
  · exact sight.computeSunsystems_sky
  · exact (reveal_nil _ _).symm

@[simp] theorem visibleSunsystems_id : (sight.visibleSunsystems caching).2.user.id = sight.user.id := by
  rw [visibleSunsystems]
  split
  · exact sight.computeSunsystems_id
  · rfl

theorem visibleSunsystems_rows : (sight.visibleSunsystems caching).2.sky.sunsystemsUsers =
    sight.sky.sunsystemsUsers ++ (sight.writes caching).map (·, sight.user.id) :=
  congrArg Sky.sunsystemsUsers (sight.visibleSunsystems_sky caching)

end Sight

namespace Query

variable (caching : Bool) (sight : Sight)

/-- The query computes the list of the sunsystems anew. -/
def recomputes : Query → Bool
  | .visibleSunsystems | .sunsystemIsVisible _ => sight.recomputesSunsystems caching
  | .visiblePlanets | .planetIsVisible _ =>
      (!caching || sight.user.cacheVisiblePlanets.isEmpty) && sight.recomputesSunsystems caching
  | .visibleGalaxies | .galaxyIsVisible _ =>
      (!caching || sight.user.cacheVisibleGalaxies.isEmpty) && sight.recomputesSunsystems caching

def writes (query : Query) : List ℕ := if query.recomputes caching sight then sight.own else []

theorem visiblePlanets_sky : (sight.visiblePlanets caching).2.sky =
    sight.sky.reveal (visiblePlanets.writes caching sight) sight.user.id := by
  rw [Sight.visiblePlanets, writes, recomputes]
  split
  · rename_i hcompute
    rw [hcompute, Bool.true_and]
    exact (Sight.load_sky _ _).trans (sight.visibleSunsystems_sky caching)
  · rename_i hkeep
    rw [Bool.not_eq_true] at hkeep
    rw [hkeep, Bool.false_and, if_neg Bool.false_ne_true, reveal_nil]

theorem visibleGalaxies_sky : (sight.visibleGalaxies caching).2.sky =
    sight.sky.reveal (visibleGalaxies.writes caching sight) sight.user.id := by
  rw [Sight.visibleGalaxies, writes, recomputes]
  split
  · rename_i hcompute
    rw [hcompute, Bool.true_and]
    exact (Sight.load_sky _ _).trans (sight.visibleSunsystems_sky caching)
  · rename_i hkeep
    rw [Bool.not_eq_true] at hkeep
    rw [hkeep, Bool.false_and, if_neg Bool.false_ne_true, reveal_nil]

/-- Only the join table changes, and it only grows. -/
theorem run_sky (query : Query) :
    (query.run caching sight).sky = sight.sky.reveal (query.writes caching sight) sight.user.id := by
  cases query with
  | visibleSunsystems => exact sight.visibleSunsystems_sky caching
  | sunsystemIsVisible sunsystem => exact sight.visibleSunsystems_sky caching
  | visiblePlanets => exact visiblePlanets_sky caching sight
  | planetIsVisible planet => exact visiblePlanets_sky caching sight
  | visibleGalaxies => exact visibleGalaxies_sky caching sight
  | galaxyIsVisible galaxy => exact visibleGalaxies_sky caching sight

end Query

/-! ## Visits -/

namespace Sunsystem

variable (caching : Bool) (sunsystem : ℕ) (sight : Sight)

/-- What a visit stores: what its check stores, and the sunsystem if it is not shown. -/
def writes : List ℕ :=
  sight.writes caching ++ if (isVisibleBy caching sunsystem sight).1 then [] else [sunsystem]

theorem isVisibleBy_eq : (isVisibleBy caching sunsystem sight).1 =
    ((sight.visibleSunsystems caching).2.elements (sight.visibleSunsystems caching).1).contains sunsystem := rfl

theorem seenBy_eq : seenBy caching sunsystem sight =
    if (isVisibleBy caching sunsystem sight).1 then (isVisibleBy caching sunsystem sight).2
    else { (isVisibleBy caching sunsystem sight).2 with
      sky := (isVisibleBy caching sunsystem sight).2.sky.reveal [sunsystem]
        (isVisibleBy caching sunsystem sight).2.user.id } := rfl

theorem seenBy_rows : (seenBy caching sunsystem sight).sky.sunsystemsUsers =
    sight.sky.sunsystemsUsers ++ (writes caching sunsystem sight).map (·, sight.user.id) := by
  have hcheck : (isVisibleBy caching sunsystem sight).2.sky.sunsystemsUsers = _ := sight.visibleSunsystems_rows caching
  have hid : (isVisibleBy caching sunsystem sight).2.user.id = sight.user.id := sight.visibleSunsystems_id caching
  rw [seenBy_eq, writes]
  by_cases hvisible : (isVisibleBy caching sunsystem sight).1
  · rw [if_pos hvisible, if_pos hvisible, List.append_nil]
    exact hcheck
  · rw [if_neg hvisible, if_neg hvisible, reveal_rows, hcheck, hid, List.append_assoc, List.map_append]

/-- What the check stores, the list shows. -/
theorem isVisibleBy_of_writes (hmem : sunsystem ∈ sight.writes caching) :
    (isVisibleBy caching sunsystem sight).1 = true := by
  rw [Sight.writes] at hmem
  split at hmem
  · rename_i hcompute
    rw [isVisibleBy, Sight.visibleSunsystems, if_pos hcompute]
    refine List.elem_eq_true_of_mem ?_
    rw [Sight.own] at hmem
    cases halliance : sight.user.alliance with
    | some alliance =>
        rw [halliance] at hmem
        cases hmem
    | none =>
        rw [halliance] at hmem
        simp only [Sight.computeSunsystems, halliance, Sight.elements, Sight.sunsystems]
        cases sight.user.sunsystems with
        | some loaded => exact List.mem_append_right _ hmem
        | none =>
            refine mem_sunsystemsOf.mpr ?_
            exact List.mem_append_right _ (List.mem_map_of_mem hmem)
  · cases hmem

end Sunsystem

/-! ## Events -/

namespace Event

variable (caching : Bool) (state : State)

/-- The visit that an event makes: who looks, and at which sunsystem. -/
def visit : Event → Option (Sight × ℕ)
  | .planetSeenBy record planet => do
      let sight ← state.sight record
      let self ← state.sky.planets.get planet
      return (sight, self.sunsystem)
  | .sunsystemSeenBy record sunsystem => do
      let sight ← state.sight record
      let _ ← state.sky.sunsystems.get sunsystem
      return (sight, sunsystem)
  | .claim record planet => do
      let sight ← state.sight record
      let self ← state.sky.planets.get planet
      if self.user.isNone then some (sight, self.sunsystem) else none
  | _ => none

/-- The rows that an event stores. -/
def rows : Event → List (ℕ × UserId)
  | .query record asked =>
      ((state.sight record).map fun sight => (asked.writes caching sight).map (·, sight.user.id)).getD []
  | event =>
      ((event.visit state).map fun (sight, sunsystem) =>
        (Sunsystem.writes caching sunsystem sight).map (·, sight.user.id)).getD []

variable {state} {event : Event}

theorem rows_of_visit {sight : Sight} {sunsystem : ℕ} (hvisit : event.visit state = some (sight, sunsystem)) :
    event.rows caching state = (Sunsystem.writes caching sunsystem sight).map (·, sight.user.id) := by
  cases event with
  | planetSeenBy | sunsystemSeenBy | claim =>
      rw [rows, hvisit]
      · rfl
      · exact nofun
  | _ => cases hvisit

theorem step_visit {visit : Sight × ℕ} (hvisit : event.visit state = some visit) :
    (∃ record, state.sight record = some visit.1) ∧ ∃ next, step caching state event = some next := by
  cases event with
  | planetSeenBy record planet =>
      obtain ⟨sight, hsight, self, hself, rfl⟩ := by
        simpa only [Event.visit, Option.bind_eq_bind, Option.bind_eq_some_iff, Option.pure_def, Option.some.injEq]
          using hvisit
      exact ⟨⟨record, hsight⟩, by rw [step, hsight, hself]; exact ⟨_, rfl⟩⟩
  | sunsystemSeenBy record sunsystem =>
      obtain ⟨sight, hsight, self, hself, rfl⟩ := by
        simpa only [Event.visit, Option.bind_eq_bind, Option.bind_eq_some_iff, Option.pure_def, Option.some.injEq]
          using hvisit
      exact ⟨⟨record, hsight⟩, by rw [step, hsight, hself]; exact ⟨_, rfl⟩⟩
  | claim record planet =>
      obtain ⟨sight, hsight, self, hself, hif⟩ := by
        simpa only [Event.visit, Option.bind_eq_bind, Option.bind_eq_some_iff] using hvisit
      obtain ⟨-, hsome⟩ := Option.ite_none_right_eq_some.mp hif
      cases hsome
      exact ⟨⟨record, hsight⟩, by rw [step, hsight, hself]; exact ⟨_, rfl⟩⟩
  | _ => cases hvisit

end Event

theorem addUser_rows (alliance : AllianceId) (sight : Sight) :
    (Alliance.addUser alliance sight).sky.sunsystemsUsers = sight.sky.sunsystemsUsers := by
  rw [Alliance.addUser]
  split <;> rfl

theorem removeUser_rows (alliance : AllianceId) (sight : Sight) :
    (Alliance.removeUser alliance sight).sky.sunsystemsUsers = sight.sky.sunsystemsUsers := by
  rw [Alliance.removeUser]
  split <;> rfl

theorem sight_eq_some {state : State} {record : ℕ} {sight : Sight} (hsight : state.sight record = some sight) :
    state.records[record]? = some sight.user ∧ sight.sky = state.sky := by
  obtain ⟨user, huser, rfl⟩ := Option.map_eq_some_iff.mp hsight
  exact ⟨huser, rfl⟩

theorem step_rows {caching : Bool} {state next : State} {event : Event} (hstep : step caching state event = some next) :
    next.sky.sunsystemsUsers = state.sky.sunsystemsUsers ++ event.rows caching state := by
  cases event with
  | register | discover galaxy planets =>
      cases hstep
      exact (List.append_nil _).symm
  | find user =>
      obtain ⟨row, -, rfl⟩ := Option.map_eq_some_iff.mp hstep
      exact (List.append_nil _).symm
  | query record query =>
      obtain ⟨sight, hsight, rfl⟩ := Option.map_eq_some_iff.mp hstep
      rw [Event.rows, hsight, ← (sight_eq_some hsight).2]
      exact congrArg Sky.sunsystemsUsers (query.run_sky caching sight)
  | planetSeenBy record planet =>
      obtain ⟨sight, hsight, self, hself, rfl⟩ := by
        simpa only [step, Option.bind_eq_bind, Option.bind_eq_some_iff, Option.pure_def, Option.some.injEq]
          using hstep
      have hvisit : (Event.planetSeenBy record planet).visit state = some (sight, self.sunsystem) := by
        rw [Event.visit, hsight, hself]
        rfl
      rw [Event.rows_of_visit caching hvisit, ← (sight_eq_some hsight).2]
      exact Sunsystem.seenBy_rows caching self.sunsystem sight
  | sunsystemSeenBy record sunsystem =>
      obtain ⟨sight, hsight, self, hself, rfl⟩ := by
        simpa only [step, Option.bind_eq_bind, Option.bind_eq_some_iff, Option.pure_def, Option.some.injEq]
          using hstep
      have hvisit : (Event.sunsystemSeenBy record sunsystem).visit state = some (sight, sunsystem) := by
        rw [Event.visit, hsight, hself]
        rfl
      rw [Event.rows_of_visit caching hvisit, ← (sight_eq_some hsight).2]
      exact Sunsystem.seenBy_rows caching sunsystem sight
  | claim record planet =>
      obtain ⟨sight, hsight, self, hself, rfl⟩ := by
        simpa only [step, Option.bind_eq_bind, Option.bind_eq_some_iff, Option.pure_def, Option.some.injEq]
          using hstep
      cases howner : self.user with
      | none =>
          have hvisit : (Event.claim record planet).visit state = some (sight, self.sunsystem) := by
            simp [Event.visit, hsight, hself, howner]
          rw [Event.rows_of_visit caching hvisit, ← (sight_eq_some hsight).2, Planet.claim, howner]
          exact Sunsystem.seenBy_rows caching self.sunsystem sight
      | some owner =>
          have hvisit : (Event.claim record planet).visit state = none := by
            simp [Event.visit, hsight, hself, howner]
          rw [Event.rows, hvisit, ← (sight_eq_some hsight).2, Planet.claim, howner]
          · exact (List.append_nil _).symm
          · exact nofun
  | addUser record alliance =>
      obtain ⟨sight, hsight, rfl⟩ := Option.map_eq_some_iff.mp hstep
      exact (addUser_rows alliance sight).trans ((sight_eq_some hsight).2 ▸ (List.append_nil _).symm)
  | removeUser record alliance =>
      obtain ⟨sight, hsight, rfl⟩ := Option.map_eq_some_iff.mp hstep
      exact (removeUser_rows alliance sight).trans ((sight_eq_some hsight).2 ▸ (List.append_nil _).symm)

end Mmog.Visibility
