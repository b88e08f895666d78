import Mmog.Visibility.Rows
import Mathlib.Data.List.Nodup

/-!
# Looking at the map

A look at the map stores nothing and no sunsystem is recorded twice, exactly as long
as no list is computed for a user who is in no alliance and owns planets, but for
visits by users whose planets are not recorded, and nobody visits what is recorded
and not shown.
-/

namespace Mmog.Visibility

open Ruby

/-! ## Conditions -/

/-- The list is not computed for a user who is in no alliance and owns planets. -/
def Query.Idle (caching : Bool) (sight : Sight) (query : Query) : Prop :=
  query.recomputes caching sight = true → sight.user.alliance = none → sight.planets = []

/-- A visit that stores nothing twice. -/
structure Sunsystem.Clean (caching : Bool) (sunsystem : ℕ) (sight : Sight) : Prop where
  /-- If the list is computed for a user without an alliance, then his planets lie in different sunsystems. -/
  apart : sight.recomputesSunsystems caching = true → sight.user.alliance = none →
    (sight.planets.map (·.sunsystem)).Nodup
  /-- None of them is recorded for him. -/
  new : sight.recomputesSunsystems caching = true → sight.user.alliance = none →
    ∀ planet ∈ sight.planets, (planet.sunsystem, sight.user.id) ∉ sight.sky.sunsystemsUsers
  /-- What is recorded for him, his list shows. -/
  shown : (sunsystem, sight.user.id) ∈ sight.sky.sunsystemsUsers → (isVisibleBy caching sunsystem sight).1 = true

instance (caching : Bool) (sight : Sight) (query : Query) : Decidable (query.Idle caching sight) :=
  inferInstanceAs (Decidable (_ → _ → _))

instance (caching : Bool) (sunsystem : ℕ) (sight : Sight) : Decidable (Sunsystem.Clean caching sunsystem sight) :=
  decidable_of_iff (_ ∧ _ ∧ _) ⟨fun h => ⟨h.1, h.2.1, h.2.2⟩, fun h => ⟨h.apart, h.new, h.shown⟩⟩

namespace Event

def Clean (caching : Bool) (state : State) : Event → Prop
  | .query record asked => ∀ sight ∈ state.sight record, asked.Idle caching sight
  | event => ∀ visit ∈ event.visit state, Sunsystem.Clean caching visit.2 visit.1

instance (caching : Bool) (state : State) : (event : Event) → Decidable (event.Clean caching state)
  | .query record asked => inferInstanceAs (Decidable (∀ sight ∈ state.sight record, asked.Idle caching sight))
  | .register | .discover _ _ | .find _ | .addUser _ _ | .removeUser _ _ => .isTrue nofun
  | .planetSeenBy record planet => inferInstanceAs
      (Decidable (∀ visit ∈ (planetSeenBy record planet).visit state, Sunsystem.Clean caching visit.2 visit.1))
  | .sunsystemSeenBy record sunsystem => inferInstanceAs
      (Decidable (∀ visit ∈ (sunsystemSeenBy record sunsystem).visit state, Sunsystem.Clean caching visit.2 visit.1))
  | .claim record planet => inferInstanceAs
      (Decidable (∀ visit ∈ (claim record planet).visit state, Sunsystem.Clean caching visit.2 visit.1))

/-- If the event is a look it stores nothing, and afterwards no sunsystem is recorded twice for a user. -/
def Harmless (caching : Bool) (state : State) (event : Event) : Prop :=
  ∀ next, step caching state event = some next →
    (∀ record asked, event = .query record asked → next.sky.sunsystemsUsers = state.sky.sunsystemsUsers) ∧
      next.sky.sunsystemsUsers.Nodup

end Event

/-! ## Steps -/

variable {caching : Bool}

theorem Sight.own_eq_nil {sight : Sight} :
    sight.own = [] ↔ (sight.user.alliance = none → sight.planets = []) := by
  rw [own]
  cases sight.user.alliance with
  | none => simp
  | some alliance => simp

theorem Query.writes_eq_nil {sight : Sight} {query : Query} :
    query.writes caching sight = [] ↔ query.Idle caching sight := by
  rw [writes, ite_eq_right_iff]
  exact imp_congr_right fun _ => Sight.own_eq_nil

theorem nodup_append_rows {rows : List (ℕ × UserId)} {sunsystems : List ℕ} {user : UserId} (hrows : rows.Nodup) :
    (rows ++ sunsystems.map (·, user)).Nodup ↔
      sunsystems.Nodup ∧ ∀ sunsystem ∈ sunsystems, (sunsystem, user) ∉ rows := by
  have hinj : Function.Injective fun sunsystem : ℕ => (sunsystem, user) := fun _ _ h => congrArg Prod.fst h
  rw [List.nodup_append', and_iff_right hrows, List.nodup_map_iff hinj, List.disjoint_right]
  simp only [List.forall_mem_map]

/-- What the check stores is new. -/
theorem Sight.writes_new {sight : Sight} :
    ((sight.writes caching).Nodup ∧
        ∀ sunsystem ∈ sight.writes caching, (sunsystem, sight.user.id) ∉ sight.sky.sunsystemsUsers) ↔
      (sight.recomputesSunsystems caching = true → sight.user.alliance = none →
        (sight.planets.map (·.sunsystem)).Nodup ∧
          ∀ planet ∈ sight.planets, (planet.sunsystem, sight.user.id) ∉ sight.sky.sunsystemsUsers) := by
  rw [writes, own]
  cases sight.recomputesSunsystems caching with
  | false => simp
  | true =>
      cases sight.user.alliance with
      | none => simp
      | some alliance => simp

theorem Sunsystem.clean_iff {sunsystem : ℕ} {sight : Sight} (hrows : sight.sky.sunsystemsUsers.Nodup) :
    (sight.sky.sunsystemsUsers ++ (writes caching sunsystem sight).map (·, sight.user.id)).Nodup ↔
      Clean caching sunsystem sight := by
  rw [nodup_append_rows hrows, writes]
  constructor
  · rintro ⟨hnodup, hnew⟩
    have hcheck := Sight.writes_new.mp
      ⟨hnodup.of_append_left, fun other hother => hnew other (List.mem_append_left _ hother)⟩
    refine ⟨fun hcompute hnone => (hcheck hcompute hnone).1, fun hcompute hnone => (hcheck hcompute hnone).2, ?_⟩
    intro hrecorded
    by_contra hhidden
    refine hnew sunsystem (List.mem_append_right _ ?_) hrecorded
    rw [if_neg hhidden]
    exact List.mem_singleton_self sunsystem
  · intro hclean
    obtain ⟨hnodup, hnew⟩ := Sight.writes_new.mpr fun hcompute hnone =>
      ⟨hclean.apart hcompute hnone, hclean.new hcompute hnone⟩
    by_cases hvisible : (isVisibleBy caching sunsystem sight).1
    · rw [if_pos hvisible, List.append_nil]
      exact ⟨hnodup, hnew⟩
    · rw [if_neg hvisible]
      constructor
      · refine List.nodup_append'.mpr ⟨hnodup, List.nodup_singleton sunsystem, ?_⟩
        rw [List.disjoint_singleton]
        exact fun hmem => hvisible (isVisibleBy_of_writes caching sunsystem sight hmem)
      · intro other hother
        rcases List.mem_append.mp hother with hcheck | hlast
        · exact hnew other hcheck
        · rw [List.mem_singleton.mp hlast]
          exact fun hrecorded => hvisible (hclean.shown hrecorded)

namespace Event

theorem harmless_of_query {state : State} {record : ℕ} {asked : Query} (hrows : state.sky.sunsystemsUsers.Nodup) :
    (query record asked).Harmless caching state ↔ (query record asked).Clean caching state := by
  constructor
  · intro hharmless sight hsight
    have hstep : step caching state (query record asked) = some (state.put record (asked.run caching sight)) := by
      rw [step, hsight]
      rfl
    have hsame := (hharmless _ hstep).1 record asked rfl
    rw [step_rows hstep, rows, hsight, List.append_right_eq_self] at hsame
    exact Query.writes_eq_nil.mp (List.map_eq_nil_iff.mp hsame)
  · intro hclean next hstep
    have hsame : next.sky.sunsystemsUsers = state.sky.sunsystemsUsers := by
      obtain ⟨sight, hsight, -⟩ := Option.map_eq_some_iff.mp hstep
      rw [step_rows hstep, rows, hsight, Option.map_some, Option.getD_some,
        Query.writes_eq_nil.mpr (hclean sight hsight), List.map_nil, List.append_nil]
    exact ⟨fun _ _ _ => hsame, hsame ▸ hrows⟩

theorem harmless_of_visit {state : State} {event : Event} {visit : Sight × ℕ} (hrows : state.sky.sunsystemsUsers.Nodup)
    (hvisit : event.visit state = some visit) :
    event.Harmless caching state ↔ Sunsystem.Clean caching visit.2 visit.1 := by
  obtain ⟨⟨record, hsight⟩, next, hstep⟩ := step_visit caching hvisit
  have hsky := (sight_eq_some hsight).2
  have hnext : next.sky.sunsystemsUsers =
      visit.1.sky.sunsystemsUsers ++ (Sunsystem.writes caching visit.2 visit.1).map (·, visit.1.user.id) := by
    rw [step_rows hstep, rows_of_visit caching hvisit, hsky]
  rw [← Sunsystem.clean_iff (hsky ▸ hrows), ← hnext]
  constructor
  · exact fun hharmless => (hharmless next hstep).2
  · intro hnodup found hfound
    cases hstep.symm.trans hfound
    refine ⟨fun record asked heq => ?_, hnodup⟩
    subst heq
    cases hvisit

theorem harmless_iff_clean {state : State} {event : Event} (hrows : state.sky.sunsystemsUsers.Nodup) :
    event.Harmless caching state ↔ event.Clean caching state := by
  cases hvisit : event.visit state with
  | some visit =>
      rw [harmless_of_visit hrows hvisit]
      cases event with
      | planetSeenBy | sunsystemSeenBy | claim => simp [Clean, hvisit]
      | _ => cases hvisit
  | none =>
      cases event with
      | query record asked => exact harmless_of_query hrows
      | _ =>
          refine iff_of_true (fun next hstep => ⟨by rintro _ _ ⟨⟩, ?_⟩) ?_
          · rw [step_rows hstep, rows, hvisit]
            · rwa [Option.map_none, Option.getD_none, List.append_nil]
            · rintro _ _ ⟨⟩
          · simp [Clean, hvisit]

theorem nodup_of_harmless {state next : State} {event : Event} (hharmless : event.Harmless caching state)
    (hstep : step caching state event = some next) : next.sky.sunsystemsUsers.Nodup :=
  (hharmless next hstep).2

end Event

/-! ## Runs -/

theorem looking_is_harmless_iff (caching : Bool) (state : State) (events : List Event)
    (hrows : state.sky.sunsystemsUsers.Nodup) :
    Along (step caching) (fun state event => event.Harmless caching state) state events ↔
      Along (step caching) (fun state event => event.Clean caching state) state events := by
  constructor
  · refine Along.of_invariant (fun state => state.sky.sunsystemsUsers.Nodup) ?_ ?_ hrows
    · exact fun state event next _ hharmless hstep => Event.nodup_of_harmless hharmless hstep
    · exact fun state event hnodup hharmless => (Event.harmless_iff_clean hnodup).mp hharmless
  · refine Along.of_invariant (fun state => state.sky.sunsystemsUsers.Nodup) ?_ ?_ hrows
    · intro state event next hnodup hclean hstep
      exact Event.nodup_of_harmless ((Event.harmless_iff_clean hnodup).mpr hclean) hstep
    · exact fun state event hnodup hclean => (Event.harmless_iff_clean hnodup).mpr hclean

/-- A user claims a planet and joins an alliance. -/
theorem looking_is_harmless_iff_member : Along (step true) (fun state event => event.Harmless true state) (.start .empty)
    [.register, .discover 1 2, .find 1, .claim 0 1, .addUser 0 1, .find 1, .query 1 .visiblePlanets,
      .query 1 (.galaxyIsVisible 1), .planetSeenBy 1 2] :=
  (looking_is_harmless_iff true (.start .empty) _ List.nodup_nil).mpr (by decide)

/-- A user claims a planet, and looks at the map later. -/
theorem look_adds_row : ¬∀ caching events,
    Along (step caching) (fun state event => event.Harmless caching state) (.start .empty) events := by
  intro hall
  have hlook := along_iff.mp
    (hall true [.register, .discover 1 1, .find 1, .claim 0 1, .find 1, .query 1 .visibleSunsystems])
    [.register, .discover 1 1, .find 1, .claim 0 1, .find 1] (.query 1 .visibleSunsystems) [] rfl
  have hrun : (run (step true) (.start .empty) [.register, .discover 1 1, .find 1, .claim 0 1, .find 1]).any
      (fun mid => (step true mid (.query 1 .visibleSunsystems)).any fun next =>
        !decide (next.sky.sunsystemsUsers = mid.sky.sunsystemsUsers)) = true := by
    decide
  obtain ⟨mid, hmid, hchanged⟩ := (Option.any_eq_true _ _).mp hrun
  obtain ⟨next, hnext, hdiffers⟩ := (Option.any_eq_true _ _).mp hchanged
  have hsame := (hlook mid hmid next hnext).1 1 .visibleSunsystems rfl
  rw [hsame, decide_eq_true rfl] at hdiffers
  cases hdiffers

end Mmog.Visibility
