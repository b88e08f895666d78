import Mmog.Visibility.Rows

/-!
# What a user has visited

What is recorded for a user he sees forever, whether he is in an alliance or not.  A
visit is recorded unless the list of the visitor has the sunsystem from his alliance.
-/

namespace Mmog.Visibility

open Ruby

/-! ## What a later record knows -/

/-- What was loaded is stored. -/
def Record.Backed (sky : Sky) (user : Record) : Prop :=
  ∀ loaded, user.sunsystems = some loaded → ∀ sunsystem ∈ loaded, (sunsystem, user.id) ∈ sky.sunsystemsUsers

/-- Rows and users only come. -/
structure Sky.Grows (before after : Sky) : Prop where
  rows : before.sunsystemsUsers ⊆ after.sunsystemsUsers
  users : ∀ id, (before.users.get id).isSome → (after.users.get id).isSome

/-- The same user later. -/
structure Sight.Later (before after : Sight) : Prop where
  same : after.user.id = before.user.id
  sky : before.sky.Grows after.sky
  backed : before.user.Backed before.sky → after.user.Backed after.sky

namespace Sky.Grows

theorem refl (sky : Sky) : sky.Grows sky := ⟨List.Subset.refl _, fun _ => id⟩

theorem trans {a b c : Sky} (ab : a.Grows b) (bc : b.Grows c) : a.Grows c :=
  ⟨List.Subset.trans ab.rows bc.rows, fun id hid => bc.users id (ab.users id hid)⟩

theorem reveal (sky : Sky) (sunsystems : List ℕ) (user : UserId) : sky.Grows (sky.reveal sunsystems user) :=
  ⟨List.subset_append_left _ _, fun _ => id⟩

theorem setAlliance (sky : Sky) (user : UserId) (change : Option AllianceId → Option AllianceId) :
    sky.Grows (Alliance.setAlliance sky user change) := by
  refine ⟨List.Subset.refl _, fun id hid => ?_⟩
  rw [Alliance.setAlliance, Table.get_modify]
  split
  · rwa [Option.isSome_map]
  · exact hid

end Sky.Grows

theorem Record.Backed.grows {user : Record} {before after : Sky} (hbacked : user.Backed before)
    (hgrows : before.Grows after) : user.Backed after :=
  fun loaded hloaded sunsystem hmem => hgrows.rows (hbacked loaded hloaded sunsystem hmem)

namespace Sight

theorem mem_rows_of_mem_sunsystems {sight : Sight} (hbacked : sight.user.Backed sight.sky) {sunsystem : ℕ}
    (hmem : sunsystem ∈ sight.sunsystems) : (sunsystem, sight.user.id) ∈ sight.sky.sunsystemsUsers := by
  rw [sunsystems] at hmem
  cases hloaded : sight.user.sunsystems with
  | some loaded =>
      rw [hloaded] at hmem
      exact hbacked loaded hloaded sunsystem hmem
  | none =>
      rw [hloaded] at hmem
      exact mem_sunsystemsOf.mp hmem

namespace Later

theorem refl (sight : Sight) : sight.Later sight := ⟨rfl, .refl _, id⟩

theorem trans {a b c : Sight} (ab : a.Later b) (bc : b.Later c) : a.Later c :=
  ⟨bc.same.trans ab.same, ab.sky.trans bc.sky, fun hbacked => bc.backed (ab.backed hbacked)⟩

/-- A later sight that has not loaded anything else. -/
theorem of_eq {before after : Sight} (hid : after.user.id = before.user.id) (hsky : before.sky.Grows after.sky)
    (hloaded : after.user.sunsystems = before.user.sunsystems) : before.Later after := by
  refine ⟨hid, hsky, fun hbacked loaded hafter sunsystem hmem => ?_⟩
  rw [hid]
  exact hsky.rows (hbacked loaded (hloaded ▸ hafter) sunsystem hmem)

theorem load (sight : Sight) (suns : Suns) : sight.Later (sight.load suns) := by
  cases suns with
  | array suns => exact refl sight
  | association =>
      refine ⟨rfl, .refl _, fun hbacked loaded hloaded sunsystem hmem => ?_⟩
      cases hloaded
      exact mem_rows_of_mem_sunsystems hbacked hmem

theorem computeSunsystems (sight : Sight) : sight.Later sight.computeSunsystems.2 := by
  rw [Sight.computeSunsystems]
  cases sight.user.alliance with
  | some alliance => exact of_eq rfl (.refl _) rfl
  | none =>
      refine ⟨rfl, .reveal _ _ _, fun hbacked loaded hloaded sunsystem hmem => ?_⟩
      obtain ⟨old, hold, rfl⟩ := Option.map_eq_some_iff.mp hloaded
      rcases List.mem_append.mp hmem with hstored | hown
      · exact List.mem_append_left _ (hbacked old hold sunsystem hstored)
      · exact List.mem_append_right _ (List.mem_map_of_mem hown)

variable (caching : Bool)

theorem visibleSunsystems (sight : Sight) : sight.Later (sight.visibleSunsystems caching).2 := by
  rw [Sight.visibleSunsystems]
  split
  · exact (computeSunsystems sight).trans (of_eq rfl (.refl _) rfl)
  · exact refl sight

theorem visiblePlanets (sight : Sight) : sight.Later (sight.visiblePlanets caching).2 := by
  rw [Sight.visiblePlanets]
  split
  · exact ((visibleSunsystems caching sight).trans (load _ _)).trans (of_eq rfl (.refl _) rfl)
  · exact refl sight

theorem visibleGalaxies (sight : Sight) : sight.Later (sight.visibleGalaxies caching).2 := by
  rw [Sight.visibleGalaxies]
  split
  · exact ((visibleSunsystems caching sight).trans (load _ _)).trans (of_eq rfl (.refl _) rfl)
  · exact refl sight

theorem query (sight : Sight) (asked : Query) : sight.Later (asked.run caching sight) := by
  cases asked with
  | visibleSunsystems | sunsystemIsVisible => exact visibleSunsystems caching sight
  | visiblePlanets | planetIsVisible => exact visiblePlanets caching sight
  | visibleGalaxies | galaxyIsVisible => exact visibleGalaxies caching sight

theorem seenBy (sunsystem : ℕ) (sight : Sight) : sight.Later (Sunsystem.seenBy caching sunsystem sight) := by
  have hcheck : sight.Later (Sunsystem.isVisibleBy caching sunsystem sight).2 := visibleSunsystems caching sight
  rw [Sunsystem.seenBy_eq]
  split
  · exact hcheck
  · exact hcheck.trans (of_eq rfl (.reveal _ _ _) rfl)

theorem setUser (planet : ℕ) (sight : Sight) : sight.Later (Planet.setUser planet sight) :=
  of_eq rfl ⟨List.Subset.refl _, fun _ => id⟩ rfl

theorem claim (planet : ℕ) (self : Planet) (sight : Sight) : sight.Later (Planet.claim caching planet self sight) := by
  rw [Planet.claim]
  split
  · exact (seenBy caching self.sunsystem sight).trans (setUser planet _)
  · exact setUser planet sight

theorem addUser (alliance : AllianceId) (sight : Sight) : sight.Later (Alliance.addUser alliance sight) := by
  rw [Alliance.addUser]
  split
  · exact of_eq rfl (.setAlliance sight.sky sight.user.id fun _ => some alliance) rfl
  · exact refl sight

theorem removeUser (alliance : AllianceId) (sight : Sight) : sight.Later (Alliance.removeUser alliance sight) := by
  rw [Alliance.removeUser]
  split
  · exact of_eq rfl
      (.setAlliance sight.sky sight.user.id fun found => if found = some alliance then none else found) rfl
  · exact refl sight

end Later

end Sight

/-! ## Visits -/

namespace Sunsystem

/-- The list of the visitor has the sunsystem from his alliance, and he has not visited it himself. -/
def Borrowed (caching : Bool) (sunsystem : ℕ) (sight : Sight) : Prop :=
  (sunsystem, sight.user.id) ∉ sight.sky.sunsystemsUsers ∧
    match (sight.visibleSunsystems caching).1 with
    | .association => False
    | .array suns => sunsystem ∈ suns

instance (caching : Bool) (sunsystem : ℕ) (sight : Sight) : Decidable (Borrowed caching sunsystem sight) :=
  have : ∀ suns : Suns, Decidable (match suns with | .association => False | .array suns => sunsystem ∈ suns) :=
    fun suns => match suns with
      | .association => .isFalse id
      | .array suns => inferInstanceAs (Decidable (sunsystem ∈ suns))
  inferInstanceAs (Decidable (_ ∧ _))

variable {caching : Bool} {sunsystem : ℕ} {sight : Sight}

theorem writes_of_array {suns : List ℕ} (harray : (sight.visibleSunsystems caching).1 = .array suns) :
    sight.writes caching = [] := by
  rw [Sight.writes, ite_eq_right_iff]
  intro hcompute
  rw [Sight.visibleSunsystems, if_pos hcompute] at harray
  rw [Sight.own]
  cases halliance : sight.user.alliance with
  | some alliance => rfl
  | none => simp [Sight.computeSunsystems, halliance] at harray

/-- A visit is recorded exactly if the sunsystem is not borrowed. -/
theorem seenBy_records_iff (hbacked : sight.user.Backed sight.sky) :
    (sunsystem, sight.user.id) ∈ (seenBy caching sunsystem sight).sky.sunsystemsUsers ↔
      ¬Borrowed caching sunsystem sight := by
  have hlater := Sight.Later.visibleSunsystems caching sight
  cases hsuns : (sight.visibleSunsystems caching).1 with
  | association =>
      refine iff_of_true ?_ fun hborrowed => by rw [Borrowed, hsuns] at hborrowed; exact hborrowed.2
      rw [seenBy_rows, writes]
      by_cases hvisible : (isVisibleBy caching sunsystem sight).1
      · have hmem : sunsystem ∈ (sight.visibleSunsystems caching).2.sunsystems := by
          rw [isVisibleBy_eq, hsuns] at hvisible
          exact List.mem_of_elem_eq_true hvisible
        have hstored := Sight.mem_rows_of_mem_sunsystems (hlater.backed hbacked) hmem
        rw [hlater.same, Sight.visibleSunsystems_rows] at hstored
        rwa [if_pos hvisible, List.append_nil]
      · rw [if_neg hvisible, List.map_append]
        exact List.mem_append_right _ (List.mem_append_right _ List.mem_cons_self)
  | array suns =>
      have hvisible : (isVisibleBy caching sunsystem sight).1 = true ↔ sunsystem ∈ suns := by
        rw [isVisibleBy_eq, hsuns]
        exact List.contains_iff_mem
      rw [seenBy_rows, writes, writes_of_array hsuns, Borrowed, hsuns, List.nil_append]
      by_cases hmem : sunsystem ∈ suns
      · simp [hvisible.mpr hmem, hmem]
      · simp [mt hvisible.mp hmem, hmem]

end Sunsystem

/-! ## Steps -/

namespace State

/-- What an event may do. -/
inductive Becomes (state : State) : State → Prop where
  | grows {sky : Sky} : state.sky.Grows sky → Becomes state ⟨sky, state.records⟩
  | finds {id : UserId} {row : User} :
      state.sky.users.get id = some row → Becomes state ⟨state.sky, state.records ++ [Record.find id row]⟩
  | puts {record : ℕ} {before after : Sight} :
      state.sight record = some before → before.Later after → Becomes state (state.put record after)

/-- What the records have loaded is stored, and their users exist. -/
def Sound (state : State) : Prop :=
  ∀ user ∈ state.records, user.Backed state.sky ∧ (state.sky.users.get user.id).isSome

theorem sound_start (sky : Sky) : (State.start sky).Sound := fun _ hmem => absurd hmem List.not_mem_nil

theorem Becomes.sky_grows {state next : State} (hnext : state.Becomes next) : state.sky.Grows next.sky := by
  cases hnext with
  | grows hgrows => exact hgrows
  | finds hget => exact .refl _
  | puts hsight hlater => exact (sight_eq_some hsight).2 ▸ hlater.sky

theorem Becomes.sound {state next : State} (hnext : state.Becomes next) (hsound : state.Sound) : next.Sound := by
  have hgrows := hnext.sky_grows
  have hold : ∀ user ∈ state.records, user.Backed next.sky ∧ (next.sky.users.get user.id).isSome := fun user hmem =>
    ⟨(hsound user hmem).1.grows hgrows, hgrows.users user.id (hsound user hmem).2⟩
  cases hnext with
  | grows => exact hold
  | @finds id row hget =>
      intro user hmem
      rcases List.mem_append.mp hmem with hearlier | hlast
      · exact hold user hearlier
      · rw [List.mem_singleton.mp hlast]
        exact ⟨nofun, Option.isSome_of_eq_some hget⟩
  | @puts record before after hsight hlater =>
      intro user hmem
      rcases List.mem_or_eq_of_mem_set hmem with hother | rfl
      · exact hold user hother
      · obtain ⟨hrecord, hsky⟩ := sight_eq_some hsight
        obtain ⟨hbacked, huser⟩ := hsound before.user (List.mem_of_getElem? hrecord)
        refine ⟨hlater.backed (hsky ▸ hbacked), ?_⟩
        rw [hlater.same]
        exact hlater.sky.users _ (hsky ▸ huser)

end State

theorem step_becomes {caching : Bool} {state next : State} {event : Event} (hstep : step caching state event = some next) :
    state.Becomes next := by
  cases event with
  | register =>
      cases hstep
      refine .grows ⟨List.Subset.refl _, fun id hid => ?_⟩
      obtain ⟨row, hrow⟩ := Option.isSome_iff_exists.mp hid
      exact Option.isSome_of_eq_some (Table.get_create_of_some _ hrow)
  | discover galaxy planets =>
      cases hstep
      exact .grows ⟨List.Subset.refl _, fun _ => id⟩
  | find user =>
      obtain ⟨row, hrow, rfl⟩ := Option.map_eq_some_iff.mp hstep
      exact .finds hrow
  | query record asked =>
      obtain ⟨sight, hsight, rfl⟩ := Option.map_eq_some_iff.mp hstep
      exact .puts hsight (.query caching sight asked)
  | planetSeenBy record planet =>
      obtain ⟨sight, hsight, self, hself, rfl⟩ := by
        simpa only [step, Option.bind_eq_bind, Option.bind_eq_some_iff, Option.pure_def, Option.some.injEq]
          using hstep
      exact .puts hsight (.seenBy caching self.sunsystem sight)
  | sunsystemSeenBy record sunsystem =>
      obtain ⟨sight, hsight, self, hself, rfl⟩ := by
        simpa only [step, Option.bind_eq_bind, Option.bind_eq_some_iff, Option.pure_def, Option.some.injEq]
          using hstep
      exact .puts hsight (.seenBy caching sunsystem sight)
  | claim record planet =>
      obtain ⟨sight, hsight, self, hself, rfl⟩ := by
        simpa only [step, Option.bind_eq_bind, Option.bind_eq_some_iff, Option.pure_def, Option.some.injEq]
          using hstep
      exact .puts hsight (.claim caching planet self sight)
  | addUser record alliance =>
      obtain ⟨sight, hsight, rfl⟩ := Option.map_eq_some_iff.mp hstep
      exact .puts hsight (.addUser alliance sight)
  | removeUser record alliance =>
      obtain ⟨sight, hsight, rfl⟩ := Option.map_eq_some_iff.mp hstep
      exact .puts hsight (.removeUser alliance sight)

/-! ## Runs -/

/-- What a record that is read now shows. -/
def shown (caching : Bool) (sky : Sky) (id : UserId) : List ℕ :=
  match sky.users.get id with
  | none => []
  | some user =>
      let (suns, sight) := (Sight.mk (Record.find id user) sky).visibleSunsystems caching
      sight.elements suns

theorem shown_eq {caching : Bool} {sky : Sky} {id : UserId} {user : User} (hget : sky.users.get id = some user) :
    shown caching sky id = match user.alliance with
      | none => (sky.reveal ((sky.planetsOf id).map (·.sunsystem)) id).sunsystemsOf id
      | some alliance => (sky.planetsOf id).map (·.sunsystem) ++ (sky.usersOf alliance).flatMap sky.sunsystemsOf := by
  have hcompute : (Sight.mk (Record.find id user) sky).recomputesSunsystems caching = true := Bool.or_true _
  simp only [shown, hget, Sight.visibleSunsystems, hcompute, if_true, Sight.computeSunsystems]
  cases halliance : user.alliance with
  | none =>
      simp only [Record.find, halliance]
      rfl
  | some alliance =>
      simp only [Record.find, halliance]
      rfl

/-- A user sees what is recorded for him, where he owns planets, and what is recorded for the members of his alliance. -/
theorem mem_shown {caching : Bool} {sky : Sky} {id : UserId} {user : User} (hget : sky.users.get id = some user)
    {sunsystem : ℕ} : sunsystem ∈ shown caching sky id ↔
      (sunsystem, id) ∈ sky.sunsystemsUsers ∨ (∃ planet ∈ sky.planetsOf id, planet.sunsystem = sunsystem) ∨
        ∃ alliance fellow, user.alliance = some alliance ∧ fellow ∈ sky.usersOf alliance ∧
          (sunsystem, fellow) ∈ sky.sunsystemsUsers := by
  rw [shown_eq hget]
  cases halliance : user.alliance with
  | none => simp [mem_sunsystemsOf]
  | some alliance =>
      have hself : id ∈ sky.usersOf alliance := Table.mem_select.mpr ⟨user, hget, decide_eq_true halliance⟩
      simp only [List.mem_append, List.mem_map, List.mem_flatMap, mem_sunsystemsOf, Option.some.injEq]
      constructor
      · rintro (hown | ⟨fellow, hfellow, hrow⟩)
        · exact .inr (.inl hown)
        · exact .inr (.inr ⟨alliance, fellow, rfl, hfellow, hrow⟩)
      · rintro (hrow | hown | ⟨alliance, fellow, rfl, hfellow, hrow⟩)
        · exact .inr ⟨id, hself, hrow⟩
        · exact .inl hown
        · exact .inr ⟨fellow, hfellow, hrow⟩

namespace Event

/-- Who visits which sunsystem. -/
def visits (state : State) (event : Event) : List (UserId × ℕ) :=
  ((event.visit state).map fun (sight, sunsystem) => (sight.user.id, sunsystem)).toList

/-- Nobody visits a sunsystem that he only has from his alliance. -/
def Lasting (caching : Bool) (state : State) (event : Event) : Prop :=
  ∀ visit ∈ event.visit state, ¬Sunsystem.Borrowed caching visit.2 visit.1

instance (caching : Bool) (state : State) (event : Event) : Decidable (event.Lasting caching state) :=
  inferInstanceAs (Decidable (∀ visit ∈ event.visit state, _))

end Event

/-- The visits of the log are recorded. -/
def State.Remembers (log : List (UserId × ℕ)) (state : State) : Prop :=
  state.Sound ∧ ∀ visit ∈ log,
    (visit.2, visit.1) ∈ state.sky.sunsystemsUsers ∧ (state.sky.users.get visit.1).isSome

/-- After a lasting event the visit is recorded. -/
theorem recorded_of_visit {caching : Bool} {state next : State} {event : Event} (hsound : state.Sound)
    (hlasting : event.Lasting caching state) (hstep : step caching state event = some next) {visit : UserId × ℕ}
    (hvisit : visit ∈ event.visits state) :
    (visit.2, visit.1) ∈ next.sky.sunsystemsUsers ∧ (next.sky.users.get visit.1).isSome := by
  obtain ⟨⟨sight, sunsystem⟩, hfound, rfl⟩ := Option.map_eq_some_iff.mp (Option.mem_toList.mp hvisit)
  obtain ⟨⟨record, hsight⟩, -⟩ := Event.step_visit caching hfound
  obtain ⟨hrecord, hsky⟩ := sight_eq_some hsight
  obtain ⟨hbacked, huser⟩ := hsound sight.user (List.mem_of_getElem? hrecord)
  have hrows : next.sky.sunsystemsUsers = (Sunsystem.seenBy caching sunsystem sight).sky.sunsystemsUsers := by
    rw [step_rows hstep, Event.rows_of_visit caching hfound, Sunsystem.seenBy_rows, hsky]
  refine ⟨?_, (step_becomes hstep).sky_grows.users _ huser⟩
  rw [hrows]
  exact (Sunsystem.seenBy_records_iff (hsky ▸ hbacked)).mpr (hlasting _ hfound)

theorem State.Remembers.step {caching : Bool} {log : List (UserId × ℕ)} {state next : State} {event : Event}
    (hlog : state.Remembers log) (hlasting : event.Lasting caching state)
    (hstep : step caching state event = some next) : next.Remembers (log ++ event.visits state) := by
  have hnext := step_becomes hstep
  refine ⟨hnext.sound hlog.1, fun visit hvisit => ?_⟩
  rcases List.mem_append.mp hvisit with hearlier | hnew
  · obtain ⟨hrow, huser⟩ := hlog.2 visit hearlier
    exact ⟨hnext.sky_grows.rows hrow, hnext.sky_grows.users visit.1 huser⟩
  · exact recorded_of_visit hlog.1 hlasting hstep hnew

theorem visited_stays_visible (caching : Bool) (sky : Sky) (events : List Event) (final : State)
    (hlasting : Along (step caching) (fun state event => event.Lasting caching state) (.start sky) events)
    (hrun : run (step caching) (.start sky) events = some final) :
    ∀ visit ∈ collect (step caching) (fun state event => event.visits state) (.start sky) events,
      visit.2 ∈ shown caching final.sky visit.1 := by
  have hfinal : final.Remembers ([] ++ collect _ _ _ _) :=
    run_collects State.Remembers (fun _ _ _ _ hlog hgood hstep => hlog.step hgood hstep)
      ⟨State.sound_start sky, nofun⟩ hlasting hrun
  intro visit hvisit
  obtain ⟨hrow, huser⟩ := hfinal.2 visit hvisit
  obtain ⟨user, hget⟩ := Option.isSome_iff_exists.mp huser
  exact (mem_shown hget).mpr (.inl hrow)

/-- A user visits a sunsystem, joins an alliance and leaves it. -/
theorem visited_stays_visible_leaver : ∃ final, run (step true) (.start .empty)
    [.register, .discover 1 1, .find 1, .planetSeenBy 0 1, .addUser 0 1, .removeUser 0 1] = some final ∧
      1 ∈ shown true final.sky 1 := by
  obtain ⟨final, hrun⟩ := Option.isSome_iff_exists.mp (by decide : (run (step true) (.start .empty)
    [.register, .discover 1 1, .find 1, .planetSeenBy 0 1, .addUser 0 1, .removeUser 0 1]).isSome = true)
  exact ⟨final, hrun, visited_stays_visible true .empty _ final (by decide) hrun (1, 1) (by decide)⟩

/-- A user visits what a member of his alliance has seen, and leaves the alliance. -/
theorem visit_forgotten : ¬∀ caching sky events final, run (step caching) (.start sky) events = some final →
    ∀ visit ∈ collect (step caching) (fun state event => event.visits state) (.start sky) events,
      visit.2 ∈ shown caching final.sky visit.1 := by
  intro hall
  have htest : (run (step true) (.start .empty) [.register, .register, .discover 1 1, .find 2, .planetSeenBy 0 1,
      .addUser 0 1, .find 1, .addUser 1 1, .planetSeenBy 1 1, .removeUser 1 1]).any
      (fun final => !decide (1 ∈ shown true final.sky 1)) = true := by
    decide
  obtain ⟨final, hrun, hgone⟩ := (Option.any_eq_true _ _).mp htest
  have hshown := hall true .empty _ final hrun (1, 1) (by decide)
  rw [decide_eq_true hshown] at hgone
  cases hgone

end Mmog.Visibility
