import Mmog.Game.Frame

/-!
# One event at a time

What fleets, the shipyard and research leave alone is kept by every event of
theirs, if the clock and the queue leave it alone too.
-/

namespace Mmog

open Ruby Action Game

/-- An event that settles leaves what its action wrote. -/
theorem settled_eq_some {α : Type} {result : EStateM.Result Err Db α} {next : Db}
    (hsettled : settled result = some next) : next = after result := by
  cases result with
  | ok value db =>
      cases hsettled
      rfl
  | error err db =>
      cases err with
      | undrawn => cases hsettled
      | _ =>
          cases hsettled
          rfl

namespace Db.Fresh

variable {db : Db} (hfresh : db.Fresh)

include hfresh

theorem get (id : FleetId) : db.fleets.get id = none := by
  rw [hfresh.fleets]
  rfl

/-- Without fleets every property holds of all of them. -/
theorem all (property : FleetRow → Prop) : db.fleets.All property := by
  intro id row hget
  rw [hfresh.get] at hget
  cases hget

end Db.Fresh

/-! ## The queue -/

namespace Db

variable {db : Db} {index : ℕ}

/-- The jobs of planets and fleets that are still to run. -/
def jobs (db : Db) : List Job := db.delayed.map Enqueued.job ++ db.ready

theorem jobs_schedule {entry : Enqueued} (hget : db.delayed[index]? = some entry) :
    ({ db with delayed := db.delayed.eraseIdx index, ready := db.ready ++ [entry.job] } : Db).jobs.Perm
      db.jobs := by
  have herase := (Backlog.perm_cons_eraseIdx hget).map Enqueued.job
  have hready : (db.ready ++ [entry.job]).Perm (entry.job :: db.ready) :=
    List.perm_append_singleton entry.job db.ready
  exact (hready.append_left _).trans
    (List.perm_middle.trans (herase.append_right db.ready).symm)

theorem jobs_take {job : Job} (hget : db.ready[index]? = some job) :
    db.jobs.Perm (job :: ({ db with ready := db.ready.eraseIdx index } : Db).jobs) :=
  ((Backlog.perm_cons_eraseIdx hget).append_left _).trans List.perm_middle

end Db

/-- An invariant that does not depend on the clock, nor on where in the queue a job is, nor on the
jobs of fleets. -/
structure QueueFrame (I : Db → Prop) : Prop where
  wait : ∀ {db : Db} (now : ℕ), I db → I { db with now }
  schedule : ∀ {db : Db} {index : ℕ} {entry : Enqueued}, db.delayed[index]? = some entry → I db →
    I { db with delayed := db.delayed.eraseIdx index, ready := db.ready ++ [entry.job] }
  take : ∀ {db : Db} {index : ℕ} {job : Job} {fleet : FleetId}, db.ready[index]? = some job →
    job.fleet? = some fleet → I db → I { db with ready := db.ready.eraseIdx index }

/-- The job that a worker runs as a fleet's is one. -/
theorem Job.fleet?_of_perform {w : World} {draws : Draws} {job : Job} {action : Act Unit}
    (hperform : job.perform w draws = some action) : ∃ fleet, job.fleet? = some fleet := by
  cases job with
  | buildBuildings planet buildingtype => cases hperform
  | produceResources planet => cases hperform
  | _ => exact ⟨_, rfl⟩

namespace FleetFrame

variable {I : Db → Prop} (hframe : FleetFrame I)

include hframe

/-- Colonising keeps what claiming keeps. -/
theorem colonize (w : World) (hclaim : ∀ planet user, Safe I (Planet.claim w planet user) anything)
    (self : Fleet) (planet : PlanetId) : Safe I (self.colonize w planet) anything := by
  refine Safe.get.bind fun db _ => ?_
  cases db.relation self.user planet with
  | unknown =>
      refine (hclaim planet self.user).bind fun _ _ => Safe.get.bind fun later _ => ?_
      refine (hframe.unloadRessources _ planet).bind fun unloaded _ => ?_
      refine (hframe.destroyShips w unloaded _).bind fun valued _ => ?_
      exact (hframe.updateValues w _).bind fun _ _ => Safe.pure trivial
  | own => exact hframe.returnToOrigin w self planet
  | allied => exact hframe.returnToOrigin w self planet
  | enemy => exact hframe.returnToOrigin w self planet

/-- An event of fleets, with what becomes of a colonist's job as a parameter. -/
theorem step {w : World} {goal : Db → Prop} (hqueue : QueueFrame I) (hgoal : ∀ db, I db → goal db)
    (hcolonist : ∀ fleet planet start, I start →
      goal (after ((do (← Fleet.find fleet).colonize w planet : Act Unit).run start)))
    {db next : Db} (hdb : I db) {event : Event} (hstep : Mmog.step w db event = some next) : goal next := by
  have hsettled : ∀ {α : Type} {action : Act α} {φ : α → Prop} {start : Db}, Safe I action φ →
      I start → settled (action.run start) = some next → goal next := by
    intro α action φ start hsafe hstart hsome
    rw [settled_eq_some hsome]
    exact hgoal _ (hsafe.after hstart)
  cases event with
  | wait seconds =>
      cases hstep
      exact hgoal _ (hqueue.wait _ hdb)
  | addShip ship planet => exact hsettled (hframe.addShipToPlanet w ship planet) hdb hstep
  | check params => exact hsettled (hframe.checkHelper w params) hdb hstep
  | send params => exact hsettled (hframe.sendFleet w params) hdb hstep
  | breakup fleet => exact hsettled (hframe.breakup fleet) hdb hstep
  | unload fleet planet => exact hsettled (hframe.unload fleet planet) hdb hstep
  | research user technology factor =>
      cases hstep
      exact hgoal _ (hframe.setting user _ hdb)
  | schedule index =>
      simp only [Mmog.step] at hstep
      split at hstep
      · rename_i entry hget
        split at hstep
        · cases hstep
          exact hgoal _ (hqueue.schedule hget hdb)
        · cases hstep
      · cases hstep
  | work index draws =>
      simp only [Mmog.step] at hstep
      split at hstep
      · rename_i job hget
        split at hstep
        · rename_i action hperform
          obtain ⟨fleet, hfleet⟩ := Job.fleet?_of_perform hperform
          have htaken := hqueue.take hget hfleet hdb
          by_cases hcolonize : ∃ fleet planet, job = .colonizePlanet fleet planet
          · obtain ⟨fleet, planet, rfl⟩ := hcolonize
            cases hperform
            rw [settled_eq_some hstep]
            exact hcolonist fleet planet _ htaken
          · have hother : ∀ fleet planet, job ≠ .colonizePlanet fleet planet :=
              fun fleet planet heq => hcolonize ⟨fleet, planet, heq⟩
            exact hsettled (hframe.perform w draws hperform hother) htaken hstep
        · cases hstep
      · cases hstep

end FleetFrame

/-! ## The other events -/

/-- The events that touch no job of a planet or a fleet. -/
def GameEvent.jobless : GameEvent → Bool
  | .give .. | .take .. | .insert .. | .removeQueue _ | .fireShip _ | .scheduleShip _ | .workShip _ => true
  | .upgradeTechnology .. | .abortTechnology .. => true
  | .fireResearch _ | .scheduleResearch _ | .workResearch _ => true
  | _ => false

theorem FleetFrame.jobless {I : Db → Prop} (hframe : FleetFrame I) {rules : Rules} {game next : Game}
    (hgame : I game.db) {event : GameEvent} (hevent : event.jobless = true)
    (hstep : event.step rules game = some next) : I next.db := by
  have hends : ∀ {α : Type} {action : GameAct α} {φ : α → Prop} {start : Game},
      Safe (fun game => I game.db) action φ → I start.db → GameEvent.ends action start = some next →
        I next.db := by
    intro α action φ start hsafe hstart hsome
    cases hsome
    exact hsafe.after hstart
  cases event with
  | give planet type number => exact hends (safe_onDb (hframe.give planet type number)) hgame hstep
  | take planet type number =>
      have htake := hframe.take planet type fun _ => show (Numeric.int number).Rounded from trivial
      exact hends (safe_onDb htake) hgame hstep
  | insert planet ships => exact hends (hframe.insert rules ships planet) hgame hstep
  | removeQueue id => exact hends (hframe.removeQueue rules id) hgame hstep
  | fireShip index =>
      simp only [GameEvent.step] at hstep
      split at hstep
      · refine hends (hframe.deliver rules _) ?_ hstep
        exact hgame
      · cases hstep
  | scheduleShip index =>
      obtain ⟨addShips, -, rfl⟩ := Option.map_eq_some_iff.mp hstep
      exact hgame
  | workShip index =>
      simp only [GameEvent.step] at hstep
      split at hstep
      · refine hends (hframe.deliver rules _) ?_ hstep
        exact hgame
      · cases hstep
  | upgradeTechnology technology user =>
      exact hends (hframe.upgradeTechnology rules technology user) hgame hstep
  | abortTechnology technology user =>
      exact hends (hframe.abortTechnology rules technology user) hgame hstep
  | fireResearch index =>
      simp only [GameEvent.step] at hstep
      split at hstep
      · refine hends (hframe.updateUservalues rules _ _) ?_ hstep
        exact hgame
      · cases hstep
  | scheduleResearch index =>
      obtain ⟨researches, -, rfl⟩ := Option.map_eq_some_iff.mp hstep
      exact hgame
  | workResearch index =>
      simp only [GameEvent.step] at hstep
      split at hstep
      · refine hends (hframe.updateUservalues rules _ _) ?_ hstep
        exact hgame
      · cases hstep
  | fleets event => cases hevent
  | claim planet user => cases hevent
  | claimStartplanetFor user markerPos => cases hevent
  | createBuildingJob planet name => cases hevent
  | deleteBuildingJob planet buildingtype => cases hevent
  | abortUpgrade planet buildingtype => cases hevent
  | updateResources planet => cases hevent
  | workPlanet index => cases hevent

end Mmog
