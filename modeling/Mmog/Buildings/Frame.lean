import Mmog.Buildings.Count

/-!
# What buildings depend on

Buildings come from jobs, and the jobs for them from orders.  A property of the
buildings and the pending jobs that holds when an order is accepted and when a
job is finished holds after whatever else happens.
-/

namespace Mmog

open Ruby Action Game

/-- An upgrade replaces one building of the planet, by the type that is one level above its own. -/
theorem Planet.upgradeFirst_eq_some {rules : Rules} {p : PlanetId} {buildMe : Buildingtype}
    {old new : List Building} (hupgrade : Planet.upgradeFirst rules p buildMe old = .ok (some new)) :
    ∃ pre building post type, old = pre ++ building :: post ∧ building.planet = p ∧
      rules.buildingtype building.buildingtype = some type ∧ type.name = buildMe.name ∧
        type.level + 1 = buildMe.level ∧
          new = pre ++ { building with buildingtype := buildMe.id } :: post := by
  induction old generalizing new with
  | nil => cases hupgrade
  | cons first rest ih =>
      have hskip : (Planet.upgradeFirst rules p buildMe rest).map (fun found => found.map (first :: ·)) =
          .ok (some new) → ∃ pre building post type, first :: rest = pre ++ building :: post ∧
            building.planet = p ∧ rules.buildingtype building.buildingtype = some type ∧
              type.name = buildMe.name ∧ type.level + 1 = buildMe.level ∧
                new = pre ++ { building with buildingtype := buildMe.id } :: post := by
        intro hmap
        cases hrest : Planet.upgradeFirst rules p buildMe rest with
        | error err =>
            rw [hrest] at hmap
            cases hmap
        | ok found =>
            rw [hrest] at hmap
            obtain ⟨others, rfl, rfl⟩ := Option.map_eq_some_iff.mp (Except.ok.inj hmap)
            obtain ⟨pre, building, post, type, rfl, hplanet, htype, hname, hlevel, rfl⟩ := ih hrest
            exact ⟨first :: pre, building, post, type, rfl, hplanet, htype, hname, hlevel, rfl⟩
      rw [Planet.upgradeFirst] at hupgrade
      split at hupgrade
      · rename_i hplanet
        split at hupgrade
        · cases hupgrade
        · rename_i type htype
          split at hupgrade
          · rename_i hlevel
            cases hupgrade
            exact ⟨[], first, rest, type, rfl, hplanet, htype, hlevel.1, hlevel.2, rfl⟩
          · exact hskip hupgrade
      · exact hskip hupgrade

/-- A property of the buildings and the pending jobs, of which only those for buildings count, that
orders and finished jobs keep. -/
structure SiteFrame (rules : Rules) (J : List Building → List Job → Prop) : Prop where
  fewer : ∀ {buildings jobs rest}, rest ⊆ jobs → J buildings jobs → J buildings rest
  other : ∀ {buildings jobs} {job : Job}, (∀ p id, job ≠ .buildBuildings p id) → J buildings jobs →
    J buildings (job :: jobs)
  order : ∀ (db : Db) {p name type}, Planet.buildable rules.toWorld db p name = some type →
    J db.buildings db.jobs → J db.buildings (.buildBuildings p type.id :: db.jobs)
  build : ∀ {buildings new jobs p type}, type ∈ rules.buildingtypes → .buildBuildings p type.id ∈ jobs →
    Planet.Built rules p type buildings new → J buildings jobs → J new jobs

/-- The property of the buildings and the pending jobs of the tables. -/
def Db.Holds (J : List Building → List Job → Prop) (db : Db) : Prop := J db.buildings db.jobs

namespace SiteFrame

variable {rules : Rules} {J : List Building → List Job → Prop} (hframe : SiteFrame rules J)

include hframe

theorem enqueued {db : Db} {timestamp : ℤ} {job : Job} (hdb : J db.buildings (job :: db.jobs)) :
    Db.Holds J { db with delayed := db.delayed ++ [⟨timestamp, job⟩] } := by
  refine hframe.fewer ?_ hdb
  intro pending hpending
  simp only [Db.jobs, List.map_append, List.map_singleton, List.mem_append, List.mem_cons] at hpending ⊢
  tauto

theorem removed {db : Db} (job : Job) (hdb : db.Holds J) :
    Db.Holds J { db with delayed := db.delayed.filter fun entry => entry.job ≠ job } := by
  refine hframe.fewer ?_ hdb
  have hsublist := (List.filter_sublist (p := fun entry : Enqueued => decide (entry.job ≠ job))
    (l := db.delayed)).map Enqueued.job
  exact (hsublist.append_right db.ready).subset

theorem taken {db : Db} {index : ℕ} {job : Job} (hget : db.ready[index]? = some job)
    (hdb : db.Holds J) : Db.Holds J { db with ready := db.ready.eraseIdx index } :=
  hframe.fewer (fun _ hpending => (Db.jobs_take hget).mem_iff.mpr (List.mem_cons_of_mem job hpending)) hdb

/-- What a planet's fields are does not count. -/
theorem fleets : FleetFrame (Db.Holds J) where
  fleets _ hdb := hdb
  stock _ _ _ _ hdb := hdb
  spend _ _ _ _ hdb := hdb
  charge _ _ _ hdb := hdb
  money _ _ hdb := hdb
  setting _ _ hdb := hdb
  enqueue := by
    intro db timestamp job fleet hfleet hdb
    refine hframe.enqueued (hframe.other ?_ hdb)
    rintro p id rfl
    cases hfleet
  remove _ hdb := hframe.removed _ hdb

theorem queue : QueueFrame (Db.Holds J) where
  wait _ hdb := hdb
  schedule hget hdb := hframe.fewer (Db.jobs_schedule hget).subset hdb
  take hget _ hdb := hframe.taken hget hdb

theorem createProductionJob (p : PlanetId) :
    Safe (Db.Holds J) (Planet.createProductionJob p) anything :=
  Safe.get.bind fun _ _ => Safe.modify fun _ hdb =>
    hframe.enqueued (hframe.other (fun _ _ heq => Job.noConfusion heq) hdb)

theorem createBuildingJob (p : PlanetId) (name : BuildingName) :
    Safe (Db.Holds J) (Planet.createBuildingJob rules.toWorld p name) anything := by
  refine fun db hdb => ⟨?_, fun _ _ => trivial⟩
  obtain hsame | ⟨type, u, hbuildable, -, -, hordered⟩ :=
    Planet.createBuildingJob_outcome rules.toWorld p name db
  · rw [hsame]
    exact hdb
  · rw [hordered]
    have hpaid : J (Planet.paid db p u type).buildings (.buildBuildings p type.id :: db.jobs) :=
      hframe.order db hbuildable hdb
    exact hframe.enqueued hpaid

theorem claim (p : PlanetId) (u : UserId) :
    Safe (Db.Holds J) (Planet.claim rules.toWorld p u) anything :=
  Planet.claim_safe (fun _ hdb => hdb) (hframe.createBuildingJob p) (fun _ hdb => hdb)
    (hframe.createProductionJob p)

/-- A finished job is looked up in the queue it was taken from. -/
theorem buildBuilding {game : Game} {p : PlanetId} {id : ℕ} {jobs : List Job}
    (hjob : .buildBuildings p id ∈ jobs) (hrest : game.db.jobs ⊆ jobs) (hgame : J game.db.buildings jobs) :
    (after ((Planet.buildBuilding rules p id).run game)).db.Holds J := by
  obtain hsame | ⟨type, new, htype, hbuilt, hfinished⟩ := Planet.buildBuilding_outcome rules p id game
  · rw [hsame]
    exact hframe.fewer hrest hgame
  · obtain rfl : type.id = id := by
      have htest := List.find?_some htype
      exact of_decide_eq_true htest
    have hnew := hframe.fewer hrest (hframe.build (List.mem_of_find?_eq_some htype) hjob hbuilt hgame)
    rw [hfinished, Planet.finished]
    dsimp only
    split <;> exact hnew

theorem removeDelayed (job : Job) : Safe (Db.Holds J) (Resque.removeDelayed job) anything :=
  Safe.modify fun _ hdb => hframe.removed job hdb

theorem step {game next : Game} (hgame : game.db.Holds J) {event : GameEvent}
    (hstep : event.step rules game = some next) : next.db.Holds J := by
  have hfleets : FleetFrame (Db.Holds J) := hframe.fleets
  have hends : ∀ {α : Type} {action : GameAct α} {φ : α → Prop},
      Safe (fun game => game.db.Holds J) action φ → GameEvent.ends action game = some next →
        next.db.Holds J := by
    intro α action φ hsafe hsome
    cases hsome
    exact hsafe.after hgame
  cases event with
  | fleets event =>
      obtain ⟨db, hdb, rfl⟩ := Option.map_eq_some_iff.mp hstep
      refine hfleets.step hframe.queue (fun _ hkept => hkept) ?_ hgame hdb
      refine fun fleet planet start hstart => Safe.after (φ := anything) ?_ hstart
      exact (Fleet.find_safe fleet).bind fun self _ => hfleets.colonize rules.toWorld hframe.claim self planet
  | claim planet user => exact hends (safe_onDb (hframe.claim planet user)) hstep
  | claimStartplanetFor user markerPos =>
      exact hends (Planet.claimStartplanetFor_safe (fun p => hframe.claim p user) markerPos) hstep
  | createBuildingJob planet name => exact hends (safe_onDb (hframe.createBuildingJob planet name)) hstep
  | deleteBuildingJob planet buildingtype =>
      refine hends (hfleets.deleteBuildingJob rules planet buildingtype ?_ (hframe.removeDelayed _)) hstep
      exact fun _ hdb => hdb
  | abortUpgrade planet buildingtype =>
      refine hends (hfleets.abortUpgrade rules planet buildingtype ?_ (hframe.removeDelayed _)) hstep
      exact fun _ hdb => hdb
  | updateResources planet =>
      cases hstep
      exact Planet.updateResources_safe hgame (fun _ _ _ hdb => hdb) (hframe.createProductionJob planet)
        fun _ _ _ hdb => hdb
  | workPlanet index =>
      simp only [GameEvent.step] at hstep
      split at hstep
      · rename_i job hget
        cases job with
        | buildBuildings planet buildingtype =>
            cases hstep
            rw [after_bind_pure]
            have hjobs := Db.jobs_take hget
            refine hframe.buildBuilding (hjobs.mem_iff.mpr List.mem_cons_self) ?_ hgame
            exact fun _ hpending => hjobs.mem_iff.mpr (List.mem_cons_of_mem _ hpending)
        | produceResources planet =>
            cases hstep
            exact Planet.updateResources_safe (hframe.taken hget hgame) (fun _ _ _ hdb => hdb)
              (hframe.createProductionJob planet) fun _ _ _ hdb => hdb
        | _ => cases hstep
      · cases hstep
  | _ => exact hfleets.jobless hgame rfl hstep

theorem run {start game : Game} {events : List GameEvent} (hstart : start.db.Holds J)
    (hrun : Ruby.run (GameEvent.step rules) start events = some game) : game.db.Holds J := by
  have hsteps : ∀ (game : Game) event (next : Game), game.db.Holds J →
      GameEvent.step rules game event = some next → next.db.Holds J := fun _ _ _ hgame hstep => hframe.step hgame hstep
  exact run_invariant hsteps hstart hrun

end SiteFrame

end Mmog
