import Mmog.Buildings.Count
import Mmog.Game.Board
import Mmog.Model.Seeds

/-!
# One building of each name

From the claim of a planet on, the buildings of a name and the pending jobs for
the first of them are at most one together, as long as no first building is
ordered while a job for it is pending.  What is under construction says nothing
about that: every abort and every finished job sets it back.
-/

namespace Mmog

open Ruby Action Game

/-- The planet has an owner, and of each name it has one building or one job for it, or neither. -/
structure Db.Sited (rules : Rules) (p : PlanetId) (db : Db) : Prop where
  owner : ∃ u, (db.planets p).user = some u
  single : ∀ name, db.rows rules p name + db.firsts rules p name ≤ 1

namespace Db.Sited

variable {rules : Rules} {p : PlanetId} {db next : Db}

/-- Only owners, buildings and jobs count. -/
theorem of_eq (hdb : db.Sited rules p) (howner : (next.planets p).user = (db.planets p).user)
    (hbuildings : next.buildings = db.buildings) (hdelayed : next.delayed = db.delayed)
    (hready : next.ready = db.ready) : next.Sited rules p := by
  refine ⟨howner ▸ hdb.owner, fun name => ?_⟩
  have hsingle := hdb.single name
  rw [Db.rows, Db.firsts, Db.jobs] at hsingle ⊢
  rw [hbuildings, hdelayed, hready]
  exact hsingle

theorem setPlanet (hdb : db.Sited rules p) {q : PlanetId} {planet : Planet}
    (howner : q = p → ∃ u, planet.user = some u) : (db.setPlanet q planet).Sited rules p := by
  refine ⟨?_, hdb.single⟩
  rw [Db.setPlanet]
  dsimp only
  split
  · rename_i heq
    exact howner heq.symm
  · exact hdb.owner

theorem setSame (hdb : db.Sited rules p) {q : PlanetId} {planet : Planet}
    (hsame : planet.user = (db.planets q).user) : (db.setPlanet q planet).Sited rules p := by
  refine hdb.setPlanet ?_
  rintro rfl
  rw [hsame]
  exact hdb.owner

/-- A job that is not for a first building can be enqueued. -/
theorem enqueue (hdb : db.Sited rules p) (timestamp : ℤ) {job : Job}
    (hjob : ∀ name, rules.starts p name job = false) :
    Sited rules p { db with delayed := db.delayed ++ [⟨timestamp, job⟩] } := by
  refine ⟨hdb.owner, fun name => ?_⟩
  rw [Db.firsts_enqueue, hjob name]
  exact hdb.single name

theorem remove (hdb : db.Sited rules p) (job : Job) :
    Sited rules p { db with delayed := db.delayed.filter fun entry => entry.job ≠ job } := by
  refine ⟨hdb.owner, fun name => ?_⟩
  have hle : Db.firsts rules _ p name ≤ db.firsts rules p name := Db.firsts_remove_le job
  exact (Nat.add_le_add_left hle _).trans (hdb.single name)

/-- A job that is taken out of the queue makes room for its row. -/
theorem room (hdb : db.Sited rules p) {index : ℕ} {job : Job} (hget : db.ready[index]? = some job)
    (name : BuildingName) :
    Db.rows rules { db with ready := db.ready.eraseIdx index } p name +
      Db.firsts rules { db with ready := db.ready.eraseIdx index } p name +
        (if rules.starts p name job then 1 else 0) ≤ 1 := by
  have hsingle := hdb.single name
  rw [Db.firsts_take hget, ← add_assoc] at hsingle
  exact hsingle

theorem take (hdb : db.Sited rules p) {index : ℕ} {job : Job} (hget : db.ready[index]? = some job) :
    Sited rules p { db with ready := db.ready.eraseIdx index } :=
  ⟨hdb.owner, fun name => (Nat.le_add_right _ _).trans (hdb.room hget name)⟩

theorem frame : FleetFrame (Db.Sited rules p) where
  fleets _ hdb := hdb.of_eq rfl rfl rfl rfl
  stock := @fun _ _ type n _ hdb => hdb.setSame (Planet.user_setStock type n _)
  spend := @fun _ _ _ _ _ hdb => hdb.setSame (Planet.user_setStock .energy _ _)
  charge := @fun _ _ _ _ hdb => hdb.setSame (Planet.user_setStock .energy _ _)
  money _ _ hdb := hdb.of_eq rfl rfl rfl rfl
  setting _ _ hdb := hdb.of_eq rfl rfl rfl rfl
  enqueue := by
    intro db timestamp job fleet hfleet hdb
    refine hdb.enqueue timestamp fun name => ?_
    cases job with
    | buildBuildings planet buildingtype => cases hfleet
    | _ => rfl
  remove := @fun _ job _ _ hdb => hdb.remove job

theorem queue : QueueFrame (Db.Sited rules p) where
  wait _ hdb := hdb.of_eq rfl rfl rfl rfl
  schedule := by
    intro db index entry hget hdb
    refine ⟨hdb.owner, fun name => ?_⟩
    rw [Db.firsts_schedule hget]
    exact hdb.single name
  take := @fun _ _ _ _ hget _ hdb => hdb.take hget

end Db.Sited

namespace Planet

variable {rules : Rules} {p : PlanetId} {db : Db}

theorem constructing_sited (hdb : db.Sited rules p) (q : PlanetId) (id : ℕ) :
    (constructing db q id).Sited rules p :=
  hdb.setSame rfl

theorem createProductionJob_sited (q : PlanetId) :
    Safe (Db.Sited rules p) (createProductionJob q) anything :=
  Safe.get.bind fun _ _ => Safe.modify fun _ hdb => hdb.enqueue _ fun _ => rfl

/-! ## Orders -/

/-- Whether an order would be accepted for a first building while a job for one is pending. -/
def repeats (rules : Rules) (db : Db) (p : PlanetId) (name : BuildingName) : Bool :=
  match buildable rules.toWorld db p name, (db.planets p).user with
  | some type, some u => type.level = 1 ∧ Affords db p u type ∧ 0 < db.firsts rules p name
  | _, _ => false

theorem firsts_of_repeats {name : BuildingName} {type : Buildingtype} {u : UserId}
    (hrepeats : repeats rules db p name = false) (hbuildable : buildable rules.toWorld db p name = some type)
    (huser : (db.planets p).user = some u) (hafford : Affords db p u type) (hlevel : type.level = 1) :
    db.firsts rules p name = 0 := by
  unfold repeats at hrepeats
  rw [hbuildable, huser] at hrepeats
  by_contra hpending
  exact of_decide_eq_false hrepeats ⟨hlevel, hafford, Nat.pos_of_ne_zero hpending⟩

/-- The job of an order for a first building is one for the name that is ordered. -/
theorem starts_of_buildable {q : PlanetId} {name other : BuildingName} {type : Buildingtype}
    (hbuildable : buildable rules.toWorld db q name = some type)
    (hstarts : rules.starts p other (.buildBuildings q type.id) = true) :
    q = p ∧ other = name ∧ type.level = 1 := by
  obtain ⟨hmem, hname, -⟩ := buildable_cases hbuildable
  obtain ⟨hplanet, hfirst⟩ := of_decide_eq_true hstarts
  rw [Rules.isFirst, rules.buildingtype_of_mem hmem, Option.any_some] at hfirst
  obtain ⟨hsame, hlevel⟩ := of_decide_eq_true hfirst
  exact ⟨hplanet, hsame.symm.trans hname, hlevel⟩

theorem paid_sited (hdb : db.Sited rules p) (q : PlanetId) (u : UserId) (type : Buildingtype) :
    (paid db q u type).Sited rules p := by
  have hmoney : (db.setMoney u ((db.users u).money - type.buildCostMoney)).Sited rules p :=
    hdb.of_eq rfl rfl rfl rfl
  exact hmoney.setSame rfl

theorem createBuildingJob_sited (hdb : db.Sited rules p) {q : PlanetId} {name : BuildingName}
    (hrepeats : q = p → repeats rules db p name = false) :
    (after ((createBuildingJob rules.toWorld q name).run db)).Sited rules p := by
  obtain hsame | ⟨type, u, hbuildable, huser, hafford, hordered⟩ :=
    createBuildingJob_outcome rules.toWorld q name db
  · rw [hsame]
    exact hdb
  · rw [hordered]
    refine ⟨(paid_sited hdb q u type).owner, fun other => ?_⟩
    change db.rows rules p other + Db.firsts rules { db with delayed := db.delayed ++ [order db q type] } p other ≤ 1
    rw [order, Db.firsts_enqueue]
    split
    · rename_i hstarts
      obtain ⟨rfl, rfl, hlevel⟩ := starts_of_buildable hbuildable hstarts
      rw [rows_of_buildable hbuildable hlevel,
        firsts_of_repeats (hrepeats rfl) hbuildable huser hafford hlevel]
    · exact hdb.single other

/-! ## Claims -/

/-- Before anything is built: what is ordered so far is ordered once. -/
structure Founded (rules : Rules) (p : PlanetId) (done : List BuildingName) (db : Db) : Prop where
  owner : ∃ u, (db.planets p).user = some u
  rows : ∀ name, db.rows rules p name = 0
  firsts : ∀ name, db.firsts rules p name ≤ done.count name

theorem startBuilding_founded {done : List BuildingName} (hdb : Founded rules p done db) (name : BuildingName) :
    ∃ next, (startBuilding rules.toWorld p name).run db = .ok ⟨⟩ next ∧ Founded rules p (name :: done) next := by
  obtain ⟨u, huser⟩ := hdb.owner
  refine ⟨_, startBuilding_run rules.toWorld huser name, ?_⟩
  obtain hsame | ⟨type, v, hbuildable, -, -, hordered⟩ :=
    createBuildingJob_outcome rules.toWorld p name db
  · rw [hsame]
    refine ⟨⟨u, (congrArg Planet.user (if_pos rfl)).trans huser⟩, hdb.rows, fun other => ?_⟩
    exact (hdb.firsts other).trans (List.count_le_count_cons ..)
  · rw [hordered]
    refine ⟨⟨u, ?_⟩, hdb.rows, fun other => ?_⟩
    · simp [constructing, paid, Db.setPlanet, Db.setMoney, huser]
    · change Db.firsts rules { db with delayed := db.delayed ++ [order db p type] } p other ≤ _
      rw [order, Db.firsts_enqueue]
      split
      · rename_i hstarts
        obtain ⟨-, rfl, -⟩ := starts_of_buildable hbuildable hstarts
        rw [List.count_cons_self]
        exact Nat.add_le_add_right (hdb.firsts other) 1
      · exact (hdb.firsts other).trans (List.count_le_count_cons ..)

/-- A planet that is claimed with no buildings and no jobs for any is sited. -/
theorem claim_founds (hfree : (db.planets p).user = none) (hrows : ∀ name, db.rows rules p name = 0)
    (hfirsts : ∀ name, db.firsts rules p name = 0) (u : UserId) :
    (after ((claim rules.toWorld p u).run db)).Sited rules p := by
  have hbegin : Founded rules p [] (db.setPlanet p { db.planets p with user := some u }) :=
    ⟨⟨u, congrArg Planet.user (if_pos rfl)⟩, hrows, fun name => (hfirsts name).le⟩
  obtain ⟨next, hnext, hrun⟩ := claim_of_free hfree hbegin fun _ name _ hdb => startBuilding_founded hdb name
  rw [hrun]
  refine Db.Sited.enqueue ⟨hnext.owner, fun name => ?_⟩ _ fun _ => rfl
  rw [hnext.rows name, zero_add]
  refine (hnext.firsts name).trans ?_
  cases name <;> decide

/-- A claim of an owned planet only sets the owner, and one of another planet is none of its business. -/
theorem claim_sited (q : PlanetId) (u : UserId) :
    Safe (Db.Sited rules p) (claim rules.toWorld q u) anything := by
  by_cases heq : q = p
  · subst heq
    refine fun db hdb => ⟨?_, fun _ _ => trivial⟩
    obtain ⟨v, hv⟩ := hdb.owner
    rw [claim, run_bind_get]
    dsimp only
    rw [hv, run_bind_modify]
    exact hdb.setPlanet fun _ => ⟨u, rfl⟩
  · refine claim_safe (fun db hdb => hdb.setPlanet fun hsame => absurd hsame heq) (fun name => ?_)
      (fun db hdb => constructing_sited hdb q 0) (createProductionJob_sited q)
    exact fun db hdb => ⟨createBuildingJob_sited hdb fun hsame => absurd hsame heq, fun _ _ => trivial⟩

/-! ## Finished and aborted buildings -/

theorem buildBuilding_sited {game : Game} {q : PlanetId} {id : ℕ} (hgame : game.db.Sited rules p)
    (hroom : ∀ name, game.db.rows rules p name + game.db.firsts rules p name +
      (if rules.starts p name (.buildBuildings q id) then 1 else 0) ≤ 1) :
    (after ((buildBuilding rules q id).run game)).db.Sited rules p := by
  have hidle := constructing_sited hgame q 0
  obtain hsame | ⟨buildMe, new, htype, hbuilt, hfinished⟩ := buildBuilding_outcome rules q id game
  · rw [hsame]
    exact hidle
  · have hmem := List.mem_of_find?_eq_some htype
    have hid : buildMe.id = id := by
      have htest := List.find?_some htype
      exact of_decide_eq_true htest
    have hnew : Db.Sited rules p { constructing game.db q 0 with buildings := new } := by
      refine ⟨hidle.owner, fun name => ?_⟩
      have hrows : new.countP (rules.isRow p name) ≤ _ := built_rows hmem hbuilt
      rw [hid] at hrows
      refine (Nat.add_le_add_right hrows _).trans ?_
      rw [add_right_comm]
      exact hroom name
    rw [hfinished, finished]
    dsimp only
    split
    · exact hnew.setSame rfl
    · exact hnew

theorem updateResources_sited {game : Game} (hgame : game.db.Sited rules p) (q : PlanetId) :
    (after ((updateResources rules q).run game)).db.Sited rules p := by
  refine updateResources_safe hgame (fun db u n hdb => ?_) (createProductionJob_sited q)
    fun db planet huser hdb => hdb.setPlanet fun heq => ?_
  · exact hdb.of_eq rfl rfl rfl rfl
  · rw [huser, heq]
    exact hgame.owner

theorem removeDelayed_sited (job : Job) : Safe (Db.Sited rules p) (Resque.removeDelayed job) anything :=
  Safe.modify fun _ hdb => hdb.remove job

end Planet

/-! ## Every event -/

namespace GameEvent

/-- No first building is ordered for the planet while a job for it is pending. -/
def orderly (rules : Rules) (p : PlanetId) (game : Game) : GameEvent → Bool
  | .createBuildingJob planet name => planet ≠ p ∨ Planet.repeats rules game.db p name = false
  | _ => true

variable {rules : Rules} {p : PlanetId} {game next : Game}

theorem step_sited (hgame : game.db.Sited rules p) {event : GameEvent}
    (horderly : event.orderly rules p game = true) (hstep : event.step rules game = some next) :
    next.db.Sited rules p := by
  have hframe : FleetFrame (Db.Sited rules p) := Db.Sited.frame
  have hends : ∀ {α : Type} {action : GameAct α} {φ : α → Prop},
      Safe (fun game => game.db.Sited rules p) action φ → ends action game = some next →
        next.db.Sited rules p := by
    intro α action φ hsafe hsome
    cases hsome
    exact hsafe.after hgame
  cases event with
  | fleets event =>
      obtain ⟨db, hdb, rfl⟩ := Option.map_eq_some_iff.mp hstep
      refine hframe.step Db.Sited.queue (fun _ hsited => hsited) ?_ hgame hdb
      refine fun fleet planet start hstart => Safe.after (φ := anything) ?_ hstart
      exact (Fleet.find_safe fleet).bind fun self _ =>
        hframe.colonize rules.toWorld Planet.claim_sited self planet
  | claim planet user => exact hends (safe_onDb (Planet.claim_sited planet user)) hstep
  | claimStartplanetFor user markerPos =>
      exact hends (Planet.claimStartplanetFor_safe (fun q => Planet.claim_sited q user) markerPos) hstep
  | createBuildingJob planet name =>
      cases hstep
      rw [after_onDb]
      refine Planet.createBuildingJob_sited hgame fun heq => ?_
      exact (of_decide_eq_true horderly).resolve_left (not_not_intro heq)
  | deleteBuildingJob planet buildingtype =>
      refine hends (hframe.deleteBuildingJob rules planet buildingtype ?_ (Planet.removeDelayed_sited _)) hstep
      exact fun db hdb => Planet.constructing_sited hdb planet 0
  | abortUpgrade planet buildingtype =>
      refine hends (hframe.abortUpgrade rules planet buildingtype ?_ (Planet.removeDelayed_sited _)) hstep
      exact fun db hdb => Planet.constructing_sited hdb planet 0
  | updateResources planet =>
      cases hstep
      exact Planet.updateResources_sited hgame planet
  | workPlanet index =>
      simp only [step] at hstep
      split at hstep
      · rename_i job hget
        let taken := game.setDb { game.db with ready := game.db.ready.eraseIdx index }
        have htaken : taken.db.Sited rules p := hgame.take hget
        cases job with
        | buildBuildings planet buildingtype =>
            cases hstep
            rw [after_bind_pure]
            exact Planet.buildBuilding_sited htaken (hgame.room hget)
        | produceResources planet =>
            cases hstep
            exact Planet.updateResources_sited htaken planet
        | _ => cases hstep
      · cases hstep
  | _ => exact hframe.jobless hgame rfl hstep

end GameEvent

/-- From the claim of an untouched planet on it never has two buildings of one name, while no first
building is ordered again before its job has run. -/
theorem one_building_per_type (rules : Rules) (p : PlanetId) (u : UserId) {start game : Game}
    {events : List GameEvent} (hfree : (start.db.planets p).user = none)
    (hbuildings : ∀ building ∈ start.db.buildings, building.planet ≠ p)
    (hjobs : ∀ id, Job.buildBuildings p id ∉ start.db.jobs)
    (hgood : Along (GameEvent.step rules) (fun game event => event.orderly rules p game = true)
      start (.claim p u :: events))
    (hrun : run (GameEvent.step rules) start (.claim p u :: events) = some game) (name : BuildingName) :
    game.db.rows rules p name ≤ 1 := by
  have hrows : ∀ name, start.db.rows rules p name = 0 := by
    intro name
    rw [Db.rows, List.countP_eq_zero]
    exact fun building hbuilding hrow => hbuildings building hbuilding (of_decide_eq_true hrow).1
  have hfirsts : ∀ name, start.db.firsts rules p name = 0 := by
    intro name
    rw [Db.firsts, List.countP_eq_zero]
    intro job hjob hstarts
    cases job with
    | buildBuildings planet id =>
        obtain ⟨rfl, -⟩ := of_decide_eq_true hstarts
        exact hjobs id hjob
    | _ => cases hstarts
  obtain ⟨claimed, hclaim, hrest⟩ := run_cons hrun
  have hclaimed : claimed.db.Sited rules p := by
    cases hclaim
    rw [after_onDb]
    exact Planet.claim_founds hfree hrows hfirsts u
  have hgame : game.db.Sited rules p :=
    run_keeps (fun game : Game => game.db.Sited rules p)
      (fun _ _ _ hgame horderly hstep => GameEvent.step_sited hgame horderly hstep) hclaimed
      (hgood.2 claimed hclaim) hrest
  exact (Nat.le_add_right _ _).trans (hgame.single name)

/-- User 1 claims planet 2, the first buildings are finished, and a depot is ordered, aborted and
ordered again. -/
def changedMind : List GameEvent :=
  [.claim 2 1, .fleets (.schedule 0), .fleets (.schedule 0), .fleets (.schedule 0), .fleets (.schedule 0),
    .workPlanet 0, .workPlanet 0, .workPlanet 0, .workPlanet 0, .createBuildingJob 2 .depot,
    .abortUpgrade 2 40, .createBuildingJob 2 .depot, .fleets (.wait 250), .fleets (.schedule 1), .workPlanet 0]

def changedMindGame : Game :=
  (run (GameEvent.step Seeds.rules) deserted changedMind).get (by decide)

theorem one_building_per_type_sample :
    changedMindGame.db.buildings.length = 5 ∧ changedMindGame.db.rows Seeds.rules 2 .depot ≤ 1 := by
  have hrun : run (GameEvent.step Seeds.rules) deserted changedMind = some changedMindGame :=
    (Option.some_get _).symm
  refine ⟨by decide, ?_⟩
  exact one_building_per_type Seeds.rules 2 1 rfl (List.forall_mem_nil _) (fun id => List.not_mem_nil)
    (by decide) hrun .depot

/-- The mine is ordered a second time before the job that the claim started has run. -/
def impatient : List GameEvent :=
  [.createBuildingJob 2 .oremine, .fleets (.schedule 0), .fleets (.schedule 4), .workPlanet 0, .workPlanet 0]

def impatientGame : Game :=
  (run (GameEvent.step Seeds.rules) deserted (.claim 2 1 :: impatient)).get (by decide)

theorem two_mines :
    (deserted.db.planets 2).user = none ∧ deserted.db.buildings = [] ∧ deserted.db.jobs = [] ∧
      run (GameEvent.step Seeds.rules) deserted (.claim 2 1 :: impatient) = some impatientGame ∧
      ¬ impatientGame.db.rows Seeds.rules 2 .oremine ≤ 1 :=
  ⟨rfl, rfl, rfl, (Option.some_get _).symm, by decide⟩

end Mmog
