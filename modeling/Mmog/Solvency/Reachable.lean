import Mmog.Model.Seeds
import Mmog.Research.Money
import Mmog.Solvency.Missions

/-!
# Nothing goes negative

Production, buildings, the shipyard and research, and with them every event of
the game: from a universe without negative values no run comes to one.
-/

namespace Mmog

open Ruby Action Game

/-- Nothing that a planet stores, a user owns or a fleet carries is negative. -/
def Game.Solvent (game : Game) : Prop := game.db.Solvent

namespace Game.Solvent

variable {game : Game}

theorem setPlanet (hgame : game.Solvent) {planet : Planet} (hplanet : planet.Solvent) (p : PlanetId) :
    (game.setDb (game.db.setPlanet p planet)).Solvent :=
  Db.Solvent.setPlanet hgame hplanet p

theorem setMoney (hgame : game.Solvent) {money : ℤ} (hmoney : 0 ≤ money) (u : UserId) :
    (game.setDb (game.db.setMoney u money)).Solvent :=
  Db.Solvent.setMoney hgame hmoney u

/-- Setting what is under construction changes no stock. -/
theorem setUnderConstruction (hgame : game.Solvent) (p : PlanetId) (id : ℕ) :
    (game.setDb (game.db.setPlanet p { game.db.planets p with underConstruction := id })).Solvent := by
  refine hgame.setPlanet ?_ p
  exact (Db.Solvent.planets hgame p).of_eq rfl rfl rfl rfl rfl rfl

end Game.Solvent

namespace Planet

variable (rules : Rules) (p : PlanetId)

/-! ## Production -/

theorem getProduction_solvent (planet : Planet) (name : BuildingName) :
    Safe Game.Solvent (getProduction rules p planet name) fun production => 0 ≤ production := by
  refine Safe.get.bind fun game _ => ?_
  split
  · exact Safe.pure (le_refl _)
  · exact Safe.throw _ _
  · exact Safe.pure (zero_le_one.trans (le_max_right _ _))

theorem grow_nonneg {old production maximum : ℤ} (hold : 0 ≤ old) (hproduction : 0 ≤ production)
    (hmaximum : 0 ≤ maximum) : 0 ≤ grow old production maximum := by
  unfold grow
  split
  · exact add_nonneg hold hproduction
  · exact hmaximum

theorem produce_solvent {planet : Planet} (hplanet : planet.Solvent) :
    Safe Game.Solvent (produce rules p planet) Planet.Solvent := by
  refine (getProduction_solvent rules p _ .oremine).bind fun ore hore => ?_
  refine (getProduction_solvent rules p _ .city).bind fun population hpopulation => ?_
  refine (getProduction_solvent rules p _ .crystalmine).bind fun crystal hcrystal => ?_
  refine (getProduction_solvent rules p _ .headquarter).bind fun income hincome => ?_
  have hgrown : Planet.Solvent { planet with
      ore := grow planet.ore ore planet.maxore
      population := grow planet.population population planet.maxpopulation
      crystal := grow planet.crystal crystal planet.maxcrystal } :=
    { hplanet with
      ore := grow_nonneg hplanet.ore hore hplanet.maxore
      population := grow_nonneg hplanet.population hpopulation hplanet.maxpopulation
      crystal := grow_nonneg hplanet.crystal hcrystal hplanet.maxcrystal }
  dsimp only
  cases planet.user with
  | none => exact Safe.throw _ _
  | some u =>
      refine (Safe.modify fun game hgame => ?_).bind fun _ _ => Safe.get.bind fun game _ => ?_
      · exact hgame.setMoney (add_nonneg (Db.Solvent.money hgame u) hincome) u
      · split
        · exact Safe.throw _ _
        · exact Safe.pure (hgrown.of_eq rfl rfl rfl rfl rfl rfl)

theorem updateResources_solvent : Safe Game.Solvent (updateResources rules p) anything := by
  have hrest : ∀ planet : Planet, planet.Solvent → Safe Game.Solvent (do
      let power ← getProduction rules p planet .powerplant
      let planet := { planet with energy := grow planet.energy power planet.maxenergy }
      onDb (createProductionJob p)
      modify fun game => game.setDb (game.db.setPlanet p planet) : GameAct Unit) anything := by
    intro planet hplanet
    refine (getProduction_solvent rules p planet .powerplant).bind fun power _ => ?_
    refine Safe.bind (safe_onDb (Resque.enqueueIn_solvent 30 _)) fun _ _ => ?_
    refine Safe.modify fun state hstate => Db.Solvent.setPlanet hstate ?_ p
    exact hplanet.of_eq rfl rfl rfl rfl rfl rfl
  refine Safe.get.bind fun game hgame => ?_
  have hplanet := Db.Solvent.planets hgame p
  refine Safe.ite (fun _ => ?_) fun _ => ?_
  · exact (produce_solvent rules p hplanet).bind fun planet hproduced => hrest planet hproduced
  · exact (Safe.pure hplanet).bind fun planet hsame => hrest planet hsame

/-! ## Buildings -/

theorem depotSizeIncrease_solvent {planet : Planet} (hplanet : planet.Solvent) (prodSize : ℕ) :
    (depotSizeIncrease planet prodSize).Solvent := by
  have hstorage : 0 ≤ planet.spec.storage.value := by
    unfold spec
    split_ifs <;> first | exact zero_le_one | skip
    exact Binary64.round_nonneg (by norm_num)
  have hsize : ∀ stock : ℤ, 0 ≤ stock →
      0 ≤ (Numeric.int (stock * (prodSize / 100 : ℕ)) * planet.spec.storage).toI := by
    intro stock hstock
    refine Numeric.toI_nonneg (Numeric.value_mul_nonneg ?_ hstorage)
    exact Int.cast_nonneg (mul_nonneg hstock (Int.natCast_nonneg _))
  have hstart : 0 ≤ planet.start.maxore ∧ 0 ≤ planet.start.maxcrystal := by
    unfold start
    split_ifs <;> decide
  exact { hplanet with
    maxore := hsize _ hstart.1
    maxcrystal := hsize _ hstart.2 }

theorem buildBuilding_solvent (buildingtype : ℕ) :
    Safe Game.Solvent (buildBuilding rules p buildingtype) anything := by
  refine fun game hgame => ⟨?_, fun _ _ => trivial⟩
  have hidle : (constructing game.db p 0).Solvent := hgame.setUnderConstruction p 0
  obtain hsame | ⟨buildMe, new, -, -, hfinished⟩ := buildBuilding_outcome rules p buildingtype game
  · rw [Game.Solvent, hsame]
    exact hidle
  · have hnew : Db.Solvent { constructing game.db p 0 with buildings := new } := hidle.of_eq rfl rfl rfl
    rw [Game.Solvent, hfinished, finished]
    dsimp only
    split
    · exact hnew.setPlanet (depotSizeIncrease_solvent (hnew.planets p) _) p
    · exact hnew

theorem deleteBuildingJob_solvent (buildingtype : ℕ) :
    Safe Game.Solvent (deleteBuildingJob rules p buildingtype) anything := by
  have hgive : ∀ type number, Safe Game.Solvent (onDb (give p type number)) anything :=
    fun type number => (safe_onDb (give_solvent p type number)).forget
  have hremove : ∀ job, Safe Game.Solvent (onDb (Resque.removeDelayed job)) anything :=
    fun job => safe_onDb (Resque.removeDelayed_solvent job)
  refine Safe.get.bind fun game _ => (hremove _).bind fun _ _ => ?_
  refine Safe.ite (fun _ => ?_) fun _ => Safe.pure trivial
  refine (Safe.modify fun game hgame => hgame.setUnderConstruction p 0).bind fun _ _ => ?_
  cases rules.buildingtype buildingtype with
  | none => exact Safe.throw _ _
  | some destroyMe =>
      refine (hgive .ore _).bind fun _ _ => (hgive .crystal _).bind fun _ _ => ?_
      refine (hgive .population _).bind fun _ _ => (hgive .money _).bind fun _ _ => ?_
      exact Safe.pure trivial

theorem abortUpgrade_solvent (buildingtype : ℕ) :
    Safe Game.Solvent (abortUpgrade rules p buildingtype) anything := by
  refine (deleteBuildingJob_solvent rules p buildingtype).bind fun removed _ => ?_
  refine Safe.ite (fun _ => Safe.pure trivial) fun _ => ?_
  exact Safe.modify fun game hgame => hgame.setUnderConstruction p 0

theorem claimStartplanetFor_solvent (u : UserId) (markerPos : ℕ) :
    Safe Game.Solvent (claimStartplanetFor rules u markerPos) anything :=
  claimStartplanetFor_safe (fun p => claim_solvent rules.toWorld p u) markerPos

end Planet

/-! ## The shipyard -/

namespace ShipBuildingQueue

variable (rules : Rules)

theorem insert_solvent (s : Hash ShipId ℤ) (planet : PlanetId) :
    Safe Game.Solvent (insert rules s planet) anything := by
  have htake : ∀ type (amount : ℤ), Safe Game.Solvent (onDb (Planet.take planet type amount)) anything :=
    fun type amount => (safe_onDb (Planet.take_solvent planet type fun _ =>
      show (Numeric.int amount).Rounded from trivial)).forget
  have hgive : ∀ type number, Safe Game.Solvent (onDb (Planet.give planet type number)) anything :=
    fun type number => (safe_onDb (Planet.give_solvent planet type number)).forget
  refine (htake .ore _).bind fun o _ => (htake .crystal _).bind fun c _ => ?_
  refine (htake .money _).bind fun m _ => (htake .population _).bind fun crew _ => ?_
  refine Safe.ite (fun _ => ?_) fun _ => ?_
  · exact (insertAll_safe rules planet s.entries).bind fun _ _ => Safe.pure trivial
  · refine (hgive .ore o).bind fun _ _ => (hgive .crystal c).bind fun _ _ => ?_
    refine (hgive .money m).bind fun _ _ => (hgive .population crew).bind fun _ _ => ?_
    exact Safe.pure trivial

theorem removeQueue_solvent (id : ℕ) : Safe Game.Solvent (removeQueue rules id) anything := by
  refine Safe.get.bind fun game _ => ?_
  cases game.queue.get id with
  | none => exact Safe.throw _ _
  | some self =>
      have hgive : ∀ type number,
          Safe Game.Solvent (onDb (Planet.give self.planet type number)) anything :=
        fun type number => (safe_onDb (Planet.give_solvent self.planet type number)).forget
      have hupdate : ∀ t b, Safe Game.Solvent (updateTime t self.planet b) anything :=
        fun t b => Safe.get.bind fun state hstate => Safe.set hstate
      refine (Safe.modify fun state hstate => ?_).bind fun _ _ => (hupdate _ _).bind fun _ _ => ?_
      · exact hstate
      refine (hgive .ore _).bind fun _ _ => (hgive .crystal _).bind fun _ _ => ?_
      refine (hgive .money _).bind fun _ _ => (hgive .population _).bind fun _ _ => ?_
      refine Safe.modify fun state hstate => ?_
      exact hstate

end ShipBuildingQueue

theorem AddShip.perform_solvent (rules : Rules) (job : AddShip) :
    Safe Game.Solvent (job.perform rules) anything := by
  refine (safe_onDb (Fleet.addShipToPlanet_solvent rules.toWorld _ _)).bind fun _ _ => ?_
  refine Safe.modify fun game hgame => ?_
  split
  · exact hgame
  · exact hgame

/-! ## Research -/

namespace Technology

variable (rules : Rules) (id : TechnologyId) (user : UserId)

theorem upgradeTechnology_solvent :
    Safe Game.Solvent (upgradeTechnology rules id user) anything := by
  refine (findRow_safe rules id).bind fun row _ => Safe.get.bind fun game hgame => ?_
  cases hrequire : technologyRequire? rules game id row user with
  | error err => exact Safe.throw _ _
  | ok met =>
      cases met with
      | false => exact Safe.pure trivial
      | true =>
          refine Safe.ite (fun _ => Safe.pure trivial) fun _ => Safe.set ?_
          have hcost := (accepted_of_technologyRequire? rules game id user hrequire).2.1
          exact Db.Solvent.setMoney hgame (sub_nonneg.mpr hcost) user

theorem abortTechnology_solvent : Safe Game.Solvent (abortTechnology rules id user) anything := by
  refine (findRow_safe rules id).bind fun row _ => Safe.get.bind fun game hgame => Safe.set ?_
  have hrefund : 0 ≤ row.getTechnologyCost (game.ranks user id) / 2 :=
    Int.ediv_nonneg (row.getTechnologyCost_nonneg _) (by norm_num)
  exact Db.Solvent.setMoney hgame (add_nonneg (Db.Solvent.money hgame user) hrefund) user

theorem updateUservalues_solvent : Safe Game.Solvent (updateUservalues rules id user) anything := by
  refine (findRow_safe rules id).bind fun row _ => Safe.get.bind fun game hgame => Safe.set ?_
  unfold updateSetting
  split
  · exact Db.Solvent.setUserSetting hgame _ _
  · exact hgame
  · exact hgame

end Technology

/-! ## Every event -/

theorem settled_solvent {α : Type} {action : Act α} (hsafe : Safe Db.Solvent action anything) {db next : Db}
    (hdb : db.Solvent) (hsettled : settled (action.run db) = some next) : next.Solvent := by
  rw [settled_eq_some hsettled]
  exact hsafe.after hdb

theorem Job.perform_solvent (w : World) (draws : Draws) {job : Job} {action : Act Unit}
    (hperform : job.perform w draws = some action) : Safe Db.Solvent action anything := by
  have hfind : ∀ {id : FleetId} {mission : Fleet → Act Unit},
      (∀ fleet : Fleet, fleet.Solvent → Safe Db.Solvent (mission fleet) anything) →
        Safe Db.Solvent (Fleet.find id >>= mission) anything :=
    fun hmission => (Fleet.find_solvent _).bind hmission
  cases job with
  | attackPlanet fleet planet =>
      cases hperform
      exact hfind fun fleet hfleet => Fleet.attack_solvent w hfleet draws planet
  | colonizePlanet fleet planet =>
      cases hperform
      exact hfind fun fleet hfleet => Fleet.colonize_solvent w hfleet planet
  | travelToPlanet fleet planet =>
      cases hperform
      exact hfind fun fleet hfleet => Fleet.travel_solvent w hfleet planet
  | spyPlanet fleet planet factor =>
      cases hperform
      exact hfind fun fleet hfleet => Fleet.spy_solvent w hfleet draws.spyRate factor planet
  | transportToPlanet fleet planet =>
      cases hperform
      exact hfind fun fleet hfleet => Fleet.transport_solvent w hfleet planet
  | returnToOrigin fleet =>
      cases hperform
      exact hfind fun fleet hfleet => Fleet.arriveHome_solvent w hfleet
  | buildBuildings planet buildingtype => cases hperform
  | produceResources planet => cases hperform

theorem step_solvent (w : World) {db next : Db} (hdb : db.Solvent) {event : Event}
    (hstep : step w db event = some next) : next.Solvent := by
  cases event with
  | wait seconds =>
      cases hstep
      exact hdb.of_eq rfl rfl rfl
  | addShip ship planet => exact settled_solvent (Fleet.addShipToPlanet_solvent w ship planet) hdb hstep
  | check params =>
      exact settled_solvent (MissionsController.checkHelper_solvent w params) hdb hstep
  | send params => exact settled_solvent (MissionsController.sendFleet_solvent w params) hdb hstep
  | breakup fleet => exact settled_solvent (FleetsController.breakup_solvent fleet) hdb hstep
  | unload fleet planet => exact settled_solvent (FleetsController.unload_solvent fleet planet) hdb hstep
  | research user technology factor =>
      cases hstep
      exact hdb.setUserSetting user _
  | schedule index =>
      simp only [step] at hstep
      split at hstep
      · split at hstep
        · cases hstep
          exact hdb.of_eq rfl rfl rfl
        · cases hstep
      · cases hstep
  | work index draws =>
      simp only [step] at hstep
      split at hstep
      · split at hstep
        · rename_i action hperform
          refine settled_solvent (Job.perform_solvent w draws hperform) ?_ hstep
          exact hdb.of_eq rfl rfl rfl
        · cases hstep
      · cases hstep

namespace GameEvent

theorem performPlanet_solvent (rules : Rules) {job : Job} {action : GameAct Unit}
    (hperform : performPlanet rules job = some action) : Safe Game.Solvent action anything := by
  cases job with
  | buildBuildings planet buildingtype =>
      cases hperform
      exact (Planet.buildBuilding_solvent rules planet buildingtype).bind fun _ _ => Safe.pure trivial
  | produceResources planet =>
      cases hperform
      exact Planet.updateResources_solvent rules planet
  | _ => cases hperform

theorem ends_solvent {α : Type} {action : GameAct α} {φ : α → Prop}
    (hsafe : Safe Game.Solvent action φ) {game next : Game} (hgame : game.Solvent)
    (hends : ends action game = some next) : next.Solvent := by
  cases hends
  exact hsafe.after hgame

theorem step_solvent {rules : Rules} {game next : Game} (hgame : game.Solvent) {event : GameEvent}
    (hstep : event.step rules game = some next) : next.Solvent := by
  cases event with
  | fleets event =>
      obtain ⟨db, hdb, rfl⟩ := Option.map_eq_some_iff.mp hstep
      exact Mmog.step_solvent rules.toWorld hgame hdb
  | claim planet user =>
      exact ends_solvent (safe_onDb (Planet.claim_solvent rules.toWorld planet user)) hgame hstep
  | claimStartplanetFor user markerPos =>
      exact ends_solvent (Planet.claimStartplanetFor_solvent rules user markerPos) hgame hstep
  | give planet type number =>
      exact ends_solvent (safe_onDb (Planet.give_solvent planet type number)) hgame hstep
  | take planet type number =>
      have htake := Planet.take_solvent planet type fun _ => show (Numeric.int number).Rounded from trivial
      exact ends_solvent (safe_onDb htake) hgame hstep
  | createBuildingJob planet name =>
      exact ends_solvent (safe_onDb (Planet.createBuildingJob_solvent rules.toWorld planet name)) hgame hstep
  | deleteBuildingJob planet buildingtype =>
      exact ends_solvent (Planet.deleteBuildingJob_solvent rules planet buildingtype) hgame hstep
  | abortUpgrade planet buildingtype =>
      exact ends_solvent (Planet.abortUpgrade_solvent rules planet buildingtype) hgame hstep
  | updateResources planet =>
      exact ends_solvent (Planet.updateResources_solvent rules planet) hgame hstep
  | workPlanet index =>
      simp only [step] at hstep
      split at hstep
      · split at hstep
        · rename_i action hperform
          refine ends_solvent (performPlanet_solvent rules hperform) ?_ hstep
          exact Db.Solvent.of_eq hgame rfl rfl rfl
        · cases hstep
      · cases hstep
  | insert planet ships =>
      exact ends_solvent (ShipBuildingQueue.insert_solvent rules ships planet) hgame hstep
  | removeQueue id =>
      exact ends_solvent (ShipBuildingQueue.removeQueue_solvent rules id) hgame hstep
  | fireShip index =>
      simp only [step] at hstep
      split at hstep
      · refine ends_solvent (AddShip.perform_solvent rules _) ?_ hstep
        exact hgame
      · cases hstep
  | scheduleShip index =>
      obtain ⟨addShips, -, rfl⟩ := Option.map_eq_some_iff.mp hstep
      exact hgame
  | workShip index =>
      simp only [step] at hstep
      split at hstep
      · refine ends_solvent (AddShip.perform_solvent rules _) ?_ hstep
        exact hgame
      · cases hstep
  | upgradeTechnology technology user =>
      exact ends_solvent (Technology.upgradeTechnology_solvent rules technology user) hgame hstep
  | abortTechnology technology user =>
      exact ends_solvent (Technology.abortTechnology_solvent rules technology user) hgame hstep
  | fireResearch index =>
      simp only [step] at hstep
      split at hstep
      · refine ends_solvent (Technology.updateUservalues_solvent rules _ _) ?_ hstep
        exact hgame
      · cases hstep
  | scheduleResearch index =>
      obtain ⟨researches, -, rfl⟩ := Option.map_eq_some_iff.mp hstep
      exact hgame
  | workResearch index =>
      simp only [step] at hstep
      split at hstep
      · refine ends_solvent (Technology.updateUservalues_solvent rules _ _) ?_ hstep
        exact hgame
      · cases hstep

end GameEvent

/-- From a universe without negative values no run comes to a negative stock, debt or cargo. -/
theorem nothing_negative (rules : Rules) {start game : Game} {events : List GameEvent}
    (hstart : start.Solvent) (hrun : run (GameEvent.step rules) start events = some game) :
    (∀ u, 0 ≤ (game.db.users u).money) ∧
      (∀ p, 0 ≤ (game.db.planets p).ore ∧ 0 ≤ (game.db.planets p).crystal ∧
        0 ≤ (game.db.planets p).population) ∧
      ∀ id row, game.db.fleets.get id = some row →
        0 ≤ row.attributes.ore ∧ 0 ≤ row.attributes.crystal ∧ 0 ≤ row.attributes.credit := by
  have hgame : game.db.Solvent :=
    run_invariant (fun _ _ _ hstate hstep => GameEvent.step_solvent hstate hstep) hstart hrun
  refine ⟨hgame.money, fun p => ?_, fun id row hrow => ?_⟩
  · exact ⟨(hgame.planets p).ore, (hgame.planets p).crystal, (hgame.planets p).population⟩
  · have hcargo := (hgame.fleets id row hrow).cargo
    exact ⟨hcargo.ore, hcargo.crystal, hcargo.credit⟩

/-- A ship with ore for another planet. -/
def shipment : Params where
  fleet := 1
  mission := 6
  planet := some 2
  ship ship := if ship = 1 then some 1 else none
  ressOre := some 500

/-- Production, an order, research, and a ship that flies with ore. -/
def busyDay : List GameEvent :=
  [.updateResources 1, .insert 1 (.single 1 1), .upgradeTechnology 8 1, .fleets (.addShip 1 1),
    .fleets (.send shipment)]

def busyGame : Game :=
  (run (GameEvent.step Seeds.rules) (Seeds.game Seeds.start) busyDay).get (by decide +kernel)

theorem nothing_negative_sample :
    (busyGame.db.fleets.get 3).isSome = true ∧ 0 ≤ (busyGame.db.users 1).money := by
  have hstart : (Seeds.game Seeds.start).Solvent := by
    refine ⟨fun p => ?_, fun u => ?_, Table.all_empty _⟩
    · constructor <;> simp [Seeds.game, Seeds.start, Seeds.planet]
    · simp [Seeds.game, Seeds.start]
  have hrun : run (GameEvent.step Seeds.rules) (Seeds.game Seeds.start) busyDay =
      some busyGame := (Option.some_get _).symm
  exact ⟨by decide +kernel, (nothing_negative Seeds.rules hstart hrun).1 1⟩

end Mmog
