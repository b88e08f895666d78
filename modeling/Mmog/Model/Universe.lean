import Mmog.Model.Production
import Mmog.Model.Research
import Mmog.Model.Shipyard

/-!
# Everything that happens

The events of the whole game: those of fleets, what users do with planets,
research and the shipyard, the scheduler, and the workers of the other queues.
-/

namespace Mmog

open Ruby Game

inductive GameEvent where
  /-- What the game of fleets does: requests, deliveries, the clock, and the jobs of fleets. -/
  | fleets (event : Event)
  | claim (planet : PlanetId) (user : UserId)
  | claimStartplanetFor (user : UserId) (markerPos : ℕ)
  | give (planet : PlanetId) (type : Resource) (number : ℤ)
  | take (planet : PlanetId) (type : Resource) (number : ℤ)
  | createBuildingJob (planet : PlanetId) (name : BuildingName)
  | deleteBuildingJob (planet : PlanetId) (buildingtype : ℕ)
  | abortUpgrade (planet : PlanetId) (buildingtype : ℕ)
  | updateResources (planet : PlanetId)
  /-- A worker runs a ready job of a planet. -/
  | workPlanet (index : ℕ)
  | insert (planet : PlanetId) (ships : Hash ShipId ℤ)
  | removeQueue (id : ℕ)
  /-- A delayed `AddShip` job is run at once. -/
  | fireShip (index : ℕ)
  | scheduleShip (index : ℕ)
  | workShip (index : ℕ)
  | upgradeTechnology (technology : TechnologyId) (user : UserId)
  | abortTechnology (technology : TechnologyId) (user : UserId)
  | fireResearch (index : ℕ)
  | scheduleResearch (index : ℕ)
  | workResearch (index : ℕ)

namespace GameEvent

/-- What an event leaves behind, whether it returns or raises. -/
def ends {α : Type} (action : GameAct α) (game : Game) : Option Game :=
  some (Action.after (action.run game))

/-- The `perform` of the jobs of planets. -/
def performPlanet (rules : Rules) : Job → Option (GameAct Unit)
  | .buildBuildings planet buildingtype => some do
      let _ ← Planet.buildBuilding rules planet buildingtype
  | .produceResources planet => some (Planet.updateResources rules planet)
  | _ => none

def step (rules : Rules) (game : Game) : GameEvent → Option Game
  | .fleets event => (Mmog.step rules.toWorld game.db event).map game.setDb
  | .claim planet user => ends (onDb (Planet.claim rules.toWorld planet user)) game
  | .claimStartplanetFor user markerPos =>
      ends (Planet.claimStartplanetFor rules user markerPos) game
  | .give planet type number => ends (onDb (Planet.give planet type number)) game
  | .take planet type number => ends (onDb (Planet.take planet type number)) game
  | .createBuildingJob planet name =>
      ends (onDb (Planet.createBuildingJob rules.toWorld planet name)) game
  | .deleteBuildingJob planet buildingtype =>
      ends (Planet.deleteBuildingJob rules planet buildingtype) game
  | .abortUpgrade planet buildingtype => ends (Planet.abortUpgrade rules planet buildingtype) game
  | .updateResources planet => ends (Planet.updateResources rules planet) game
  | .workPlanet index =>
      match game.db.ready[index]? with
      | some job =>
          match performPlanet rules job with
          | some action =>
              ends action (game.setDb { game.db with ready := game.db.ready.eraseIdx index })
          | none => none
      | none => none
  | .insert planet ships => ends (ShipBuildingQueue.insert rules ships planet) game
  | .removeQueue id => ends (ShipBuildingQueue.removeQueue rules id) game
  | .fireShip index =>
      match game.addShips.takeDelayed index with
      | some (job, addShips) => ends (job.perform rules) { game with addShips }
      | none => none
  | .scheduleShip index =>
      (game.addShips.schedule game.db.now index).map fun addShips => { game with addShips }
  | .workShip index =>
      match game.addShips.takeReady index with
      | some (job, addShips) => ends (job.perform rules) { game with addShips }
      | none => none
  | .upgradeTechnology technology user =>
      ends (Technology.upgradeTechnology rules technology user) game
  | .abortTechnology technology user =>
      ends (Technology.abortTechnology rules technology user) game
  | .fireResearch index =>
      match game.researches.takeDelayed index with
      | some (job, researches) => ends (job.perform rules) { game with researches }
      | none => none
  | .scheduleResearch index =>
      (game.researches.schedule game.db.now index).map fun researches => { game with researches }
  | .workResearch index =>
      match game.researches.takeReady index with
      | some (job, researches) => ends (job.perform rules) { game with researches }
      | none => none

end GameEvent

end Mmog
