import Mmog.Model.Universe

/-!
# Requests of players

What the controllers do for the user of the session with the records that a
request names.
-/

namespace Mmog

open Ruby Game

/-- `authenticate_user!`, which redirects a request without a session. -/
def authenticateUser (session : Option UserId) (action : UserId → GameAct Unit) : GameAct Unit :=
  match session with
  | none => return
  | some currentUser => action currentUser

namespace PlanetsController

/-- There is no filter here: without an owner or a session the comparison raises. -/
def upgradeBuilding (rules : Rules) (session : Option UserId) (planet : PlanetId) (btype : BuildingName) :
    GameAct Unit := do
  match ((← get).db.planets planet).user, session with
  | some owner, some currentUser =>
      if owner = currentUser then
        let _ ← onDb (Planet.createBuildingJob rules.toWorld planet btype)
  | _, _ => throw .noMethodError

end PlanetsController

namespace ShipBuildingQueuesController

def destroyQueue (rules : Rules) (currentUser : UserId) (id : ℕ) : GameAct Unit := do
  let game ← get
  match game.queue.get id with
  | none => throw .recordNotFound
  | some entry =>
      if (game.db.planets entry.planet).user = some currentUser then
        ShipBuildingQueue.removeQueue rules id

end ShipBuildingQueuesController

inductive PlayerRequest where
  | sendFleet (params : Params)
  | breakup (fleet : FleetId)
  | unload (fleet : FleetId) (planet : PlanetId)
  | upgradeBuilding (planet : PlanetId) (btype : BuildingName)
  | abortUpgrade (planet : PlanetId) (bid : ℕ)
  | upgradeTechnology (technology : TechnologyId) (uid : UserId)
  | abortTechnology (technology : TechnologyId) (uid : UserId)
  | build (planet : PlanetId) (ships : Hash ShipId ℤ)
  | destroyQueue (id : ℕ)

/-- The controller action with the filters that stand before it. -/
def PlayerRequest.perform (rules : Rules) (session : Option UserId) : PlayerRequest → GameAct Unit
  | .sendFleet params =>
      authenticateUser session fun _ => onDb (MissionsController.sendFleet rules.toWorld params)
  | .breakup fleet => authenticateUser session fun _ => onDb (FleetsController.breakup fleet)
  | .unload fleet planet =>
      authenticateUser session fun _ => onDb (FleetsController.unload fleet planet)
  | .upgradeBuilding planet btype => PlanetsController.upgradeBuilding rules session planet btype
  -- neither a filter nor a comparison
  | .abortUpgrade planet bid => Planet.abortUpgrade rules planet bid
  | .upgradeTechnology technology uid =>
      authenticateUser session fun _ => Technology.upgradeTechnology rules technology uid
  | .abortTechnology technology uid =>
      authenticateUser session fun _ => Technology.abortTechnology rules technology uid
  | .build planet ships => authenticateUser session fun _ => do
      let _ ← ShipBuildingQueue.insert rules ships planet
  | .destroyQueue id => authenticateUser session fun currentUser =>
      ShipBuildingQueuesController.destroyQueue rules currentUser id

end Mmog
