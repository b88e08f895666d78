import Mmog.Model.Controller
import Mmog.Ruby.Run

/-!
# The running game

The game takes one event after another: requests, deliveries, research that is
finished, the clock, the scheduler that moves a due job to the ready queue, and
a worker that runs a ready job.  Each event is carried out as a whole.  An
event that raises leaves what it wrote, and a job that raises is not run again.
-/

namespace Mmog

open Ruby

/-- The research factors that fleets use. -/
inductive Technology where
  | increasedMovement | increasedPower | increasedDefense | increasedCapacity | increasedSpypower
  deriving DecidableEq

/-- `user_setting.update_attribute name, factor**new_rank`. -/
def UserSetting.update (setting : UserSetting) (factor : Factor) : Technology → UserSetting
  | .increasedMovement => { setting with increasedMovement := factor }
  | .increasedPower => { setting with increasedPower := factor }
  | .increasedDefense => { setting with increasedDefense := factor }
  | .increasedCapacity => { setting with increasedCapacity := factor }
  | .increasedSpypower => { setting with increasedSpypower := factor }

/-- The jobs that belong to a fleet, and which fleet that is. -/
def Job.fleet? : Job → Option FleetId
  | .attackPlanet fleet _ => some fleet
  | .colonizePlanet fleet _ => some fleet
  | .travelToPlanet fleet _ => some fleet
  | .spyPlanet fleet _ _ => some fleet
  | .transportToPlanet fleet _ => some fleet
  | .returnToOrigin fleet => some fleet
  | .buildBuildings _ _ => none
  | .produceResources _ => none

/-- The `perform` of a fleet's job; the other jobs are not part of this system. -/
def Job.perform (w : World) (draws : Draws) : Job → Option (Act Unit)
  | .attackPlanet fleet planet => some do (← Fleet.find fleet).attack w draws planet
  | .colonizePlanet fleet planet => some do (← Fleet.find fleet).colonize w planet
  | .travelToPlanet fleet planet => some do (← Fleet.find fleet).travel w planet
  | .spyPlanet fleet planet factor => some do
      (← Fleet.find fleet).spy w draws.spyRate factor planet
  | .transportToPlanet fleet planet => some do (← Fleet.find fleet).transport w planet
  | .returnToOrigin fleet => some do (← Fleet.find fleet).arriveHome w
  | .buildBuildings _ _ => none
  | .produceResources _ => none

inductive Event where
  | wait (seconds : ℕ)
  | addShip (ship : ShipId) (planet : PlanetId)
  | check (params : Params)
  | send (params : Params)
  | breakup (fleet : FleetId)
  | unload (fleet : FleetId) (planet : PlanetId)
  | research (user : UserId) (technology : Technology) (factor : Factor)
  /-- The scheduler moves a due job from the delayed set to the ready queue. -/
  | schedule (index : ℕ)
  /-- A worker runs a ready job. -/
  | work (index : ℕ) (draws : Draws)

/-- What an event leaves behind; a job whose draws do not last does not get done. -/
def settled {α : Type} (result : EStateM.Result Err Db α) : Option Db :=
  match result with
  | .ok _ db => some db
  | .error .undrawn _ => none
  | .error _ db => some db

def step (w : World) (db : Db) : Event → Option Db
  | .wait seconds => some { db with now := db.now + seconds }
  | .addShip ship planet => settled ((Fleet.addShipToPlanet w ship planet).run db)
  | .check params => settled ((MissionsController.checkHelper w params).run db)
  | .send params => settled ((MissionsController.sendFleet w params).run db)
  | .breakup fleet => settled ((FleetsController.breakup fleet).run db)
  | .unload fleet planet => settled ((FleetsController.unload fleet planet).run db)
  | .research user technology factor =>
      some (db.setUserSetting user ((db.users user).userSetting.update factor technology))
  | .schedule index =>
      match db.delayed[index]? with
      | some entry =>
          if entry.timestamp ≤ db.now then
            some { db with
              delayed := db.delayed.eraseIdx index
              ready := db.ready ++ [entry.job] }
          else none
      | none => none
  | .work index draws =>
      match db.ready[index]? with
      | some job =>
          match job.perform w draws with
          | some action => settled (action.run { db with ready := db.ready.eraseIdx index })
          | none => none
      | none => none

/-- A universe before the first ship is built: no fleets and no jobs of fleets. -/
structure Db.Fresh (db : Db) : Prop where
  fleets : db.fleets = Table.empty
  delayed : ∀ entry ∈ db.delayed, entry.job.fleet? = none
  ready : ∀ job ∈ db.ready, job.fleet? = none

end Mmog
