import Mmog.Model.Fleet

/-!
# Missions

`move` computes fuel and time, the `…PlanetIn` methods enqueue a mission, and
the method named like the mission runs when the fleet arrives.  Every mission
sorts its target planet by the owner in the same way.
-/

namespace Mmog

open Ruby

/-- Whom the target planet of a mission belongs to, seen from the fleet's user. -/
inductive Relation where
  | unknown | own | allied | enemy
  deriving DecidableEq

def Db.relation (db : Db) (user : UserId) (planet : PlanetId) : Relation :=
  match (db.planets planet).user with
  | none => .unknown
  | some other =>
      if other = user then .own
      else if (db.users other).alliance = (db.users user).alliance then .allied
      else .enemy

namespace Fleet

/-! ## Enqueuing -/

def negativeTime : String := "Input is invalid -> only positive timevalues are allowed"

def attackPlanetIn (self : Fleet) (time : ℤ) (planet : PlanetId) : Act Unit := do
  if time < 0 then raise negativeTime
  Resque.enqueueAt time (.attackPlanet self.id planet)

def spyPlanetIn (self : Fleet) (time : ℤ) (planet : PlanetId) : Act Unit := do
  if (← self.getShips) ≠ .single spyDrone 1 then
    raise "Only one Spy Drone for spy-missions allowed"
  if time < 0 then raise negativeTime
  let ownSpyFactor := ((← get).users self.user).userSetting.increasedSpypower
  Resque.enqueueAt time (.spyPlanet self.id planet ownSpyFactor)

def colonizePlanetIn (w : World) (self : Fleet) (time : ℤ) (planet : PlanetId) : Act Unit := do
  if colonyShip ∉ (← self.getShips).keys then raise "Fleet has no Colony Ship"
  if time < 0 then raise negativeTime
  -- the price of a colony ship comes along as the new planet's start ressources
  let ship := w.ship colonyShip
  let _ ← self.loadRessources ship.oreCost ship.crystalCost ship.creditCost self.originPlanet
  Resque.enqueueAt time (.colonizePlanet self.id planet)

def travelToPlanetIn (self : Fleet) (time : ℤ) (planet : PlanetId) : Act Unit := do
  if time < 0 then raise negativeTime
  Resque.enqueueAt time (.travelToPlanet self.id planet)

def transportToPlanetIn (self : Fleet) (time : ℤ) (planet : PlanetId) : Act Unit := do
  if time < 0 then raise negativeTime
  Resque.enqueueAt time (.transportToPlanet self.id planet)

/-! ## Move -/

/-- The branch of one mission id in `move`: pays the energy, saves the mission and enqueues it. -/
def depart (w : World) (self fleet : Fleet) (mission : MissionId) (energy : Numeric)
    (prepare : Fleet → Act Fleet) (enqueue : Fleet → Act Unit) : Act Unit := do
  let home := fleet.originPlanet
  if energy ≤ (((← get).planets home).energy : Numeric) then
    let _ ← Planet.take home .energy energy
    let fleet ← prepare fleet
    let fleet : Fleet := { fleet with missionId := mission }
    fleet.save
    enqueue fleet
  else
    let _ ← self.mergeFleet w (some fleet)
    raise "Not enough energy to move the fleet"

/-- The time and the energy a fleet needs for a distance. -/
def flight (w : World) (fleet : Fleet) (distance : Numeric) : Act (Numeric × Numeric) := do
  let velocity ← fleet.getVelocity w
  let time := getNeededTime velocity distance
  let energy ← fleet.getNeededFuelAll w time
  return (time, energy)

/-- The `case` on the mission id in `move`. -/
def launch (w : World) (self fleet : Fleet) (mission : MissionId) (energy : Numeric)
    (destination : PlanetId) (ore crystal credit : ℤ) : Act Unit := do
  let load (fleet : Fleet) := fleet.loadRessources ore crystal credit fleet.originPlanet
  match mission with
  | 2 =>
      depart w self fleet 2 (energy * 2) load fun fleet =>
        fleet.colonizePlanetIn w fleet.arrivalTime destination
  | 3 =>
      depart w self fleet 3 (energy * 2) pure fun fleet =>
        fleet.attackPlanetIn fleet.arrivalTime destination
  | 4 =>
      depart w self fleet 4 energy pure fun fleet =>
        fleet.travelToPlanetIn fleet.arrivalTime destination
  | 5 =>
      depart w self fleet 5 (energy * 2) pure fun fleet =>
        fleet.spyPlanetIn fleet.arrivalTime destination
  | 6 =>
      depart w self fleet 6 (energy * 2) load fun fleet =>
        fleet.transportToPlanetIn fleet.arrivalTime destination
  | _ =>
      let _ ← self.mergeFleet w (some fleet)
      -- `raise RuntimeError "…"` calls a method of that name, which there is not
      throw .noMethodError

def move (w : World) (self : Fleet) (mission : MissionId) (destination : PlanetId)
    (shipHash : Hash ShipId ℤ) (ore crystal credit : ℤ) : Act Unit := do
  if !(self.originPlanet = self.startPlanet ∧ self.originPlanet = self.targetPlanet) then
    raise "Cannot move fleet that is not situated at home -> You can only send it back to origin"
  let (self, fleet) ← self.splitFleet w shipHash
  let (time, energy) ← fleet.flight w (w.getDistance fleet.originPlanet destination)
  let departureTime : ℤ := (← get).now
  let fleet : Fleet := { fleet with
    departureTime
    arrivalTime := ((departureTime : Numeric) + time).toI
    targetPlanet := destination }
  launch w self fleet mission energy destination ore crystal credit

/-! ## Return -/

/-- Sends the fleet from the planet to its origin. -/
def returnToOrigin (w : World) (self : Fleet) (planet : PlanetId) : Act Unit := do
  let velocity ← self.getVelocity w
  let time := getNeededTime velocity (w.getDistance self.originPlanet planet)
  let departureTime : ℤ := (← get).now
  let self : Fleet := { self with
    targetPlanet := self.originPlanet
    startPlanet := planet
    departureTime
    arrivalTime := (time + (departureTime : Numeric)).toI }
  self.save
  Resque.enqueueAt self.arrivalTime (.returnToOrigin self.id)

/-- The job `breakup_mission` takes to be the fleet's. -/
def missionJob (self : Fleet) (spypower : Factor) : Job :=
  match self.missionId with
  | 2 => .colonizePlanet self.id self.targetPlanet
  | 3 => .attackPlanet self.id self.targetPlanet
  | 4 => .travelToPlanet self.id self.targetPlanet
  | 5 => .spyPlanet self.id self.targetPlanet spypower
  | _ => .transportToPlanet self.id self.targetPlanet

/-- Sends a fleet back before its mission; the flight back takes as long as it flew so far. -/
def breakupMission (self : Fleet) : Act Unit := do
  if self.missionId = 1 then raise "Fleet has to fly to breakup its mission"
  let spypower := ((← get).users self.user).userSetting.increasedSpypower
  Resque.removeDelayed (self.missionJob spypower)
  let now : ℤ := (← get).now
  let self : Fleet := { self with
    departureTime := now
    arrivalTime := now + (now - self.departureTime)
    startPlanet := self.targetPlanet
    targetPlanet := self.originPlanet }
  Resque.enqueueAt self.arrivalTime (.returnToOrigin self.id)
  self.save

/-! ## Arrivals -/

/-- The colonising fleet becomes the home fleet of the planet it claims. -/
def settle (w : World) (self : Fleet) (planet : PlanetId) : Act Unit := do
  Planet.claim w planet self.user
  let now : ℤ := (← get).now
  let self : Fleet := { self with
    startPlanet := planet
    targetPlanet := planet
    originPlanet := planet
    arrivalTime := now
    departureTime := now
    missionId := 1 }
  let self ← self.unloadRessources planet
  let self ← self.destroyShip w colonyShip
  let third := (self.getCapacity / 3).toI
  let self : Fleet :=
    if self.getCapacity < (self.getAmountOfRessources : Numeric) then
      { self with ore := third, crystal := third, credit := third }
    else self
  let _ ← self.updateValues w

def colonize (w : World) (self : Fleet) (planet : PlanetId) : Act Unit := do
  match (← get).relation self.user planet with
  | .unknown => self.settle w planet
  | .own => self.returnToOrigin w planet
  | .allied => self.returnToOrigin w planet
  | .enemy => self.returnToOrigin w planet

def travel (w : World) (self : Fleet) (planet : PlanetId) : Act Unit := do
  match (← get).relation self.user planet with
  | .unknown => self.returnToOrigin w planet
  | .own =>
      match ← getHomeFleet planet with
      | none => throw .noMethodError
      | some homeFleet => let _ ← homeFleet.mergeFleet w (some self)
  | .allied =>
      let now : ℤ := (← get).now
      let self : Fleet := { self with
        startPlanet := self.targetPlanet
        arrivalTime := now
        departureTime := now }
      self.save
  | .enemy => self.returnToOrigin w planet

def transport (w : World) (self : Fleet) (planet : PlanetId) : Act Unit := do
  match (← get).relation self.user planet with
  | .unknown => self.returnToOrigin w planet
  | .own =>
      let self ← self.unloadRessources planet
      self.returnToOrigin w planet
  | .allied =>
      let self ← self.unloadRessources planet
      self.returnToOrigin w planet
  | .enemy => self.returnToOrigin w planet

/-- `r` is the draw of `rand 0.0..0.8`; an enemy destroys a drone that is not strong enough. -/
def spy (w : World) (r : ℚ) (self : Fleet) (ownSpyFactor : Factor) (planet : PlanetId) :
    Act Unit := do
  match (← get).relation self.user planet with
  | .unknown => self.returnToOrigin w planet
  | .own => self.returnToOrigin w planet
  | .allied => self.returnToOrigin w planet
  | .enemy =>
      if Numeric.float ownSpyFactor - .float r < Numeric.lit (4 / 5) then self.destroy
      else self.returnToOrigin w planet

/-- What the `ReturnToOrigin` job does with the fleet it finds. -/
def arriveHome (w : World) (self : Fleet) : Act Unit := do
  match ← getHomeFleet self.originPlanet with
  | none => throw .noMethodError
  | some homeFleet => let _ ← homeFleet.mergeFleet w (some self)

end Fleet

end Mmog
