import Mmog.Model.Fight

/-!
# Requests

What the controllers do with a mission request: `check_helper` tries the
mission out on a temporary fleet and lists what is wrong with it, and
`send_fleet` starts the mission when nothing is.
-/

namespace Mmog

open Ruby

/-- The parameters of a mission request; `planet` is `none` for an id without a planet. -/
structure Params where
  fleet : FleetId
  mission : MissionId
  planet : Option PlanetId
  ship : ShipId → Option ℤ := fun _ => none
  ressOre : Option ℤ := none
  ressCrystal : Option ℤ := none
  ressCredit : Option ℤ := none

namespace Params

def ore (params : Params) : ℤ := params.ressOre.getD 0
def crystal (params : Params) : ℤ := params.ressCrystal.getD 0
def credit (params : Params) : ℤ := params.ressCredit.getD 0

/-- The amounts given for the ship types there are. -/
def shipHash (w : World) (params : Params) : Hash ShipId ℤ :=
  .tabulate (w.shipIds.filter fun ship => (params.ship ship).isSome) (w.shipIds_nodup.filter _)
    fun ship => (params.ship ship).getD 0

end Params

/-- `Planet#getDistance`, which is -1 to what is no planet. -/
def World.distanceTo (w : World) (p : PlanetId) : Option PlanetId → Numeric
  | some q => w.getDistance p q
  | none => .int (-1)

namespace MissionsController

/-- The complaints of the first, harmless part; a missing mission ends it early. -/
def harmlessErrors (w : World) (params : Params) (planet1 : PlanetId) (stock : Planet) :
    List String :=
  let shipHash := params.shipHash w
  (if params.credit < 0 ∨ params.crystal < 0 ∨ params.ore < 0 then
      ["Fehlerhafte Eingabe der Ressourcen"] else []) ++
  (if some planet1 = params.planet then
      ["Flotte muss zu einem anderen Planeten fliegen"] else []) ++
  match Mission.find params.mission with
  | none => []
  | some mission =>
      (if mission = 2 ∧ colonyShip ∉ shipHash.keys then
          ["Zum Kolonialisieren wird ein Kolonieschiff benötigt"] else []) ++
      (if mission = 5 ∧ shipHash ≠ .single spyDrone 1 then
          ["Zum Spionieren, darf nur eine Spionagesonde gewählt werden"] else []) ++
      (if params.ore > stock.ore then ["nicht genug Erz vorhanden"] else []) ++
      (if params.crystal > stock.crystal then ["nicht genug Kristall vorhanden"] else []) ++
      (if mission ≠ 2 ∧ mission ≠ 6 ∧
            (params.ore ≠ 0 ∨ params.crystal ≠ 0 ∨ params.credit ≠ 0) then
          ["Ressourcen nur bei Kolonialisierung oder Transport erlaubt"] else [])

/-- The energy of the check, which doubles the fuel for all missions but travel. -/
def doubled (mission : MissionId) (energy : Numeric) : Numeric :=
  if mission = 2 ∨ mission = 3 ∨ mission = 5 ∨ mission = 6 then energy * 2 else energy

/-- The complaints of the last part, which compares what the temporary fleet needs. -/
def criticalErrors (params : Params) (stock : Planet) (neededEnergy : Option Numeric)
    (newFleet : Option Fleet) : List String :=
  match neededEnergy with
  | none => []
  | some neededEnergy =>
      (if (stock.energy : Numeric) < neededEnergy then ["Nicht genügend Energie"] else []) ++
      match newFleet with
      | none => []
      | some newFleet =>
          if newFleet.getFreeCapacity <
              ((params.ore + params.crystal + params.credit : ℤ) : Numeric) then
            ["Zu wenig Platz in der Flotte vorhanden evtl muss entladen werden"]
          else []

def checkHelper (w : World) (params : Params) : Act (List String) := do
  let fleet ← tryCatch (some <$> Fleet.find params.fleet) fun _ => pure none
  match fleet with
  -- the planet of a fleet that was not found is asked for outside of any rescue
  | none => throw .noMethodError
  | some fleet =>
      let planet1 := fleet.originPlanet
      let stock := (← get).planets planet1
      let shipHash := params.shipHash w
      let fehler :=
        (if (Mission.find params.mission).isNone then ["Fehlerhafte Eingabe der Mission"] else []) ++
        (if params.planet.isNone then ["Fehlerhafte Eingabe des Zielplaneten"] else []) ++
        harmlessErrors w params planet1 stock
      if shipHash.entries = [] then return fehler ++ ["Bitte Schiffe auswählen"]
      if !Fleet.enoughShips? (← fleet.shipfleets) shipHash then
        return fehler ++ ["Nicht genügend Schiffe vorhanden"]
      let split ← tryCatch (some <$> fleet.splitFleet w shipHash) fun _ => pure none
      match split with
      -- the temporary fleet was never assigned, and merging nothing raises
      | none => raise Fleet.invalidInput
      | some (fleet, newFleet) =>
          let needed ← tryCatch
            (some <$> newFleet.flight w (w.distanceTo planet1 params.planet)) fun _ => pure none
          let neededEnergy := needed.map fun (_, energy) =>
            ((Mission.find params.mission).map fun mission => doubled mission energy).getD energy
          let fehler := fehler ++ criticalErrors params stock neededEnergy (some newFleet)
          let _ ← fleet.mergeFleet w (some newFleet)
          return fehler

def sendFleet (w : World) (params : Params) : Act Unit := do
  let fehler ← checkHelper w params
  if fehler = [] then
    let fleet ← Fleet.find params.fleet
    match Mission.find params.mission, params.planet with
    | some mission, some planet =>
        fleet.move w mission planet (params.shipHash w) params.ore params.crystal params.credit
    | _, _ => throw .recordNotFound

end MissionsController

namespace FleetsController

def breakup (fleet : FleetId) : Act Unit := do
  (← Fleet.find fleet).breakupMission

def unload (fleet : FleetId) (planet : PlanetId) : Act Unit := do
  let fleet ← Fleet.find fleet
  if fleet.targetPlanet = fleet.startPlanet ∧ planet = fleet.originPlanet then
    let _ ← fleet.unloadRessources planet

end FleetsController

end Mmog
