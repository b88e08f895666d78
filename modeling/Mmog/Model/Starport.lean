import Mmog.Model.Shipyard

/-!
# The starport

The starport lists the ships that a planet can build, and takes orders.  Which
building types a ship asks for is written in a join table.
-/

namespace Mmog

open Ruby

/-- `ship.buildingtypes`. -/
abbrev Prerequisites := ShipId → List Buildingtype

/-- The level for each building name; a later row for a name replaces an earlier one. -/
def getPrerequisites (buildingtypes : List Buildingtype) : Hash BuildingName ℕ :=
  buildingtypes.foldl (fun buildingHash type => buildingHash.insert type.name type.level) Hash.empty

namespace ShipsHelper

/-- Goes through every ship and every level it asks for; `buildings_to_hash` has a level for each name. -/
def getAvailableShips (w : World) (prerequisites : Prerequisites) (db : Db) (planet : PlanetId) : List ShipId :=
  let existingBuildingtypes := Planet.buildingsToHash w db.buildings planet
  w.shipIds.flatMap fun ship =>
    ((getPrerequisites (prerequisites ship)).entries.filter fun (name, level) =>
      level ≤ existingBuildingtypes name).map fun _ => ship

end ShipsHelper

namespace StarportController

/-- The amounts of a form as a hash; a field that is empty counts as none. -/
def shipArray (w : World) (params : List (ShipId × Option ℤ)) : Except Err (Hash ShipId ℤ) :=
  params.foldlM (fun shipArray (ship, amount) =>
    match amount with
    | none => .ok shipArray
    | some amount => if ship ∈ w.shipIds then .ok (shipArray.insert ship amount) else .error .recordNotFound) Hash.empty

def build (rules : Rules) (planet : PlanetId) (params : List (ShipId × Option ℤ)) : GameAct Bool :=
  match shipArray rules.toWorld params with
  | .error err => throw err
  | .ok ships => ShipBuildingQueue.insert rules ships planet

end StarportController

end Mmog
