import Mmog.Model.Schema

/-!
# Planets

Taking from and giving to the stocks of a planet and the money of its owner,
and claiming a planet, which starts its first buildings.
-/

namespace Mmog

open Ruby

/-- What `give` and `take` are asked for; `other` is any symbol they do not know. -/
inductive Resource where
  | ore | crystal | population | energy | money | other
  deriving DecidableEq

namespace Planet

def stock : Resource → Planet → ℤ
  | .ore, planet => planet.ore
  | .crystal, planet => planet.crystal
  | .population, planet => planet.population
  | .energy, planet => planet.energy
  | .money, _ => 0
  | .other, _ => 0

def maximum : Resource → Planet → ℤ
  | .ore, planet => planet.maxore
  | .crystal, planet => planet.maxcrystal
  | .population, planet => planet.maxpopulation
  | .energy, planet => planet.maxenergy
  | .money, _ => 0
  | .other, _ => 0

def setStock : Resource → ℤ → Planet → Planet
  | .ore, n, planet => { planet with ore := n }
  | .crystal, n, planet => { planet with crystal := n }
  | .population, n, planet => { planet with population := n }
  | .energy, n, planet => { planet with energy := n }
  | .money, _, planet => planet
  | .other, _, planet => planet

/-- What is left of `old` and what comes back when `number` is taken from it. -/
def taken (old : ℤ) (number : Numeric) : ℤ × Numeric :=
  if (old : Numeric) < number then (0, old) else (((old : Numeric) - number).toI, number)

/-- What `old` grows to and what does not fit when `number` is given to it. -/
def given (old maximum : ℤ) (number : Numeric) (added : Numeric) : ℤ × Numeric :=
  if (maximum : Numeric) ≤ (old : Numeric) + added then (maximum, number + old - maximum)
  else (((old : Numeric) + added).toI, 0)

def take (p : PlanetId) (type : Resource) (number : Numeric) : Act Numeric := do
  if number ≤ 0 then return 0
  let db ← get
  match type with
  | .other => return 0
  | .money =>
      match (db.planets p).user with
      | none => return 0
      | some u =>
          let (left, back) := taken (db.users u).money number
          modify fun db => db.setMoney u left
          return back
  | stored =>
      let (left, back) := taken ((db.planets p).stock stored) number
      modify fun db => db.setPlanet p ((db.planets p).setStock stored left)
      return back

def give (p : PlanetId) (type : Resource) (number : Numeric) : Act Numeric := do
  if number ≤ 0 then return 0
  let db ← get
  match type with
  | .other => return number
  | .money =>
      match (db.planets p).user with
      | none => return number
      | some u =>
          modify fun db => db.setMoney u ((db.users u).money + number).toI
          return 0
  | stored =>
      let planet := db.planets p
      -- only the ore branch cuts the number off before it adds it
      let added := if stored = .ore then .int number.toI else number
      let (grown, back) := given (planet.stock stored) (planet.maximum stored) number added
      modify fun db => db.setPlanet p ((db.planets p).setStock stored grown)
      return back

/-! ## Buildings -/

/-- The factor `@spec[6]`, which only a planet of special 5 has below one. -/
def buildFactor (planet : Planet) : Numeric := if planet.special = 5 then Numeric.lit (7 / 10) else 1

/-- The level of a planet's building of each name, 0 without one; the last row counts. -/
def buildingsToHash (w : World) (buildings : List Building) (p : PlanetId) (name : BuildingName) : ℕ :=
  let types := buildings.filterMap fun building =>
    if building.planet = p then w.buildingtypes.find? (·.id = building.buildingtype) else none
  ((types.filter (·.name = name)).getLast?.map Buildingtype.level).getD 0

def typeAt (w : World) (name : BuildingName) (level : ℕ) : Option Buildingtype :=
  w.buildingtypes.find? fun type => type.name = name ∧ type.level = level

def requirementsMet (levels : BuildingName → ℕ) (type : Buildingtype) : Bool :=
  type.requirements.all fun (name, level) => level ≤ levels name

def verifiesNewBuilding? (w : World) (buildings : List Building) (p : PlanetId)
    (name : BuildingName) : Bool :=
  let levels := buildingsToHash w buildings p
  if 0 < levels name then false
  else (typeAt w name 1).any (requirementsMet levels)

def verifiesUpgradeRequirements? (w : World) (buildings : List Building) (p : PlanetId)
    (type : Buildingtype) : Bool :=
  (typeAt w type.name (type.level + 1)).any (requirementsMet (buildingsToHash w buildings p))

/-- The types of a planet's buildings, in the order of the table. -/
def typesOf (w : World) (buildings : List Building) (p : PlanetId) : List Buildingtype :=
  buildings.filterMap fun building =>
    if building.planet = p then w.buildingtypes.find? (·.id = building.buildingtype) else none

/-- The keys of `buildings_to_hash`. -/
def buildingNames : List BuildingName :=
  [.oremine, .researchLab, .city, .powerplant, .crystalmine, .headquarter, .starport, .depot]

def upgradableBuildingsToHash (w : World) (buildings : List Building) (p : PlanetId) : List BuildingName :=
  let levels := buildingsToHash w buildings p
  let new := buildingNames.filter fun name => levels name = 0 ∧ verifiesNewBuilding? w buildings p name
  let upgraded := (typesOf w buildings p).filter (verifiesUpgradeRequirements? w buildings p)
  new ++ upgraded.map Buildingtype.name

/-- The building type whose costs the owner's page of a planet shows beside a button for `name`. -/
def upgradeButton (w : World) (db : Db) (p : PlanetId) (name : BuildingName) : Option Buildingtype :=
  if 0 < (db.planets p).underConstruction then none
  else
    let next := typeAt w name (buildingsToHash w db.buildings p name + 1)
    next.filter fun type => type.name ∈ upgradableBuildingsToHash w db.buildings p

/-- The building type a job for `name` would build, with the checks that refuse it. -/
def buildable (w : World) (db : Db) (p : PlanetId) (name : BuildingName) : Option Buildingtype :=
  let planet := db.planets p
  if name = .crystalmine ∧ planet.special ≠ 4 then none
  else if 0 < planet.underConstruction then none
  else
    let old := (db.buildings.filter (·.planet = p)).findSome? fun building =>
      w.buildingtypes.find? fun type => type.id = building.buildingtype ∧ type.name = name
    match old with
    | none => if verifiesNewBuilding? w db.buildings p name then typeAt w name 1 else none
    | some type =>
        if verifiesUpgradeRequirements? w db.buildings p type then typeAt w name (type.level + 1)
        else none

def createBuildingJob (w : World) (p : PlanetId) (name : BuildingName) : Act Bool := do
  let db ← get
  let planet := db.planets p
  match buildable w db p name, planet.user with
  | none, _ => return false
  | some _, none => throw .noMethodError
  | some type, some u =>
      let money := (db.users u).money
      if planet.ore < type.buildCostOre ∨ planet.crystal < type.buildCostCrystal ∨
          planet.population < type.buildCostPopulation ∨ money < type.buildCostMoney then
        return false
      modify fun db => (db.setMoney u (money - type.buildCostMoney)).setPlanet p
        { planet with
          ore := planet.ore - type.buildCostOre
          crystal := planet.crystal - type.buildCostCrystal
          population := planet.population - type.buildCostPopulation
          underConstruction := type.id }
      Resque.enqueueIn ((type.buildTime : ℤ) * buildFactor planet).toI
        (.buildBuildings p type.id)
      return true

def createProductionJob (p : PlanetId) : Act Unit := Resque.enqueueIn 30 (.produceResources p)

/-- Starts one of the buildings a new owner gets; the next one does not wait for it. -/
def startBuilding (w : World) (p : PlanetId) (name : BuildingName) : Act Unit := do
  let _ ← createBuildingJob w p name
  modify fun db => db.setPlanet p { db.planets p with underConstruction := 0 }

def claim (w : World) (p : PlanetId) (u : UserId) : Act Unit := do
  let planet := (← get).planets p
  modify fun db => db.setPlanet p { planet with user := some u }
  if planet.user.isNone then
    startBuilding w p .oremine
    startBuilding w p .headquarter
    startBuilding w p .powerplant
    startBuilding w p .city
    createProductionJob p

end Planet

end Mmog
