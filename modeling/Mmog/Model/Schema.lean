import Mmog.Ruby.Action
import Mmog.Ruby.Hash
import Mmog.Ruby.Numeric
import Mmog.Ruby.Table

/-!
# The tables of the game

The columns the fleet code reads and writes.  Planets and users have fixed sets
of rows, fleets come and go.  The ship, building type and mission tables are
seeded once and never written.
-/

namespace Mmog

open Ruby

abbrev ShipId := ℕ
abbrev FleetId := ℕ
abbrev PlanetId := ℕ
abbrev UserId := ℕ
abbrev AllianceId := ℕ
abbrev MissionId := ℕ

/-! ## Seeded tables -/

structure Ship where
  creditCost : ℕ
  oreCost : ℕ
  crystalCost : ℕ
  offense : ℕ
  defense : ℕ
  velocity : ℕ
  ressourceCapacity : ℕ
  consumption : ℕ

inductive BuildingName where
  | oremine | researchLab | city | powerplant | crystalmine | headquarter | starport | depot
  deriving DecidableEq

structure Buildingtype where
  id : ℕ
  name : BuildingName
  level : ℕ
  buildTime : ℕ
  buildCostOre : ℕ
  buildCostCrystal : ℕ
  buildCostMoney : ℕ
  buildCostPopulation : ℕ
  requirements : List (BuildingName × ℕ)

/-- The seeded tables and the map, on which `getDistance` measures. -/
structure World where
  ship : ShipId → Ship
  shipIds : List ShipId
  shipIds_nodup : shipIds.Nodup
  buildingtypes : List Buildingtype
  getDistance : PlanetId → PlanetId → Numeric
  getDistance_nonneg : ∀ p q, 0 ≤ getDistance p q

/-- `Mission.find`. -/
def Mission.find (id : MissionId) : Option MissionId := if 1 ≤ id ∧ id ≤ 6 then some id else none

def spyDrone : ShipId := 7
def colonyShip : ShipId := 10

/-! ## Users and planets -/

/-- A research factor: 1.0 at first, then a power of the technology's factor. -/
abbrev Factor := {q : ℚ // 1 ≤ q}

instance : Inhabited Factor := ⟨1, le_refl 1⟩

structure UserSetting where
  increasedMovement : Factor := default
  increasedPower : Factor := default
  increasedDefense : Factor := default
  increasedCapacity : Factor := default
  increasedSpypower : Factor := default

structure User where
  money : ℤ
  alliance : Option AllianceId
  userSetting : UserSetting

structure Building where
  planet : PlanetId
  buildingtype : ℕ

structure Planet where
  user : Option UserId
  special : ℤ
  ore : ℤ
  maxore : ℤ
  crystal : ℤ
  maxcrystal : ℤ
  energy : ℤ
  maxenergy : ℤ
  population : ℤ
  maxpopulation : ℤ
  underConstruction : ℕ

/-! ## Fleets -/

/-- A row that says how many ships of one type a fleet has. -/
structure Shipfleet where
  shipId : ShipId
  amount : ℤ
  deriving DecidableEq

/-- Who flies where, when and why. -/
structure Route where
  user : UserId
  missionId : MissionId
  departureTime : ℤ
  arrivalTime : ℤ
  startPlanet : PlanetId
  targetPlanet : PlanetId
  originPlanet : PlanetId
  deriving DecidableEq

structure Cargo where
  ore : ℤ
  crystal : ℤ
  credit : ℤ
  deriving DecidableEq

structure Attributes extends Route, Cargo where
  ressourceCapacity : ℤ
  storageFactor : Factor
  velocityFactor : Factor
  offense : ℤ
  defense : ℤ

/-- A fleet as the program holds it; its row changes when it is saved. -/
structure Fleet extends Attributes where
  id : FleetId

/-- A row of the fleet table with the shipfleet rows that belong to it. -/
structure FleetRow where
  attributes : Attributes
  shipfleets : List Shipfleet

/-! ## Jobs -/

inductive Job where
  | attackPlanet (fleet : FleetId) (planet : PlanetId)
  | colonizePlanet (fleet : FleetId) (planet : PlanetId)
  | travelToPlanet (fleet : FleetId) (planet : PlanetId)
  | spyPlanet (fleet : FleetId) (planet : PlanetId) (ownSpyFactor : Factor)
  | transportToPlanet (fleet : FleetId) (planet : PlanetId)
  | returnToOrigin (fleet : FleetId)
  | buildBuildings (planet : PlanetId) (buildingtype : ℕ)
  | produceResources (planet : PlanetId)
  deriving DecidableEq

structure Enqueued where
  timestamp : ℤ
  job : Job
  deriving DecidableEq

/-! ## The state -/

structure Db where
  now : ℕ
  planets : PlanetId → Planet
  users : UserId → User
  buildings : List Building
  fleets : Table FleetRow
  delayed : List Enqueued
  ready : List Job

inductive Err where
  | runtimeError (message : String)
  | noMethodError
  | recordNotFound
  | typeError
  | floatDomainError
  /-- The random draws given do not last as long as the loop that uses them. -/
  | undrawn
  deriving DecidableEq

abbrev Act := Action Err Db

def raise {α : Type} (message : String) : Act α := throw (.runtimeError message)

namespace Db

def setPlanet (db : Db) (p : PlanetId) (planet : Planet) : Db :=
  { db with planets := fun q => if q = p then planet else db.planets q }

def setMoney (db : Db) (u : UserId) (money : ℤ) : Db :=
  { db with users := fun v => if v = u then { db.users u with money } else db.users v }

def setUserSetting (db : Db) (u : UserId) (userSetting : UserSetting) : Db :=
  { db with users := fun v => if v = u then { db.users u with userSetting } else db.users v }

def setFleets (db : Db) (fleets : Table FleetRow) : Db := { db with fleets }

/-- The fleets for which `where(start_planet: p, target_planet: p)` holds. -/
def stationedAt (p : PlanetId) (row : FleetRow) : Bool :=
  row.attributes.startPlanet = p ∧ row.attributes.targetPlanet = p

/-- The fleets for which `where(mission_id: 1, origin_planet: p)` holds. -/
def basedAt (p : PlanetId) (row : FleetRow) : Bool :=
  row.attributes.missionId = 1 ∧ row.attributes.originPlanet = p

end Db

/-! ## The queue -/

namespace Resque

def enqueueAt (timestamp : ℤ) (job : Job) : Act Unit :=
  modify fun db => { db with delayed := db.delayed ++ [⟨timestamp, job⟩] }

def enqueueIn (seconds : ℤ) (job : Job) : Act Unit := do
  enqueueAt ((← get).now + seconds) job

/-- Removes the delayed jobs with this class and these arguments; a ready job stays. -/
def removeDelayed (job : Job) : Act Unit :=
  modify fun db => { db with delayed := db.delayed.filter fun entry => entry.job ≠ job }

end Resque

end Mmog
