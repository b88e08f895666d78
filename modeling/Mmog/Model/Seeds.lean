import Mmog.Model.Universe

/-!
# Seeds

The ship table of `db/seeds.rb`, some of its building types and technologies,
and a small universe in one sunsystem, for runs on fixed inputs.
-/

namespace Mmog

open Ruby

namespace Seeds

def ship : ShipId → Ship
  | 1 => ⟨500, 220, 0, 1, 10, 3, 8000, 2⟩
  | 2 => ⟨2000, 1200, 0, 1, 30, 3, 40000, 3⟩
  | 3 => ⟨100, 400, 0, 30, 30, 6, 10, 1⟩
  | 4 => ⟨400, 1400, 0, 70, 30, 5, 50, 4⟩
  | 5 => ⟨700, 2000, 1, 150, 60, 6, 150, 4⟩
  | 6 => ⟨90000, 90000, 6666, 10000, 7000, 3, 2500, 10⟩
  | 7 => ⟨100, 150, 0, 0, 0, 15, 0, 1⟩
  | 8 => ⟨0, 200, 0, 1, 50, 0, 0, 0⟩
  | 9 => ⟨0, 1400, 0, 1, 400, 0, 0, 0⟩
  | 10 => ⟨2000, 4000, 0, 1, 10, 2, 1000, 4⟩
  | _ => ⟨0, 0, 0, 0, 0, 0, 0, 0⟩

def buildingtypes : List Buildingtype :=
  [⟨1, .headquarter, 1, 0, 0, 0, 0, 0, []⟩, ⟨6, .oremine, 1, 0, 0, 0, 0, 0, []⟩,
    ⟨26, .powerplant, 1, 0, 0, 0, 0, 0, []⟩, ⟨35, .city, 1, 0, 0, 0, 0, 0, []⟩]

/-- One sunsystem; a planet's id is its position in it. -/
def world : World where
  ship := ship
  shipIds := [1, 2, 3, 4, 5, 6, 7, 8, 9, 10]
  shipIds_nodup := by decide
  buildingtypes := buildingtypes
  getDistance p q := .int |(p : ℤ) - q|
  getDistance_nonneg p q := by
    rw [Numeric.le_iff, Numeric.value_zero, Numeric.value_int]
    exact_mod_cast abs_nonneg ((p : ℤ) - q)

/-- A planet with full stores. -/
def planet (user : Option UserId) : Planet where
  user := user
  special := 0
  ore := 20000
  maxore := 20000
  crystal := 100
  maxcrystal := 100
  energy := 4000
  maxenergy := 4000
  population := 1000
  maxpopulation := 5000
  underConstruction := 0

/-- Planets 1 and 2 belong to user 1, planets 11 and 12 to user 2; the others to nobody. -/
def start : Db where
  now := 1000
  planets p := planet (if p = 1 ∨ p = 2 then some 1 else if p = 11 ∨ p = 12 then some 2 else none)
  users u := { money := 20000, alliance := some u, userSetting := {} }
  buildings := []
  fleets := .empty
  delayed := []
  ready := []

theorem start_fresh : start.Fresh := ⟨rfl, nofun, nofun⟩

/-- A fleet of user 1 on its way from planet 1 to planet 11. -/
def scout : Fleet where
  id := 1
  user := 1
  missionId := 4
  departureTime := 400
  arrivalTime := 1000
  startPlanet := 1
  targetPlanet := 11
  originPlanet := 1
  ore := 0
  crystal := 0
  credit := 0
  ressourceCapacity := 10
  storageFactor := default
  velocityFactor := default
  offense := 30
  defense := 30

/-! ## The whole game -/

def moreBuildingtypes : List Buildingtype :=
  buildingtypes ++
    [⟨7, .oremine, 2, 60, 5, 0, 100, 40, [(.oremine, 1), (.powerplant, 1), (.headquarter, 1), (.city, 1)]⟩,
      ⟨40, .depot, 1, 250, 50, 0, 0, 50, [(.oremine, 1), (.powerplant, 1), (.headquarter, 1), (.city, 1)]⟩]

def increasedIncome : TechnologyRow where
  name := .rate .increasedIncome
  factor := Binary64.round (21 / 20)
  cost := 100
  maxrank := -1
  duration := 1500
  cost_nonneg := by norm_num
  one_le_factor := nofun

def increasedCapacity : TechnologyRow where
  name := .fleet .increasedCapacity
  factor := 5 / 4
  cost := 90
  maxrank := 3
  duration := 900
  cost_nonneg := by norm_num
  one_le_factor _ _ := by norm_num

def largeCargoShip : TechnologyRow where
  name := .flag .largeCargoShip
  factor := 0
  cost := 140
  maxrank := 1
  duration := 3600 * 12
  cost_nonneg := by norm_num
  one_le_factor := nofun

def rules : Rules where
  toWorld := { world with buildingtypes := moreBuildingtypes }
  constructionTime
    | 1 => 240
    | 2 => 480
    | 3 => 240
    | 4 => 540
    | 5 => 900
    | 6 => 5000
    | 7 => 480
    | 8 => 480
    | 9 => 900
    | 10 => 900
    | _ => 0
  crewCapacity
    | 1 => 1
    | 2 => 8
    | 3 => 1
    | 4 => 15
    | 5 => 20
    | 6 => 500
    | 7 => 0
    | 8 => 3
    | 9 => 6
    | 10 => 5
    | _ => 0
  production
    | 1 => 1
    | 6 => 1
    | 7 => 3
    | 26 => 200
    | 35 => 5
    | 40 => 200
    | _ => 0
  energyusage
    | 1 => 20
    | 7 => 5
    | 35 => 20
    | 40 => 5
    | _ => 0
  buildingtypes_nodup := by decide
  one_le_level := by decide
  technology
    | 1 => some increasedIncome
    | 8 => some increasedCapacity
    | 10 => some largeCargoShip
    | _ => none
  technology_zero := rfl
  technologyRequires := [⟨1, 1, 0, 0⟩, ⟨8, 2, 0, 0⟩, ⟨10, 3, 8, 1⟩]
  planetIds := [1, 2, 3, 4, 5, 6, 7, 8, 9, 10, 11, 12]

/-- The game over a universe, with no orders and no research. -/
def game (db : Db) : Game where
  db := db
  profiles _ := { researchlvl := 4 }
  ranks _ _ := none
  queue := .empty
  addShips := .empty
  researches := .empty

end Seeds

/-- The seeded universe before anybody plays. -/
def deserted : Game := Seeds.game { Seeds.start with planets := fun _ => Seeds.planet none }

end Mmog
