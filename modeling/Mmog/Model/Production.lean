import Mmog.Model.Rules

/-!
# Production and buildings

A tick of a planet's production, the end of a building's construction, and
aborting it.  A job loads the planet, changes the object and saves it.
-/

namespace Mmog

open Ruby Game

namespace Planet

/-! ## Special planets -/

/-- The factors `@spec[0]` to `@spec[5]` that `calc_spec` gives a planet. -/
structure Spec where
  ore : Numeric := 1
  energy : Numeric := 1
  population : Numeric := 1
  credit : Numeric := 1
  crystal : Numeric := 1
  storage : Numeric := 1

def spec (planet : Planet) : Spec :=
  if planet.special = 0 then {}
  else if planet.special = 1 then { ore := Numeric.lit (13 / 10) }
  else if planet.special = 2 then { energy := Numeric.lit (13 / 10) }
  else if planet.special = 3 then { credit := Numeric.lit (13 / 10) }
  else if planet.special = 4 then
    { ore := Numeric.lit (1 / 2), energy := Numeric.lit (1 / 2), population := Numeric.lit (1 / 2)
      credit := Numeric.lit (1 / 2) }
  else if planet.special = 5 then {}
  else if planet.special = 6 then { storage := Numeric.lit (13 / 10) }
  -- the last branch is an `else` with a condition that nothing reads
  else { population := Numeric.lit (13 / 10) }

/-- The stores of a planet of this kind, as `calc_spec` sets them. -/
structure Start where
  maxore : ℤ
  maxcrystal : ℤ
  maxenergy : ℤ

def start (planet : Planet) : Start :=
  if planet.special = 3 then ⟨75, 5, 175⟩
  else if planet.special = 6 then ⟨200, 5, 400⟩
  else ⟨100, 1, 200⟩

/-! ## Production -/

/-- The type of the first building of this name on the planet. -/
def productionBuilding (rules : Rules) (buildings : List Building) (p : PlanetId)
    (name : BuildingName) : Option Buildingtype :=
  (buildings.filter fun building => building.planet = p).findSome? fun building =>
    rules.buildingtypes.find? fun type => type.id = building.buildingtype ∧ type.name = name

/-- What a building makes in one tick before the bonus of the home planet. -/
def baseProduction (profile : Profile) (planet : Planet) (prod : ℕ) : BuildingName → Numeric
  | .oremine =>
      .float (profile.rate .increasedIronproduction) * .int prod * planet.spec.ore
  | .city => planet.spec.population * .int (prod + planet.population / 500)
  | .headquarter =>
      .float (profile.rate .increasedIncome) * planet.spec.credit *
        .int (planet.population / 100) * .int prod
  | .powerplant =>
      .float (profile.rate .increasedEnergyEfficiency) * .int prod * planet.spec.energy
  | .crystalmine => planet.spec.crystal * .int prod
  | _ => 0

/-- The production of a building, at least 1. -/
def productionOf (profile : Profile) (p : PlanetId) (planet : Planet) (prod : ℕ)
    (name : BuildingName) : ℤ :=
  let c := baseProduction profile planet prod name
  let c := if p = profile.homePlanet then c * Numeric.lit (11 / 10) else c
  max c.round 1

/-- `get_production` on the object of a planet. -/
def getProduction (rules : Rules) (p : PlanetId) (planet : Planet) (name : BuildingName) :
    GameAct ℤ := do
  let game ← get
  match productionBuilding rules game.db.buildings p name, planet.user with
  | none, _ => return 0
  | some _, none => throw .noMethodError
  | some type, some u =>
      return productionOf (game.profiles u) p planet (rules.production type.id) name

/-- A stock after a production that the store has to hold. -/
def grow (old production maximum : ℤ) : ℤ :=
  if old + production < maximum then old + production else maximum

/-- The energy that the buildings of a planet use, unless one has no type. -/
def energyUsage (rules : Rules) (buildings : List Building) (p : PlanetId) : Option ℕ :=
  ((buildings.filter fun building => building.planet = p).mapM fun building =>
    (rules.buildingtype building.buildingtype).map fun type => rules.energyusage type.id).map
      List.sum

/-- The part of a tick that only runs on energy. -/
def produce (rules : Rules) (p : PlanetId) (planet : Planet) : GameAct Planet := do
  let ore ← getProduction rules p planet .oremine
  let planet := { planet with ore := grow planet.ore ore planet.maxore }
  let population ← getProduction rules p planet .city
  let planet :=
    { planet with population := grow planet.population population planet.maxpopulation }
  let crystal ← getProduction rules p planet .crystalmine
  let planet := { planet with crystal := grow planet.crystal crystal planet.maxcrystal }
  let income ← getProduction rules p planet .headquarter
  match planet.user with
  | none => throw .noMethodError
  | some u =>
      modify fun game => game.setDb (game.db.setMoney u ((game.db.users u).money + income))
      match energyUsage rules (← get).db.buildings p with
      | none => throw .noMethodError
      | some usage => return { planet with energy := planet.energy - usage }

def updateResources (rules : Rules) (p : PlanetId) : GameAct Unit := do
  let planet := (← get).db.planets p
  let planet ← if 0 < planet.energy then produce rules p planet else pure planet
  let power ← getProduction rules p planet .powerplant
  let planet := { planet with energy := grow planet.energy power planet.maxenergy }
  onDb (createProductionJob p)
  modify fun game => game.setDb (game.db.setPlanet p planet)

/-! ## Buildings -/

/-- `depot_size_increase`, on the object of a planet. -/
def depotSizeIncrease (planet : Planet) (prodSize : ℕ) : Planet :=
  let size (stock : ℤ) := (Numeric.int (stock * (prodSize / 100 : ℕ)) * planet.spec.storage).toI
  { planet with
    maxore := size planet.start.maxore
    maxcrystal := size planet.start.maxcrystal
    maxenergy := size planet.start.maxenergy }

/-- The highest laboratory on the planets of a user. -/
def maxResearchLevel (rules : Rules) (db : Db) (u : UserId) : ℕ :=
  ((rules.planetIds.filter fun p => (db.planets p).user = some u).map fun p =>
    buildingsToHash rules.toWorld db.buildings p .researchLab).foldl max 0

/-- Puts the type of the first building that is one level below it up to `buildMe`. -/
def upgradeFirst (rules : Rules) (p : PlanetId) (buildMe : Buildingtype) :
    List Building → Except Err (Option (List Building))
  | [] => .ok none
  | building :: rest =>
      if building.planet = p then
        match rules.buildingtype building.buildingtype with
        | none => .error .noMethodError
        | some type =>
            if type.name = buildMe.name ∧ type.level + 1 = buildMe.level then
              .ok (some ({ building with buildingtype := buildMe.id } :: rest))
            else (upgradeFirst rules p buildMe rest).map fun found => found.map (building :: ·)
      else (upgradeFirst rules p buildMe rest).map fun found => found.map (building :: ·)

/-- What follows a new or a better building: a depot's room and the owner's research level. -/
def finishBuilding (rules : Rules) (p : PlanetId) (buildMe : Buildingtype)
    (buildings : List Building) : GameAct Bool := do
  modify fun game => game.setDb { game.db with buildings := buildings }
  if buildMe.name = .depot then
    modify fun game => game.setDb (game.db.setPlanet p
      (depotSizeIncrease (game.db.planets p) (rules.production buildMe.id)))
  let game ← get
  match (game.db.planets p).user with
  | none => throw .noMethodError
  | some u =>
      set (game.setProfile u { game.profiles u with
        researchlvl := maxResearchLevel rules game.db u })
      return true

def buildBuilding (rules : Rules) (p : PlanetId) (buildingtype : ℕ) : GameAct Bool := do
  modify fun game => game.setDb
    (game.db.setPlanet p { game.db.planets p with underConstruction := 0 })
  match rules.buildingtype buildingtype with
  | none => return false
  | some buildMe =>
      let buildings := (← get).db.buildings
      match upgradeFirst rules p buildMe buildings with
      | .error err => throw err
      | .ok (some buildings) => finishBuilding rules p buildMe buildings
      | .ok none =>
          if buildMe.level = 1 then
            finishBuilding rules p buildMe (buildings ++ [⟨p, buildMe.id⟩])
          else return false

/-- `delete_building_job`, which says whether it removed the only such job. -/
def deleteBuildingJob (rules : Rules) (p : PlanetId) (buildingtype : ℕ) : GameAct Bool := do
  let job : Job := .buildBuildings p buildingtype
  let removed := ((← get).db.delayed.filter fun entry => entry.job = job).length
  onDb (Resque.removeDelayed job)
  if removed = 1 then
    modify fun game => game.setDb
      (game.db.setPlanet p { game.db.planets p with underConstruction := 0 })
    match rules.buildingtype buildingtype with
    | none => throw .recordNotFound
    | some destroyMe =>
        let _ ← onDb (give p .ore (.int (destroyMe.buildCostOre / 2 : ℕ)))
        let _ ← onDb (give p .crystal (.int (destroyMe.buildCostCrystal / 2 : ℕ)))
        let _ ← onDb (give p .population (.int (destroyMe.buildCostPopulation / 2 : ℕ)))
        let _ ← onDb (give p .money (.int (destroyMe.buildCostMoney / 2 : ℕ)))
        return true
  else return false

/-- `PlanetsController#abort_upgrade`. -/
def abortUpgrade (rules : Rules) (p : PlanetId) (buildingtype : ℕ) : GameAct Unit := do
  if ← deleteBuildingJob rules p buildingtype then return
  else
    modify fun game => game.setDb
      (game.db.setPlanet p { game.db.planets p with underConstruction := 0 })

/-! ## Start planets -/

/-- The planet that `search_startplanet` comes to; the eight it knows are always looked up anew. -/
def searchStartplanet (rules : Rules) (db : Db) (markerPos : ℕ) : Option PlanetId :=
  let marker := (rules.planetIds.filter fun p =>
    (db.planets p).special = 0 ∧ (db.planets p).user = none).take 8
  marker[(markerPos + 1) % 8]?

/-- `PlanetsHelper.claim_startplanet_for`. -/
def claimStartplanetFor (rules : Rules) (u : UserId) (markerPos : ℕ) : GameAct Bool := do
  let game ← get
  if rules.planetIds.any fun p => (game.db.planets p).user = some u then return false
  match searchStartplanet rules game.db markerPos with
  | none => return false
  | some p =>
      onDb (claim rules.toWorld p u)
      modify fun game => game.setProfile u { game.profiles u with homePlanet := p }
      return true

end Planet

end Mmog
