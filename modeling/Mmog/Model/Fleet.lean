import Mmog.Model.Planet

/-!
# Fleets

A fleet lives twice: in its row and in the object a request or a job holds.
Methods take the object and give back the object they leave; `save` writes its
attributes to the row.  Shipfleet rows are always written directly.
-/

namespace Mmog

open Ruby

namespace Fleet

/-! ## Rows -/

def find (id : FleetId) : Act Fleet := do
  match (← get).fleets.get id with
  | some row => return { row.attributes with id }
  | none => throw .recordNotFound

def save (self : Fleet) : Act Unit :=
  modify fun db => db.setFleets
    (db.fleets.modify self.id fun row => { row with attributes := self.toAttributes })

/-- Deletes the row and the shipfleet rows that depend on it. -/
def destroy (self : Fleet) : Act Unit :=
  modify fun db => db.setFleets (db.fleets.destroy self.id)

/-- The shipfleet rows of a fleet. -/
def shipfleets (self : Fleet) : Act (List Shipfleet) := do
  return ((← get).fleets.get self.id).elim [] FleetRow.shipfleets

def writeShipfleets (self : Fleet) (change : List Shipfleet → List Shipfleet) : Act Unit :=
  modify fun db => db.setFleets
    (db.fleets.modify self.id fun row => { row with shipfleets := change row.shipfleets })

/-- `Fleet.new`, which also saves the row. -/
def new (planet : PlanetId) : Act Fleet := do
  let db ← get
  match (db.planets planet).user with
  | none => throw .noMethodError
  | some user =>
      let attributes : Attributes :=
        { user, missionId := 1, departureTime := db.now, arrivalTime := db.now
          startPlanet := planet, targetPlanet := planet, originPlanet := planet
          ore := 0, crystal := 0, credit := 0, ressourceCapacity := 0
          storageFactor := (db.users user).userSetting.increasedCapacity
          velocityFactor := (db.users user).userSetting.increasedMovement
          offense := 0, defense := 0 }
      modify fun db => db.setFleets (db.fleets.create { attributes, shipfleets := [] })
      return { attributes with id := db.fleets.nextId }

/-! ## Getters -/

/-- The fleet that is based on the planet. -/
def getHomeFleet (planet : PlanetId) : Act (Option Fleet) := do
  match (← get).fleets.first (Db.basedAt planet) with
  | some id => some <$> find id
  | none => return none

def getCapacity (self : Fleet) : Numeric :=
  (self.ressourceCapacity : Numeric) * .float self.storageFactor

def getAmountOfRessources (self : Fleet) : ℤ := self.ore + self.credit + self.crystal

def getFreeCapacity (self : Fleet) : Numeric :=
  let cap := self.getCapacity - self.getAmountOfRessources
  if cap < 0 then 0 else cap

/-- The speed of the slowest ship type the fleet has a row for. -/
def getVelocity (w : World) (self : Fleet) : Act Numeric := do
  match ((← self.shipfleets).map fun row => (w.ship row.shipId).velocity).min? with
  | some velocity => return (velocity : ℤ) * .float self.velocityFactor
  | none => throw .noMethodError

def getNeededTime (velocity distance : Numeric) : Numeric :=
  if velocity.value = 0 then 0 else distance / velocity * 5

def getNeededFuel (w : World) (ship : ShipId) (time : Numeric) : Numeric :=
  if (w.ship ship).consumption = 0 then 0 else time / ((w.ship ship).consumption : ℤ)

/-- The amount in the first row for a ship type. -/
def amountOf? (rows : List Shipfleet) (ship : ShipId) : Option ℤ :=
  (rows.find? fun row => row.shipId = ship).map Shipfleet.amount

/-- Looks up the amount of each of the ship types, which fails when a row is gone. -/
def collectShips (rows : List Shipfleet) : List ShipId → Option (Hash ShipId ℤ) :=
  List.foldlM (fun ships ship => (amountOf? rows ship).map (ships.insert ship)) Hash.empty

/-- `get_ships` of an object that has read its ship types earlier. -/
def getShipsOf (types : List ShipId) (self : Fleet) : Act (Hash ShipId ℤ) := do
  match collectShips (← self.shipfleets) types with
  | some ships => return ships
  | none => throw .noMethodError

def ships (self : Fleet) : Act (List ShipId) := return (← self.shipfleets).map Shipfleet.shipId

def getShips (self : Fleet) : Act (Hash ShipId ℤ) := do getShipsOf (← self.ships) self

def getNeededFuelAll (w : World) (self : Fleet) (time : Numeric) : Act Numeric := do
  let ships ← self.getShips
  return ships.entries.foldl
    (fun fuel (ship, amount) => fuel + getNeededFuel w ship time * (amount : Numeric)) 0

/-! ## Ships -/

/-- Whether the keys are ships, which they are here, and the amounts are not negative. -/
def hashIsValid? (shipHash : Hash ShipId ℤ) : Bool :=
  shipHash.entries.all fun (_, value) => 0 ≤ value

/-- Whether the rows hold at least the amount of every key. -/
def enoughShips? (rows : List Shipfleet) (shipHash : Hash ShipId ℤ) : Bool :=
  shipHash.entries.all fun (key, value) =>
    0 ≤ value ∧ (amountOf? rows key).any fun amount => 0 ≤ amount - value

def atHome (self : Attributes) : Bool :=
  self.targetPlanet = self.originPlanet ∧ self.startPlanet = self.originPlanet

/-- The attributes `update_values` computes from the ships and the owner's factors. -/
def withValues (w : World) (setting : UserSetting) (ships : Hash ShipId ℤ)
    (self : Attributes) : Attributes :=
  let offense : ℤ := ships.sum fun ship amount => (w.ship ship).offense * amount
  let defense : ℤ := ships.sum fun ship amount => (w.ship ship).defense * amount
  let valued : Attributes := { self with
    ressourceCapacity := ships.sum fun ship amount => (w.ship ship).ressourceCapacity * amount
    offense := ((offense : Numeric) * .float setting.increasedPower).toI
    defense := ((defense : Numeric) * .float setting.increasedDefense).toI }
  -- a fleet at home gets the newest technologies
  if atHome self then
    { valued with
      velocityFactor := setting.increasedMovement
      storageFactor := setting.increasedCapacity }
  else valued

def updateValuesOf (w : World) (types : List ShipId) (self : Fleet) : Act Fleet := do
  let ships ← getShipsOf types self
  let setting := ((← get).users self.user).userSetting
  let self : Fleet := { withValues w setting ships self.toAttributes with id := self.id }
  self.save
  return self

def updateValues (w : World) (self : Fleet) : Act Fleet := do
  updateValuesOf w (← self.ships) self

/-- Changes the amount in the first row for a ship type. -/
def changeAmount (ship : ShipId) (change : ℤ → ℤ) : List Shipfleet → List Shipfleet
  | [] => []
  | row :: rows =>
      if row.shipId = ship then { row with amount := change row.amount } :: rows
      else row :: changeAmount ship change rows

/-- The first pass of `add_ships`: raises the rows there are and collects the other keys. -/
def addToRows (self : Fleet) :
    List (ShipId × ℤ) → Hash ShipId ℤ → Act (Hash ShipId ℤ)
  | [], newShips => return newShips
  | (key, value) :: rest, newShips => do
      if key ∈ (← self.ships) then
        self.writeShipfleets (changeAmount key (· + value))
        addToRows self rest newShips
      else addToRows self rest (newShips.insert key value)

/-- The second pass: a row for each key that had none. -/
def addRows (self : Fleet) : List (ShipId × ℤ) → Act Unit
  | [] => return
  | (key, value) :: rest => do
      self.writeShipfleets (· ++ [⟨key, 0⟩])
      self.writeShipfleets (changeAmount key fun _ => value)
      addRows self rest

def invalidInput : String :=
  "The Input is not valid (invalid amount or wrong objects), ships cannot be added"

def addShips (w : World) (self : Fleet) (shipHash : Hash ShipId ℤ) : Act Fleet := do
  if !hashIsValid? shipHash then raise invalidInput
  let newShips ← self.addToRows shipHash.entries Hash.empty
  self.addRows newShips.entries
  self.updateValues w

def addShip (w : World) (self : Fleet) (ship : ShipId) : Act Fleet :=
  self.addShips w (.single ship 1)

def takeFromRows (self : Fleet) : List (ShipId × ℤ) → Act Unit
  | [] => return
  | (key, value) :: rest => do
      self.writeShipfleets (changeAmount key (· - value))
      takeFromRows self rest

def cannotDestroy : String :=
  "The Input is not valid (invalid amount or wrong objects), ships cannot be destroyed"

def destroyShips (w : World) (self : Fleet) (shipHash : Hash ShipId ℤ) : Act Fleet := do
  if !enoughShips? (← self.shipfleets) shipHash then
    raise cannotDestroy
  self.takeFromRows shipHash.entries
  self.updateValues w

def destroyShip (w : World) (self : Fleet) (ship : ShipId) : Act Fleet :=
  self.destroyShips w (.single ship 1)

/-- The integer part of a share; a quotient by zero is no number and has none. -/
def share (amount : ℤ) (factor : Numeric) : ℤ := ((amount : Numeric) * factor).toI

/-- The object with its share of the cargo, which only a later save writes. -/
def withShare (self cargoOf : Fleet) (factor : Numeric) : Fleet :=
  { self with
    ore := share cargoOf.ore factor
    crystal := share cargoOf.crystal factor
    credit := share cargoOf.credit factor }

/-- The fleet that stays and a new fleet with the ships of the hash. -/
def splitFleet (w : World) (self : Fleet) (shipHash : Hash ShipId ℤ) : Act (Fleet × Fleet) := do
  if !enoughShips? (← self.shipfleets) shipHash then raise "Not enough ships for a split"
  let self ← self.updateValues w
  let oldCapacity := self.getCapacity
  let newFleet ← new self.originPlanet
  newFleet.save
  let newFleet ← newFleet.addShips w shipHash
  let self ← self.destroyShips w shipHash
  if self.getCapacity < (self.getAmountOfRessources : Numeric) then
    if oldCapacity.value = 0 then throw .floatDomainError
    let factor := newFleet.getCapacity / oldCapacity
    return (self.withShare self (1 - factor), newFleet.withShare self factor)
  return (self, newFleet)

/-- Merges another fleet into this one. -/
def mergeFleet (w : World) (self : Fleet) : Option Fleet → Act Fleet
  | none => raise invalidInput
  | some fleet => do
      let self : Fleet := { self with
        ore := self.ore + fleet.ore
        credit := self.credit + fleet.credit
        crystal := self.crystal + fleet.crystal }
      let shipHash ← fleet.getShips
      let self ← self.addShips w shipHash
      let types ← self.ships
      fleet.destroy
      -- the ship types of this object were read before the other fleet's rows went
      self.updateValuesOf w types

/-- What the `AddShip` job does with the ship and planet it finds. -/
def addShipToPlanet (w : World) (ship : ShipId) (planet : PlanetId) : Act Unit := do
  match ← getHomeFleet planet with
  | some fleet => let _ ← fleet.addShip w ship
  | none =>
      let fleet ← new planet
      let fleet ← fleet.addShip w ship
      fleet.save

/-! ## Cargo -/

def loadRessources (self : Fleet) (ore crystal credit : ℤ) (planet : PlanetId) : Act Fleet := do
  if ore < 0 ∨ crystal < 0 ∨ credit < 0 then
    raise "You cannot load negative amounts of ressources in your fleet"
  let part := self.getFreeCapacity / 3
  let full := self.getFreeCapacity < ((ore + crystal + credit : ℤ) : Numeric)
  let gotOre ← Planet.take planet .ore (if full then part else ore)
  let self : Fleet := { self with ore := ((self.ore : Numeric) + gotOre).toI }
  -- the rooms for crystal and credit are those before the ore came aboard
  let gotCrystal ← Planet.take planet .crystal (if full then part else crystal)
  let self : Fleet := { self with crystal := ((self.crystal : Numeric) + gotCrystal).toI }
  let gotCredit ← Planet.take planet .money (if full then part else credit)
  let self : Fleet := { self with credit := ((self.credit : Numeric) + gotCredit).toI }
  self.save
  return self

/-- Unloads all ressources; those the planet has no room for stay. -/
def unloadRessources (self : Fleet) (planet : PlanetId) : Act Fleet := do
  let backOre ← Planet.give planet .ore self.ore
  let backCrystal ← Planet.give planet .crystal self.crystal
  let backCredit ← Planet.give planet .money self.credit
  let self : Fleet := { self with
    ore := backOre.toI
    crystal := backCrystal.toI
    credit := backCredit.toI }
  self.save
  return self

end Fleet

end Mmog
