import Mmog.Model.Mission

/-!
# Fights

A fight compares the offense of the attacker with the defense of all fleets on
the planet.  The loser is destroyed, the winner loses ships drawn one by one
until its strength has come down to the difference, and an attacker who wins
takes what it can carry.
-/

namespace Mmog

open Ruby

/-- A rate of one is always possible, and so is no rate for a spy. -/
theorem one_mem_rate : (4 / 5 : ℚ) ≤ 1 ∧ (1 : ℚ) ≤ 6 / 5 := by norm_num

theorem one_mem_crystalRate : (4 / 5 : ℚ) ≤ 1 ∧ (1 : ℚ) ≤ 2 := by norm_num

theorem zero_mem_spyRate : (0 : ℚ) ≤ 0 ∧ (0 : ℚ) ≤ 4 / 5 := by norm_num

/-- The random draws of one job. -/
structure Draws where
  /-- `rand(0.8 .. 1.2)`, for the strength that is left. -/
  rate : ℚ := 1
  rate_mem : 4 / 5 ≤ rate ∧ rate ≤ 6 / 5 := by exact one_mem_rate
  /-- One pair for each round of a loss loop: a fleet and a ship of it. -/
  picks : List (ℕ × ℕ) := []
  /-- `rand(0.8 .. 2)`, for the crystal wanted. -/
  crystalRate : ℚ := 1
  crystalRate_mem : 4 / 5 ≤ crystalRate ∧ crystalRate ≤ 2 := by exact one_mem_crystalRate
  /-- `rand(0.8 .. 1.2)`, rounded before it is used. -/
  oreRate : ℚ := 1
  oreRate_mem : 4 / 5 ≤ oreRate ∧ oreRate ≤ 6 / 5 := by exact one_mem_rate
  /-- `rand 0.0..0.8`. -/
  spyRate : ℚ := 0
  spyRate_mem : 0 ≤ spyRate ∧ spyRate ≤ 4 / 5 := by exact zero_mem_spyRate

namespace Fight

/-! ## The loss loops -/

/-- The single ships of a fleet that are still to draw from, and what it lost so far. -/
structure Pool where
  allships : List ShipId
  lost : Hash ShipId ℤ

/-- A pool with every ship of a fleet.  Its order does not matter: any draw can hit any ship. -/
def Pool.of (ships : Hash ShipId ℤ) : Pool where
  allships := ships.entries.flatMap fun (ship, amount) => List.replicate amount.toNat ship
  lost := Hash.tabulate ships.keys ships.keys_nodup fun _ => 0

/-- One round: draws a ship, and takes it away unless `shipamount` says that none is left. -/
def round (strength : ShipId → ℤ) (shipamount : Hash ShipId ℤ) (pick : ℕ × ℕ)
    (left : ℤ) (pools : List Pool) : Except Err (ℤ × List Pool) :=
  let fleet := pick.1 % pools.length
  match pools[fleet]? with
  | none => .error .typeError
  | some pool =>
      let index := pick.2 % pool.allships.length
      match pool.allships[index]? with
      -- drawing from no ships gives nil, which is no index
      | none => .error .typeError
      | some ship =>
          match shipamount.get? ship with
          | none => .error .noMethodError
          | some amount =>
              if amount - pool.lost.getD ship 0 ≤ 0 then .ok (left, pools)
              else .ok (left - strength ship, pools.set fleet
                { allships := pool.allships.eraseIdx index
                  lost := pool.lost.insert ship (pool.lost.getD ship 0 + 1) })

/-- Rounds until the strength is down to `target`. -/
def loseShips (strength : ShipId → ℤ) (shipamount : Hash ShipId ℤ) (target : Numeric) :
    List (ℕ × ℕ) → ℤ → List Pool → Except Err (List Pool)
  | [], left, pools => if target < (left : Numeric) then .error .undrawn else .ok pools
  | pick :: picks, left, pools =>
      if target < (left : Numeric) then
        match round strength shipamount pick left pools with
        | .error err => .error err
        | .ok (left, pools) => loseShips strength shipamount target picks left pools
      else .ok pools

/-- What the defenders lose; `shipamount` is left over from the last of them. -/
def defenderLosses (w : World) (ships : List (Hash ShipId ℤ)) (newDefense : Numeric)
    (picks : List (ℕ × ℕ)) (defense : ℤ) : Except Err (List (Hash ShipId ℤ)) :=
  (loseShips (fun ship => (w.ship ship).defense) (ships.getLast?.getD .empty) newDefense picks
    defense (ships.map Pool.of)).map (List.map Pool.lost)

/-- What the attacker loses. -/
def attackerLosses (w : World) (ships : Hash ShipId ℤ) (newOffense : Numeric)
    (picks : List (ℕ × ℕ)) (offense : ℤ) : Except Err (Hash ShipId ℤ) :=
  (loseShips (fun ship => (w.ship ship).offense) ships newOffense picks offense
    [Pool.of ships]).map fun pools => (pools.head?.map Pool.lost).getD .empty

/-- Turns the outcome of a loop into that of the action it stands in. -/
def orRaise {α : Type} : Except Err α → Act α
  | .ok value => return value
  | .error err => throw err

/-! ## Loot -/

structure Wanted where
  crystal : ℤ
  ore : ℤ
  money : ℤ

/-- Lowers what is wanted in total to the capacity, by seven each time. -/
def trim (capacity : ℤ) : ℕ → Wanted → Wanted
  | 0, wanted => wanted
  | fuel + 1, wanted =>
      if capacity < wanted.crystal + wanted.ore + wanted.money then
        trim capacity fuel
          { wanted with money := wanted.money - 3 - 3, crystal := wanted.crystal - 1 }
      else wanted

def wantedFor (draws : Draws) (capacity : ℤ) : Wanted :=
  let crystal := (((capacity / 3 : ℤ) : Numeric) * .float draws.crystalRate).round
  let ore := (capacity - crystal) * (Numeric.float draws.oreRate).round
  let money := capacity - (crystal + ore)
  trim capacity (crystal + ore + money - capacity).toNat { crystal, ore, money }

/-- Fills the fleet with what the planet and its owner have; old cargo is replaced. -/
def loot (draws : Draws) (self : Fleet) (planet : PlanetId) : Act Fleet := do
  let wanted := wantedFor draws self.ressourceCapacity
  let gotCrystal := (← Planet.take planet .crystal wanted.crystal).toI
  let half := (wanted.crystal - gotCrystal) / 2
  let wantedOre := wanted.ore + half
  let gotOre := (← Planet.take planet .ore wantedOre).toI
  let wantedMoney := wanted.money + half + (wantedOre - gotOre)
  let gotMoney := (← Planet.take planet .money wantedMoney).toI
  let self : Fleet := { self with ore := gotOre, credit := gotMoney, crystal := gotCrystal }
  self.save
  return self

end Fight

namespace Fleet

open Fight

/-- `Fleet.where`, the rows read at once. -/
def select (test : FleetRow → Bool) : Act (List Fleet) := do
  let db ← get
  return (db.fleets.select test).filterMap fun id =>
    (db.fleets.get id).map fun row => { row.attributes with id }

/-- The fight for a planet; gives back the attacker unless it is destroyed. -/
def fight (w : World) (draws : Draws) (self : Fleet) (planet : PlanetId) :
    Act (Option Fleet) := do
  let defenderFleets ← select (Db.stationedAt planet)
  let defenderDefense := (defenderFleets.map fun fleet => fleet.defense).sum
  let fightFactor := self.offense - defenderDefense
  let rest := ((|fightFactor| : ℤ) : Numeric) * .float draws.rate
  if fightFactor < 0 then
    let ships ← defenderFleets.mapM getShips
    let lost ← orRaise (defenderLosses w ships rest draws.picks defenderDefense)
    (defenderFleets.zip lost).forM fun (fleet, lost) => do let _ ← fleet.destroyShips w lost
    self.destroy
    return none
  else if 0 < fightFactor then
    let ships ← self.getShips
    let lost ← orRaise (attackerLosses w ships rest draws.picks self.offense)
    let self ← self.destroyShips w lost
    defenderFleets.forM destroy
    self.save
    some <$> loot draws self planet
  else
    defenderFleets.forM destroy
    self.destroy
    return none

def attack (w : World) (draws : Draws) (self : Fleet) (planet : PlanetId) : Act Unit := do
  match (← get).relation self.user planet with
  | .unknown => self.returnToOrigin w planet
  | .own => self.returnToOrigin w planet
  | .allied => self.returnToOrigin w planet
  | .enemy =>
      match ← self.fight w draws planet with
      | none => return
      | some self => self.returnToOrigin w planet

end Fleet

end Mmog
