import Mmog.Model.Rules

/-!
# The shipyard

An order takes the price of all its ships and queues an entry and an `AddShip`
job for each ship, one after another behind the planet's last entry.  Removing
an entry moves the later ones forward and pays the ship back.
-/

namespace Mmog

open Ruby Game

namespace ShipBuildingQueue

/-- The arguments of the entry's job. -/
def job (q : ShipBuildingQueue) : AddShip := ⟨q.ship, q.planet, q.qid⟩

/-- What an order costs of the resource with this price. -/
def cost (price : ShipId → ℕ) (s : Hash ShipId ℤ) : ℤ := s.sum fun ship value => price ship * value

/-- The entries for a number of ships of one type, each built after the one before. -/
def entriesFor (rules : Rules) (ship : ShipId) (planet : PlanetId) :
    ℕ → ℤ → ℕ → List ShipBuildingQueue
  | 0, _, _ => []
  | n + 1, plus, qid =>
      let q : ShipBuildingQueue := ⟨ship, planet, rules.constructionTime ship + plus, qid⟩
      q :: entriesFor rules ship planet n q.endTime (qid + 1)

/-- The first free qid and the time from which a planet's next ship is built. -/
def nextSlot (game : Game) (planet : PlanetId) : ℕ × ℤ :=
  match game.queue.last fun _ => true with
  | none => (0, game.db.now)
  | some (_, lastQ) =>
      (lastQ.qid + 1,
        match game.queue.last fun q => q.planet = planet with
        | none => game.db.now
        | some (_, plus) => plus.endTime)

/-- Enqueues the jobs of new entries and saves them. -/
def append (game : Game) (entries : List ShipBuildingQueue) : Game :=
  { game with
    addShips := entries.foldl (fun b q => b.enqueueAt q.endTime q.job) game.addShips
    queue := entries.foldl Table.create game.queue }

/-- Queues the ships of one type of an order. -/
def insertShips (rules : Rules) (planet : PlanetId) (ship : ShipId) (value : ℤ) : GameAct Unit := do
  let game ← get
  let (qid, plus) := nextSlot game planet
  set (append game (entriesFor rules ship planet value.toNat plus qid))

def insertAll (rules : Rules) (planet : PlanetId) : List (ShipId × ℤ) → GameAct Unit
  | [] => return
  | (ship, value) :: rest => do
      insertShips rules planet ship value
      insertAll rules planet rest

def insert (rules : Rules) (s : Hash ShipId ℤ) (planet : PlanetId) : GameAct Bool := do
  let oreCost := cost (fun ship => (rules.ship ship).oreCost) s
  let crystalCost := cost (fun ship => (rules.ship ship).crystalCost) s
  let creditCost := cost (fun ship => (rules.ship ship).creditCost) s
  let crewCapacity := cost rules.crewCapacity s
  let o ← onDb (Planet.take planet .ore oreCost)
  let c ← onDb (Planet.take planet .crystal crystalCost)
  let m ← onDb (Planet.take planet .money creditCost)
  let crew ← onDb (Planet.take planet .population crewCapacity)
  if o = .int oreCost ∧ m = .int creditCost ∧ c = .int crystalCost ∧ crew = .int crewCapacity then
    insertAll rules planet s.entries
    return true
  else
    let _ ← onDb (Planet.give planet .ore o)
    let _ ← onDb (Planet.give planet .crystal c)
    let _ ← onDb (Planet.give planet .money m)
    let _ ← onDb (Planet.give planet .population crew)
    return false

/-- The entries of the planet that end after `t`. -/
def endsAfter (planet : PlanetId) (t : ℤ) (q : ShipBuildingQueue) : Bool :=
  q.planet = planet ∧ t < q.endTime

/-- Moves the jobs and the rows of the entries that end after `t` forward by `b` seconds. -/
def updateTime (t : ℤ) (planet : PlanetId) (b : ℤ) : GameAct Unit := do
  let game ← get
  let queue := (game.queue.rows.map Prod.snd).filter (endsAfter planet t)
  let reschedule (addShips : Backlog AddShip) (q : ShipBuildingQueue) :=
    (addShips.removeDelayed q.job).enqueueAt (q.endTime - b) q.job
  set { game with
    addShips := queue.foldl reschedule game.addShips
    queue := game.queue.mapRows fun q =>
      if endsAfter planet t q then { q with endTime := q.endTime - b } else q }

def removeQueue (rules : Rules) (id : ℕ) : GameAct Unit := do
  let game ← get
  match game.queue.get id with
  | none => throw .recordNotFound
  | some self =>
      modify fun game => { game with addShips := game.addShips.removeDelayed self.job }
      let delShipType := rules.ship self.ship
      updateTime self.endTime self.planet (self.endTime - game.db.now)
      let _ ← onDb (Planet.give self.planet .ore (delShipType.oreCost : ℤ))
      let _ ← onDb (Planet.give self.planet .crystal (delShipType.crystalCost : ℤ))
      -- money comes back by the price in crystal
      let _ ← onDb (Planet.give self.planet .money (delShipType.crystalCost : ℤ))
      let _ ← onDb (Planet.give self.planet .population (rules.crewCapacity self.ship : ℤ))
      modify fun game => { game with queue := game.queue.destroy id }

end ShipBuildingQueue

/-- Delivers the ship and drops the entry with the job's qid. -/
def AddShip.perform (rules : Rules) (job : AddShip) : GameAct Unit := do
  onDb (Fleet.addShipToPlanet rules.toWorld job.ship job.planet)
  modify fun game =>
    match game.queue.last fun q => q.qid = job.qid with
    | some (id, _) => { game with queue := game.queue.destroy id }
    | none => game

end Mmog
