import Mmog.Model.Fight

/-!
# Battle reports

What an attack writes down: the ships of every fleet before the fight, what is
left of them after it, the loot and the winner.
-/

namespace Mmog

open Ruby

/-- The ships of one type in a fleet, before and after.
0: before, of a defender. 1: before, of the attacker. -/
structure Shipcount where
  user : UserId
  ship : ShipId
  amount : ℤ
  amountAfter : ℤ
  shipownerTimeType : ℕ
  deriving DecidableEq, Repr

structure Report where
  defenderPlanet : PlanetId
  defender : Option UserId
  attacker : UserId
  attackerPlanet : PlanetId
  fightdate : ℤ
  receivers : List UserId := []
  deriving DecidableEq, Repr

def Report.addReceiver (report : Report) (user : UserId) : Report :=
  if user ∈ report.receivers then report else { report with receivers := report.receivers ++ [user] }

structure Battlereport where
  report : Report
  mode : ℕ
  shipcounts : List Shipcount := []
  stolenOre : ℤ := 0
  stolenCrystal : ℤ := 0
  stolenSpaceCash : ℤ := 0
  winner : Option UserId := none
  deriving DecidableEq, Repr

namespace Battlereport

/-- Sets the amount afterwards in the first count of a user and a ship. -/
def setAmountAfter (user : UserId) (ship : ShipId) (amount : ℤ) : List Shipcount → Option (List Shipcount)
  | [] => none
  | count :: counts =>
      if count.user = user ∧ count.ship = ship then some ({ count with amountAfter := amount } :: counts)
      else (setAmountAfter user ship amount counts).map (count :: ·)

def addReceiver (self : Battlereport) (user : UserId) : Battlereport :=
  { self with report := self.report.addReceiver user }

/-- The body of the loop over the shipfleets; types above 1 are about the time after the fight. -/
def addShipfleet (fleet : Fleet) (type : ℕ) (self : Battlereport) (shipfleet : Shipfleet) : Act Battlereport :=
  if 1 < type then
    match setAmountAfter fleet.user shipfleet.shipId shipfleet.amount self.shipcounts with
    | some shipcounts => return { self with shipcounts }
    | none => throw .noMethodError
  else
    return { self with shipcounts := self.shipcounts ++ [⟨fleet.user, shipfleet.shipId, shipfleet.amount, 0, type⟩] }

def addFleetInfo (fleet : Option Fleet) (type : ℕ) (self : Battlereport) : Act Battlereport := do
  match fleet with
  | none => return self
  | some fleet =>
      -- `Shipfleet.where` finds nothing for a fleet that is gone
      let shipfleets := ((← get).fleets.get fleet.id).elim [] FleetRow.shipfleets
      shipfleets.foldlM (addShipfleet fleet type) self

def initBattlereport (defFleets : List Fleet) (atkFleet : Fleet) (mode : ℕ) : Act Battlereport := do
  let db ← get
  let report : Report :=
    { defenderPlanet := atkFleet.targetPlanet
      defender := (db.planets atkFleet.targetPlanet).user
      attacker := atkFleet.user
      attackerPlanet := atkFleet.startPlanet
      fightdate := atkFleet.arrivalTime }
  let start : Battlereport := { report, mode }
  let self ← defFleets.foldlM (fun (self : Battlereport) fleet => (self.addReceiver fleet.user).addFleetInfo (some fleet) 0) start
  (self.addReceiver atkFleet.user).addFleetInfo (some atkFleet) 1

def finishBattlereport (defFleets : List Fleet) (atkFleet : Option Fleet) (defended : Bool) (self : Battlereport) :
    Act Battlereport := do
  let self ← defFleets.foldlM (fun self fleet => self.addFleetInfo (some fleet) 2) self
  let self ← self.addFleetInfo atkFleet 3
  let stolen : Cargo := (atkFleet.map fun fleet => fleet.toCargo).getD ⟨0, 0, 0⟩
  return { self with
    stolenOre := stolen.ore
    stolenCrystal := stolen.crystal
    stolenSpaceCash := stolen.credit
    winner := if defended then self.report.defender else some self.report.attacker }

end Battlereport

namespace Fleet

open Fight Battlereport

/-- `fight` with the report that `attack` has begun. -/
def fightReported (w : World) (draws : Draws) (self : Fleet) (planet : PlanetId) (report : Battlereport) :
    Act (Option Fleet × Battlereport) := do
  let defenderFleets ← select (Db.stationedAt planet)
  let defenderDefense := (defenderFleets.map fun fleet => fleet.defense).sum
  let fightFactor := self.offense - defenderDefense
  let rest := ((|fightFactor| : ℤ) : Numeric) * .float draws.rate
  if fightFactor < 0 then
    let ships ← defenderFleets.mapM getShips
    let lost ← orRaise (defenderLosses w ships rest draws.picks defenderDefense)
    (defenderFleets.zip lost).forM fun (fleet, lost) => do let _ ← fleet.destroyShips w lost
    let report ← report.finishBattlereport defenderFleets none true
    self.destroy
    return (none, report)
  else if 0 < fightFactor then
    let ships ← self.getShips
    let lost ← orRaise (attackerLosses w ships rest draws.picks self.offense)
    let self ← self.destroyShips w lost
    defenderFleets.forM destroy
    self.save
    let self ← loot draws self planet
    let report ← report.finishBattlereport [] (some self) false
    return (some self, report)
  else
    let report ← report.finishBattlereport [] none true
    defenderFleets.forM destroy
    self.destroy
    return (none, report)

/-- `attack` until the fleet that is left returns, with the report that it saves. -/
def attackReported (w : World) (draws : Draws) (self : Fleet) (planet : PlanetId) :
    Act (Option Fleet × Battlereport) := do
  -- nobody fights back on an unknown, an own or an allied planet
  let peaceful (mode : ℕ) : Act (Option Fleet × Battlereport) := do
    let report ← initBattlereport [] self mode
    let report ← report.finishBattlereport [] (some self) false
    return (some self, report)
  match (← get).relation self.user planet with
  | .unknown => peaceful 3
  | .own => peaceful 5
  | .allied => peaceful 4
  | .enemy =>
      let enemyFleets ← select (Db.stationedAt planet)
      let report ← initBattlereport enemyFleets self 0
      self.fightReported w draws planet report

/-- All of `attack`. -/
def attackAndReturn (w : World) (draws : Draws) (self : Fleet) (planet : PlanetId) : Act Unit := do
  let (left, _) ← self.attackReported w draws planet
  match left with
  | none => return
  | some self => self.returnToOrigin w planet

end Fleet

end Mmog
