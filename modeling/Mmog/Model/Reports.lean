import Mmog.Model.Battlereport
import Mmog.Ruby.Run

/-!
# Reports

The reports of the missions that do not fight, and the receiving reports, which
say who can read a report and whether he has.  A mission saves its report
somewhere on its way; what follows does not touch the report any more.
-/

namespace Mmog

open Ruby

/-- `receivers << user`, whether the user is there or not. -/
def Report.push (report : Report) (user : UserId) : Report :=
  { report with receivers := report.receivers ++ [user] }

/-- The columns that every report takes from the planet and the fleet. -/
def Report.about (db : Db) (planet : PlanetId) (fleet : Fleet) : Report where
  defenderPlanet := planet
  defender := (db.planets planet).user
  attacker := fleet.user
  attackerPlanet := fleet.startPlanet
  fightdate := fleet.arrivalTime

/-- A shipcount of which only these columns are set. -/
structure Sighting where
  user : UserId
  ship : ShipId
  amount : ℤ
  deriving DecidableEq, Repr

def Fleet.sightings (self : Fleet) : Act (List Sighting) :=
  return (← self.shipfleets).map fun row => ⟨self.user, row.shipId, row.amount⟩

/-! ## The four kinds

Modes 0 to 3: of an enemy, of nobody, of a member of the alliance, of the user himself. -/

structure Tradereport where
  report : Report
  mode : ℕ
  ore : ℤ
  crystal : ℤ
  spaceCash : ℤ
  deriving DecidableEq, Repr

def finishTradereport (fleet : Fleet) (planet : PlanetId) (mode : ℕ) : Act Tradereport := do
  let report := Report.about (← get) planet fleet
  let report := report.defender.elim report report.push
  let report := report.push fleet.user
  return { report, mode, ore := fleet.ore, crystal := fleet.crystal, spaceCash := fleet.credit }

structure Colonisationreport where
  report : Report
  mode : ℕ
  deriving DecidableEq, Repr

def finishColonisationreport (planet : PlanetId) (fleet : Fleet) (mode : ℕ) : Act Colonisationreport := do
  let report := Report.about (← get) planet fleet
  let report := report.defender.elim report report.push
  let report := report.push fleet.user
  return { report, mode }

structure Travelreport where
  report : Report
  mode : ℕ
  shipcounts : List Sighting
  deriving DecidableEq, Repr

def finishTravelreport (planet : PlanetId) (fleet : Fleet) (mode : ℕ) : Act Travelreport := do
  let report := Report.about (← get) planet fleet
  let report := report.defender.elim report report.addReceiver
  let report := report.addReceiver fleet.user
  return { report, mode, shipcounts := ← fleet.sightings }

/-! ## Spy reports -/

/-- A row of the technologies that users know. -/
structure UserTechnology where
  user : UserId
  technology : ℕ
  rank : ℕ
  deriving DecidableEq

theorem one_mem_levelRate : Binary64.round (3 / 5) ≤ 1 ∧ 1 ≤ Binary64.round (11 / 10) := by decide +kernel

/-- `rand 0.6..1.1`; neither bound is a binary fraction. -/
structure LevelDraw where
  rate : ℚ := 1
  rate_mem : Binary64.round (3 / 5) ≤ rate ∧ rate ≤ Binary64.round (11 / 10) := by exact one_mem_levelRate

structure Resources where
  energy : ℤ
  maxenergy : ℤ
  population : ℤ
  maxpopulation : ℤ
  ore : ℤ
  maxore : ℤ
  crystal : ℤ
  maxcrystal : ℤ
  spaceCash : Option ℤ
  deriving DecidableEq, Repr

/-- Mode 4 says that the drone was destroyed. -/
structure Spyreport where
  report : Report
  mode : ℕ
  spylevel : ℕ
  resources : Option Resources := none
  buildingtypes : List ℕ := []
  shipcounts : List Sighting := []
  techstages : List (ℕ × ℕ) := []
  deriving DecidableEq, Repr

namespace Spyreport

def spylevelOf (tmp : Numeric) : ℕ :=
  if Numeric.lit (7 / 10) < tmp then 4
  else if Numeric.lit (1 / 2) < tmp then 3
  else if Numeric.lit (3 / 10) < tmp then 2
  else if Numeric.lit (1 / 20) < tmp then 1
  else 0

def calcSpylevel (draw : LevelDraw) (atkSpyFactor defSpyFactor : ℚ) : ℕ :=
  let tmp : Numeric := .float atkSpyFactor - .float defSpyFactor
  let tmp := tmp * .float draw.rate
  let tmp := (tmp + 1) * .lit (1 / 2)
  spylevelOf tmp

/-- What the planet and its owner have. -/
def resourcesOf (db : Db) (planet : PlanetId) : Resources :=
  let stock := db.planets planet
  { energy := stock.energy, maxenergy := stock.maxenergy
    population := stock.population, maxpopulation := stock.maxpopulation
    ore := stock.ore, maxore := stock.maxore
    crystal := stock.crystal, maxcrystal := stock.maxcrystal
    spaceCash := stock.user.map fun user => (db.users user).money }

def addResources (planet : PlanetId) (self : Spyreport) : Act Spyreport :=
  return { self with resources := some (resourcesOf (← get) planet) }

def addBuildings (self : Spyreport) : Act Spyreport := do
  let buildings := (← get).buildings.filter fun building => building.planet = self.report.defenderPlanet
  return { self with buildingtypes := self.buildingtypes ++ buildings.map Building.buildingtype }

def addShips (self : Spyreport) : Act Spyreport := do
  let fleets ← Fleet.select (Db.stationedAt self.report.defenderPlanet)
  fleets.foldlM (fun (self : Spyreport) fleet => do
    return { self with shipcounts := self.shipcounts ++ (← fleet.sightings) }) self

def addTech (known : List UserTechnology) (self : Spyreport) : Act Spyreport :=
  let techs := known.filter fun tech => self.report.defender = some tech.user
  return { self with techstages := self.techstages ++ techs.map fun tech => (tech.technology, tech.rank) }

/-- `unless spylevel < level`. -/
def unlessBelow (level : ℕ) (collect : Spyreport → Act Spyreport) (self : Spyreport) : Act Spyreport :=
  if self.spylevel < level then return self else collect self

def finishSpyreport (known : List UserTechnology) (draw : LevelDraw) (planet : PlanetId) (fleet : Fleet)
    (atkSpyFactor defSpyFactor : ℚ) (mode : ℕ) : Act Spyreport := do
  let db ← get
  let report := Report.about db planet fleet
  let report := if mode = 4 then report.defender.elim report report.addReceiver else report
  let self : Spyreport :=
    { report := report.addReceiver fleet.user, mode, spylevel := calcSpylevel draw atkSpyFactor defSpyFactor }
  if mode < 2 then
    let self ← self.unlessBelow 1 (addResources planet)
    if mode < 1 then
      let self ← self.unlessBelow 2 addBuildings
      let self ← self.unlessBelow 4 addShips
      if self.report.defender = none then return self else self.unlessBelow 3 (addTech known)
    else return self
  else return self

end Spyreport

/-! ## What the missions report -/

namespace Fleet

/-- The report of `travel`, which comes before the rest. -/
def travelReported (self : Fleet) (planet : PlanetId) : Act Travelreport := do
  match (← get).relation self.user planet with
  | .unknown => finishTravelreport planet self 1
  | .own => finishTravelreport planet self 3
  | .allied => finishTravelreport planet self 2
  | .enemy => finishTravelreport planet self 0

/-- `transport` until its report, with the fleet that then flies back. -/
def transportReported (self : Fleet) (planet : PlanetId) : Act (Fleet × Tradereport) := do
  match (← get).relation self.user planet with
  | .unknown => return (self, ← finishTradereport self planet 1)
  | .own =>
      let self ← self.unloadRessources planet
      return (self, ← finishTradereport self planet 3)
  | .allied =>
      let self ← self.unloadRessources planet
      return (self, ← finishTradereport self planet 2)
  | .enemy => return (self, ← finishTradereport self planet 0)

/-- `colonize`, which reports at its end; the fleet is then as it was saved last. -/
def colonizeReported (w : World) (self : Fleet) (planet : PlanetId) : Act Colonisationreport := do
  let relation := (← get).relation self.user planet
  self.colonize w planet
  let self ← find self.id
  match relation with
  | .unknown => finishColonisationreport planet self 1
  | .own => finishColonisationreport planet self 3
  | .allied => finishColonisationreport planet self 2
  | .enemy => finishColonisationreport planet self 0

/-- `spy` until its report; a drone that does not return is destroyed only afterwards. -/
def spyReported (w : World) (known : List UserTechnology) (r : ℚ) (draw : LevelDraw) (self : Fleet)
    (ownSpyFactor : Factor) (planet : PlanetId) : Act Spyreport := do
  let back (factor : ℚ) (type : ℕ) : Act Spyreport := do
    self.returnToOrigin w planet
    Spyreport.finishSpyreport known draw planet (← find self.id) ownSpyFactor factor type
  let db ← get
  match db.relation self.user planet with
  | .unknown => back 0 1
  | .own => back 0 3
  | .allied => back 0 2
  | .enemy =>
      match (db.planets planet).user with
      | none => throw .noMethodError
      | some owner =>
          let factor := (db.users owner).userSetting.increasedSpypower
          if Numeric.float ownSpyFactor - .float r < Numeric.lit (4 / 5) then
            Spyreport.finishSpyreport known draw planet self ownSpyFactor factor 4
          else back factor 0

end Fleet

inductive Reportable where
  | battle (report : Battlereport)
  | spy (report : Spyreport)
  | colonisation (report : Colonisationreport)
  | trade (report : Tradereport)
  | travel (report : Travelreport)

/-- `reportable.report`. -/
def Reportable.report : Reportable → Report
  | .battle report => report.report
  | .spy report => report.report
  | .colonisation report => report.report
  | .trade report => report.report
  | .travel report => report.report

/-- The draws of a mission that reports. -/
structure ReportDraws where
  draws : Draws := {}
  level : LevelDraw := {}

/-- A fleet's job until its report is saved. -/
def Job.report (w : World) (known : List UserTechnology) (draws : ReportDraws) : Job → Option (Act Reportable)
  | .attackPlanet fleet planet => some do
      return .battle (← (← Fleet.find fleet).attackReported w draws.draws planet).2
  | .colonizePlanet fleet planet => some do
      return .colonisation (← (← Fleet.find fleet).colonizeReported w planet)
  | .travelToPlanet fleet planet => some do
      return .travel (← (← Fleet.find fleet).travelReported planet)
  | .spyPlanet fleet planet factor => some do
      return .spy (← (← Fleet.find fleet).spyReported w known draws.draws.spyRate draws.level factor planet)
  | .transportToPlanet fleet planet => some do
      return .trade (← (← Fleet.find fleet).transportReported planet).2
  | .returnToOrigin _ => none
  | .buildBuildings _ _ => none
  | .produceResources _ => none

/-! ## Receiving reports -/

abbrev ReportId := ℕ

structure ReceivingReport where
  report : ReportId
  user : UserId
  read : Bool := false
  deriving DecidableEq, Repr

/-- `update_attribute :read, true`. -/
def ReceivingReport.setRead (row : ReceivingReport) : ReceivingReport := { row with read := true }

/-- The saved reports and the rows of their receivers, oldest first. -/
structure Post where
  reports : Table Reportable := Table.empty
  receivingReports : List ReceivingReport := []

namespace Post

/-- Saves a report with one row for each entry of its receivers. -/
def file (post : Post) (reportable : Reportable) : Post where
  reports := post.reports.create reportable
  receivingReports := post.receivingReports ++
    reportable.report.receivers.map fun user => { report := post.reports.nextId, user }

/-- `where(user_id: user, report_id: id)`. -/
def isFor (id : ReportId) (user : UserId) (row : ReceivingReport) : Bool := row.report = id ∧ row.user = user

/-- The number of rows that the join with the reports finds. -/
def unreadReports (post : Post) (user : UserId) : ℕ :=
  post.receivingReports.countP fun row =>
    (post.reports.get row.report).isSome ∧ row.user = user ∧ row.read = false

/-- The reports that `index` lists for a user, one for each row. -/
def index (post : Post) (user : UserId) : List ReportId :=
  (post.receivingReports.filter fun row => (post.reports.get row.report).isSome ∧ row.user = user).map
    ReceivingReport.report

/-- Changes the first of the rows with a property. -/
def updateFirst (p : ReceivingReport → Bool) (change : ReceivingReport → ReceivingReport) :
    List ReceivingReport → List ReceivingReport
  | [] => []
  | row :: rows => if p row then change row :: rows else row :: updateFirst p change rows

/-- The user's first row for a report is read, if he is a receiver. -/
def showReport (post : Post) (user : UserId) (id : ReportId) : Post :=
  match post.reports.get id with
  | none => post
  | some _ => { post with
      receivingReports := updateFirst (isFor id user) ReceivingReport.setRead post.receivingReports }

/-- The first row goes, and the report with its last row. -/
def destroyReceiver (post : Post) (user : UserId) (id : ReportId) : Post :=
  match post.reports.get id with
  | none => post
  | some _ =>
      if post.receivingReports.any (isFor id user) then
        let rows := post.receivingReports.eraseP (isFor id user)
        if rows.any fun row => row.report = id then { post with receivingReports := rows }
        else { reports := post.reports.destroy id, receivingReports := rows }
      else post

end Post

/-! ## The game with its post -/

structure Office where
  db : Db
  post : Post

inductive PostEvent where
  /-- Anything that does not report, also what a mission does after its report. -/
  | play (action : Act Unit)
  | mission (known : List UserTechnology) (draws : ReportDraws) (job : Job)
  | showReport (user : UserId) (id : ReportId)
  | destroyReport (user : UserId) (id : ReportId)

namespace Office

/-- A mission that raises before it saves its report reports nothing. -/
def deliver (post : Post) : EStateM.Result Err Db Reportable → Office
  | .ok reportable db => ⟨db, post.file reportable⟩
  | .error _ db => ⟨db, post⟩

def step (w : World) (office : Office) : PostEvent → Option Office
  | .play action => some { office with db := Action.after (action.run office.db) }
  | .mission known draws job =>
      (job.report w known draws).map fun action => deliver office.post (action.run office.db)
  | .showReport user id => some { office with post := office.post.showReport user id }
  | .destroyReport user id => some { office with post := office.post.destroyReceiver user id }

end Office

end Mmog
