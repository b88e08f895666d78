import Mmog.Model.Universe
import Mmog.Ruby.Safe

/-!
# What fleets, the shipyard and research leave alone

Fleets write the fleet table, the stocks of planets, the money of users and
their own jobs, and so do the shipyard and research, which also write the
settings of users.  An invariant that does not depend on these is kept by all
of them, except that a colonising fleet claims a planet.
-/

namespace Mmog

open Ruby Action

/-! ## Reading -/

namespace Fleet

variable {I : Db → Prop}

theorem find_safe (id : FleetId) : Safe I (find id) anything := by
  refine Safe.get.bind fun db _ => ?_
  cases db.fleets.get id with
  | none => exact Safe.throw _ _
  | some row => exact Safe.pure trivial

theorem shipfleets_safe (self : Fleet) : Safe I self.shipfleets anything :=
  Safe.get.bind fun _ _ => Safe.pure trivial

theorem getHomeFleet_safe (planet : PlanetId) : Safe I (getHomeFleet planet) anything := by
  refine Safe.get.bind fun db _ => ?_
  cases db.fleets.first (Db.basedAt planet) with
  | none => exact Safe.pure trivial
  | some id => exact (find_safe id).mapSome.forget

theorem ships_safe (self : Fleet) : Safe I self.ships anything :=
  (shipfleets_safe self).bind fun _ _ => Safe.pure trivial

theorem getShipsOf_safe (types : List ShipId) (self : Fleet) :
    Safe I (getShipsOf types self) anything := by
  refine (shipfleets_safe self).bind fun rows _ => ?_
  cases collectShips rows types with
  | none => exact Safe.throw _ _
  | some ships => exact Safe.pure trivial

theorem getShips_safe (self : Fleet) : Safe I self.getShips anything :=
  (ships_safe self).bind fun types _ => getShipsOf_safe types self

theorem getVelocity_safe (w : World) (self : Fleet) : Safe I (self.getVelocity w) anything := by
  refine (shipfleets_safe self).bind fun rows _ => ?_
  split
  · exact Safe.pure trivial
  · exact Safe.throw _ _

/-- The fuel is a sum, and so it is rounded. -/
theorem getNeededFuelAll_safe (w : World) (self : Fleet) (time : Numeric) :
    Safe I (self.getNeededFuelAll w time) Numeric.Rounded := by
  refine (getShips_safe self).bind fun ships _ => Safe.pure ?_
  refine List.foldlRecOn ships.entries _ (motive := Numeric.Rounded) trivial fun fuel _ entry _ => ?_
  exact Numeric.rounded_add _ _

theorem flight_safe (w : World) (self : Fleet) (distance : Numeric) :
    Safe I (self.flight w distance) fun needs => needs.2.Rounded := by
  refine (getVelocity_safe w self).bind fun velocity _ => ?_
  exact (getNeededFuelAll_safe w self _).bind fun _ henergy => Safe.pure henergy

end Fleet

/-- Queuing entries changes neither planets nor fleets. -/
theorem ShipBuildingQueue.insertAll_safe {I : Db → Prop} (rules : Rules) (planet : PlanetId)
    (entries : List (ShipId × ℤ)) :
    Safe (fun game : Game => I game.db) (insertAll rules planet entries) anything := by
  induction entries with
  | nil => exact Safe.pure trivial
  | cons entry entries ih =>
      refine Safe.bind (φ := anything) (Safe.get.bind fun game hgame => ?_) fun _ _ => ih
      exact Safe.set hgame

theorem Technology.findRow_safe {I : Game → Prop} (rules : Rules) (id : TechnologyId) :
    Safe I (findRow rules id) anything := by
  unfold findRow
  split
  · exact Safe.pure trivial
  · exact Safe.throw _ _

/-! ## Writing -/

/-- An invariant that does not depend on what fleets, the shipyard and research write, except
that it may depend on a planet's energy if spending and charging it are no harm. -/
structure FleetFrame (I : Db → Prop) : Prop where
  fleets : ∀ {db : Db} (t : Table FleetRow), I db → I (db.setFleets t)
  stock : ∀ {db : Db} (p : PlanetId) {type : Resource} (n : ℤ), type ≠ .energy → I db →
    I (db.setPlanet p ((db.planets p).setStock type n))
  spend : ∀ {db : Db} (p : PlanetId) {number : Numeric}, number.Rounded → ¬ number ≤ 0 → I db →
    I (db.setPlanet p ((db.planets p).setStock .energy (Planet.taken (db.planets p).energy number).1))
  charge : ∀ {db : Db} (p : PlanetId) {number : Numeric}, ¬ number ≤ 0 → I db →
    I (db.setPlanet p ((db.planets p).setStock .energy
      (Planet.given (db.planets p).energy (db.planets p).maxenergy number number).1))
  money : ∀ {db : Db} (u : UserId) (n : ℤ), I db → I (db.setMoney u n)
  setting : ∀ {db : Db} (u : UserId) (setting : UserSetting), I db → I (db.setUserSetting u setting)
  enqueue : ∀ {db : Db} (timestamp : ℤ) {job : Job} {fleet : FleetId}, job.fleet? = some fleet →
    I db → I { db with delayed := db.delayed ++ [⟨timestamp, job⟩] }
  remove : ∀ {db : Db} {job : Job} {fleet : FleetId}, job.fleet? = some fleet →
    I db → I { db with delayed := db.delayed.filter fun entry => entry.job ≠ job }

namespace FleetFrame

variable {I : Db → Prop} (hframe : FleetFrame I) (w : World)

include hframe

/-! ## Stocks and jobs -/

theorem take (p : PlanetId) (type : Resource) {number : Numeric}
    (hrounded : type = .energy → number.Rounded) : Safe I (Planet.take p type number) anything := by
  intro db hdb
  refine ⟨?_, fun _ _ => trivial⟩
  unfold Planet.take
  by_cases hnumber : number ≤ 0
  · rw [if_pos hnumber]
    exact hdb
  · rw [if_neg hnumber, run_bind_get]
    cases type with
    | other => exact hdb
    | money =>
        cases huser : (db.planets p).user with
        | none => exact hdb
        | some u => exact hframe.money u _ hdb
    | ore => exact hframe.stock p _ (by decide) hdb
    | crystal => exact hframe.stock p _ (by decide) hdb
    | population => exact hframe.stock p _ (by decide) hdb
    | energy => exact hframe.spend p (hrounded rfl) hnumber hdb

theorem give (p : PlanetId) (type : Resource) (number : Numeric) :
    Safe I (Planet.give p type number) anything := by
  intro db hdb
  refine ⟨?_, fun _ _ => trivial⟩
  unfold Planet.give
  by_cases hnumber : number ≤ 0
  · rw [if_pos hnumber]
    exact hdb
  · rw [if_neg hnumber, run_bind_get]
    cases type with
    | other => exact hdb
    | money =>
        cases huser : (db.planets p).user with
        | none => exact hdb
        | some u => exact hframe.money u _ hdb
    | ore => exact hframe.stock p _ (by decide) hdb
    | crystal => exact hframe.stock p _ (by decide) hdb
    | population => exact hframe.stock p _ (by decide) hdb
    | energy => exact hframe.charge p hnumber hdb

theorem enqueueAt (timestamp : ℤ) {job : Job} {fleet : FleetId} (hjob : job.fleet? = some fleet) :
    Safe I (Resque.enqueueAt timestamp job) anything :=
  Safe.modify fun _ hdb => hframe.enqueue timestamp hjob hdb

theorem removeDelayed {job : Job} {fleet : FleetId} (hjob : job.fleet? = some fleet) :
    Safe I (Resque.removeDelayed job) anything :=
  Safe.modify fun _ hdb => hframe.remove hjob hdb

/-! ## Rows -/

theorem save (self : Fleet) : Safe I self.save anything :=
  Safe.modify fun _ hdb => hframe.fleets _ hdb

theorem destroy (self : Fleet) : Safe I self.destroy anything :=
  Safe.modify fun _ hdb => hframe.fleets _ hdb

theorem writeShipfleets (self : Fleet) (change : List Shipfleet → List Shipfleet) :
    Safe I (self.writeShipfleets change) anything :=
  Safe.modify fun _ hdb => hframe.fleets _ hdb

theorem new (planet : PlanetId) : Safe I (Fleet.new planet) anything := by
  refine Safe.get.bind fun db _ => ?_
  cases (db.planets planet).user with
  | none => exact Safe.throw _ _
  | some user => exact (Safe.modify fun _ hdb => hframe.fleets _ hdb).bind fun _ _ => Safe.pure trivial

/-! ## Ships -/

theorem updateValuesOf (types : List ShipId) (self : Fleet) :
    Safe I (Fleet.updateValuesOf w types self) anything := by
  refine (Fleet.getShipsOf_safe types self).bind fun ships _ => Safe.get.bind fun db _ => ?_
  exact (hframe.save _).bind fun _ _ => Safe.pure trivial

theorem updateValues (self : Fleet) : Safe I (self.updateValues w) anything :=
  (Fleet.ships_safe self).bind fun types _ => hframe.updateValuesOf w types self

theorem addToRows (self : Fleet) (entries : List (ShipId × ℤ)) (newShips : Hash ShipId ℤ) :
    Safe I (self.addToRows entries newShips) anything := by
  induction entries generalizing newShips with
  | nil => exact Safe.pure trivial
  | cons entry entries ih =>
      refine (Fleet.ships_safe self).bind fun types _ => Safe.ite (fun _ => ?_) fun _ => ih _
      exact (hframe.writeShipfleets self _).bind fun _ _ => ih _

theorem addRows (self : Fleet) (entries : List (ShipId × ℤ)) : Safe I (self.addRows entries) anything := by
  induction entries with
  | nil => exact Safe.pure trivial
  | cons entry entries ih =>
      refine (hframe.writeShipfleets self _).bind fun _ _ => ?_
      exact (hframe.writeShipfleets self _).bind fun _ _ => ih

theorem addShips (self : Fleet) (shipHash : Hash ShipId ℤ) :
    Safe I (self.addShips w shipHash) anything := by
  refine Safe.ite (fun _ => Safe.throw_bind _ _ _) fun _ => ?_
  refine (hframe.addToRows self _ _).bind fun newShips _ => ?_
  exact (hframe.addRows self _).bind fun _ _ => hframe.updateValues w self

theorem takeFromRows (self : Fleet) (entries : List (ShipId × ℤ)) :
    Safe I (self.takeFromRows entries) anything := by
  induction entries with
  | nil => exact Safe.pure trivial
  | cons entry entries ih => exact (hframe.writeShipfleets self _).bind fun _ _ => ih

theorem destroyShips (self : Fleet) (shipHash : Hash ShipId ℤ) :
    Safe I (self.destroyShips w shipHash) anything := by
  refine (Fleet.shipfleets_safe self).bind fun rows _ => ?_
  refine Safe.ite (fun _ => Safe.throw_bind _ _ _) fun _ => ?_
  exact (hframe.takeFromRows self _).bind fun _ _ => hframe.updateValues w self

theorem splitFleet (self : Fleet) (shipHash : Hash ShipId ℤ) :
    Safe I (self.splitFleet w shipHash) anything := by
  refine (Fleet.shipfleets_safe self).bind fun rows _ => ?_
  refine Safe.ite (fun _ => Safe.throw_bind _ _ _) fun _ => ?_
  refine (hframe.updateValues w self).bind fun old _ => (hframe.new _).bind fun created _ => ?_
  refine (hframe.save created).bind fun _ _ => ?_
  refine (hframe.addShips w created shipHash).bind fun leaving _ => ?_
  refine (hframe.destroyShips w old shipHash).bind fun staying _ => ?_
  refine Safe.ite (fun _ => ?_) fun _ => Safe.pure trivial
  exact Safe.ite (fun _ => Safe.throw_bind _ _ _) fun _ => Safe.pure trivial

theorem mergeFleet (self : Fleet) (fleet : Option Fleet) :
    Safe I (self.mergeFleet w fleet) anything := by
  cases fleet with
  | none => exact Safe.throw _ _
  | some fleet =>
      refine (Fleet.getShips_safe fleet).bind fun shipHash _ => ?_
      refine (hframe.addShips w _ shipHash).bind fun merged _ => ?_
      refine (Fleet.ships_safe merged).bind fun types _ => ?_
      exact (hframe.destroy fleet).bind fun _ _ => hframe.updateValuesOf w types merged

theorem addShipToPlanet (ship : ShipId) (planet : PlanetId) :
    Safe I (Fleet.addShipToPlanet w ship planet) anything := by
  refine (Fleet.getHomeFleet_safe planet).bind fun found _ => ?_
  cases found with
  | some fleet => exact (hframe.addShips w fleet _).bind fun _ _ => Safe.pure trivial
  | none =>
      refine (hframe.new planet).bind fun fleet _ => ?_
      exact (hframe.addShips w fleet _).bind fun valued _ => hframe.save valued

/-! ## Cargo -/

theorem loadRessources (self : Fleet) (ore crystal credit : ℤ) (planet : PlanetId) :
    Safe I (self.loadRessources ore crystal credit planet) anything := by
  refine Safe.ite (fun _ => Safe.throw_bind _ _ _) fun _ => ?_
  refine (hframe.take planet .ore nofun).bind fun gotOre _ => ?_
  refine (hframe.take planet .crystal nofun).bind fun gotCrystal _ => ?_
  refine (hframe.take planet .money nofun).bind fun gotCredit _ => ?_
  exact (hframe.save _).bind fun _ _ => Safe.pure trivial

theorem unloadRessources (self : Fleet) (planet : PlanetId) :
    Safe I (self.unloadRessources planet) anything := by
  refine (hframe.give planet .ore _).bind fun backOre _ => ?_
  refine (hframe.give planet .crystal _).bind fun backCrystal _ => ?_
  refine (hframe.give planet .money _).bind fun backCredit _ => ?_
  exact (hframe.save _).bind fun _ _ => Safe.pure trivial

/-! ## Departure and return -/

theorem attackPlanetIn (self : Fleet) (time : ℤ) (planet : PlanetId) :
    Safe I (self.attackPlanetIn time planet) anything :=
  Safe.ite (fun _ => Safe.throw_bind _ _ _) fun _ => hframe.enqueueAt _ rfl

theorem travelToPlanetIn (self : Fleet) (time : ℤ) (planet : PlanetId) :
    Safe I (self.travelToPlanetIn time planet) anything :=
  Safe.ite (fun _ => Safe.throw_bind _ _ _) fun _ => hframe.enqueueAt _ rfl

theorem transportToPlanetIn (self : Fleet) (time : ℤ) (planet : PlanetId) :
    Safe I (self.transportToPlanetIn time planet) anything :=
  Safe.ite (fun _ => Safe.throw_bind _ _ _) fun _ => hframe.enqueueAt _ rfl

theorem spyPlanetIn (self : Fleet) (time : ℤ) (planet : PlanetId) :
    Safe I (self.spyPlanetIn time planet) anything := by
  refine (Fleet.getShips_safe self).bind fun ships _ => ?_
  refine Safe.ite (fun _ => Safe.throw_bind _ _ _) fun _ => ?_
  refine Safe.ite (fun _ => Safe.throw_bind _ _ _) fun _ => ?_
  exact Safe.get.bind fun db _ => hframe.enqueueAt _ rfl

theorem colonizePlanetIn (self : Fleet) (time : ℤ) (planet : PlanetId) :
    Safe I (self.colonizePlanetIn w time planet) anything := by
  refine (Fleet.getShips_safe self).bind fun ships _ => ?_
  refine Safe.ite (fun _ => Safe.throw_bind _ _ _) fun _ => ?_
  refine Safe.ite (fun _ => Safe.throw_bind _ _ _) fun _ => ?_
  exact (hframe.loadRessources self _ _ _ _).bind fun _ _ => hframe.enqueueAt _ rfl

theorem depart (self fleet : Fleet) (mission : MissionId) {energy : Numeric} (henergy : energy.Rounded)
    {prepare : Fleet → Act Fleet} {enqueue : Fleet → Act Unit}
    (hprepare : ∀ fleet, Safe I (prepare fleet) anything)
    (henqueue : ∀ fleet, Safe I (enqueue fleet) anything) :
    Safe I (Fleet.depart w self fleet mission energy prepare enqueue) anything := by
  refine Safe.get.bind fun db _ => Safe.ite (fun _ => ?_) fun _ => ?_
  · refine (hframe.take _ .energy fun _ => henergy).bind fun _ _ => (hprepare fleet).bind fun prepared _ => ?_
    exact (hframe.save _).bind fun _ _ => henqueue _
  · exact (hframe.mergeFleet w self _).bind fun _ _ => Safe.throw _ _

theorem launch (self fleet : Fleet) (mission : MissionId) {energy : Numeric} (henergy : energy.Rounded)
    (destination : PlanetId) (ore crystal credit : ℤ) :
    Safe I (Fleet.launch w self fleet mission energy destination ore crystal credit) anything := by
  have hload : ∀ fleet : Fleet,
      Safe I (fleet.loadRessources ore crystal credit fleet.originPlanet) anything :=
    fun fleet => hframe.loadRessources fleet _ _ _ _
  have hpure : ∀ fleet : Fleet, Safe I (pure fleet : Act Fleet) anything := fun _ => Safe.pure trivial
  have htwice : (energy * 2).Rounded := Numeric.rounded_mul _ _
  unfold Fleet.launch
  dsimp only
  split
  · exact hframe.depart w self fleet 2 htwice hload fun fleet => hframe.colonizePlanetIn w fleet _ _
  · exact hframe.depart w self fleet 3 htwice hpure fun fleet => hframe.attackPlanetIn fleet _ _
  · exact hframe.depart w self fleet 4 henergy hpure fun fleet => hframe.travelToPlanetIn fleet _ _
  · exact hframe.depart w self fleet 5 htwice hpure fun fleet => hframe.spyPlanetIn fleet _ _
  · exact hframe.depart w self fleet 6 htwice hload fun fleet => hframe.transportToPlanetIn fleet _ _
  · exact (hframe.mergeFleet w self _).bind fun _ _ => Safe.throw _ _

theorem move (self : Fleet) (mission : MissionId) (destination : PlanetId)
    (shipHash : Hash ShipId ℤ) (ore crystal credit : ℤ) :
    Safe I (self.move w mission destination shipHash ore crystal credit) anything := by
  refine Safe.ite (fun _ => Safe.throw_bind _ _ _) fun _ => ?_
  refine (hframe.splitFleet w self shipHash).bind fun fleets _ => ?_
  obtain ⟨staying, leaving⟩ := fleets
  refine (Fleet.flight_safe w leaving _).bind fun needs henergy => ?_
  obtain ⟨time, energy⟩ := needs
  exact Safe.get.bind fun db _ => hframe.launch w staying _ mission henergy destination ore crystal credit

theorem returnToOrigin (self : Fleet) (planet : PlanetId) :
    Safe I (self.returnToOrigin w planet) anything := by
  refine (Fleet.getVelocity_safe w self).bind fun velocity _ => Safe.get.bind fun db _ => ?_
  exact (hframe.save _).bind fun _ _ => hframe.enqueueAt _ rfl

theorem breakupMission (self : Fleet) : Safe I self.breakupMission anything := by
  have hjob : ∀ spypower, (self.missionJob spypower).fleet? = some self.id := by
    intro spypower
    unfold Fleet.missionJob
    split <;> rfl
  refine Safe.ite (fun _ => Safe.throw_bind _ _ _) fun _ => Safe.get.bind fun db _ => ?_
  refine (hframe.removeDelayed (hjob _)).bind fun _ _ => Safe.get.bind fun later _ => ?_
  exact (hframe.enqueueAt _ rfl).bind fun _ _ => hframe.save _

theorem arriveHome (self : Fleet) : Safe I (self.arriveHome w) anything := by
  refine (Fleet.getHomeFleet_safe _).bind fun found _ => ?_
  cases found with
  | none => exact Safe.throw _ _
  | some homeFleet => exact (hframe.mergeFleet w homeFleet _).bind fun _ _ => Safe.pure trivial

/-! ## Arrival -/

theorem travel (self : Fleet) (planet : PlanetId) : Safe I (self.travel w planet) anything := by
  refine Safe.get.bind fun db _ => ?_
  cases db.relation self.user planet with
  | unknown => exact hframe.returnToOrigin w self planet
  | own =>
      refine (Fleet.getHomeFleet_safe planet).bind fun found _ => ?_
      cases found with
      | none => exact Safe.throw _ _
      | some homeFleet => exact (hframe.mergeFleet w homeFleet _).bind fun _ _ => Safe.pure trivial
  | allied => exact Safe.get.bind fun later _ => hframe.save _
  | enemy => exact hframe.returnToOrigin w self planet

theorem transport (self : Fleet) (planet : PlanetId) : Safe I (self.transport w planet) anything := by
  have hunload : Safe I (do
      let self ← self.unloadRessources planet
      self.returnToOrigin w planet : Act Unit) anything :=
    (hframe.unloadRessources self planet).bind fun unloaded _ => hframe.returnToOrigin w unloaded planet
  refine Safe.get.bind fun db _ => ?_
  cases db.relation self.user planet with
  | unknown => exact hframe.returnToOrigin w self planet
  | own => exact hunload
  | allied => exact hunload
  | enemy => exact hframe.returnToOrigin w self planet

theorem spy (r : ℚ) (self : Fleet) (ownSpyFactor : Factor) (planet : PlanetId) :
    Safe I (self.spy w r ownSpyFactor planet) anything := by
  refine Safe.get.bind fun db _ => ?_
  cases db.relation self.user planet with
  | unknown => exact hframe.returnToOrigin w self planet
  | own => exact hframe.returnToOrigin w self planet
  | allied => exact hframe.returnToOrigin w self planet
  | enemy =>
      exact Safe.ite (fun _ => hframe.destroy self) fun _ => hframe.returnToOrigin w self planet

/-! ## Fights -/

theorem loot (draws : Draws) (self : Fleet) (planet : PlanetId) :
    Safe I (Fight.loot draws self planet) anything := by
  refine (hframe.take planet .crystal nofun).bind fun gotCrystal _ => ?_
  refine (hframe.take planet .ore nofun).bind fun gotOre _ => ?_
  refine (hframe.take planet .money nofun).bind fun gotMoney _ => ?_
  exact (hframe.save _).bind fun _ _ => Safe.pure trivial

theorem fight (draws : Draws) (self : Fleet) (planet : PlanetId) :
    Safe I (self.fight w draws planet) anything := by
  have hselect : Safe I (Fleet.select (Db.stationedAt planet)) anything :=
    Safe.get.bind fun _ _ => Safe.pure trivial
  have hraise : ∀ {α : Type} (outcome : Except Err α), Safe I (Fight.orRaise outcome) anything := by
    intro α outcome
    cases outcome with
    | ok value => exact Safe.pure trivial
    | error err => exact Safe.throw _ _
  have hdestroyAll : ∀ fleets : List Fleet, Safe I (fleets.forM Fleet.destroy) anything :=
    fun fleets => Safe.forM fun fleet _ => hframe.destroy fleet
  refine hselect.bind fun defenders _ => ?_
  refine Safe.ite (fun _ => ?_) fun _ => Safe.ite (fun _ => ?_) fun _ => ?_
  · refine (Safe.mapM fun fleet _ => Fleet.getShips_safe fleet).bind fun ships _ => ?_
    refine (hraise _).bind fun lost _ => ?_
    refine (Safe.forM (φ := anything) fun entry _ => ?_).bind fun _ _ => ?_
    · exact (hframe.destroyShips w entry.1 entry.2).bind fun _ _ => Safe.pure trivial
    · exact (hframe.destroy self).bind fun _ _ => Safe.pure trivial
  · refine (Fleet.getShips_safe self).bind fun ships _ => (hraise _).bind fun lost _ => ?_
    refine (hframe.destroyShips w self lost).bind fun rest _ => (hdestroyAll defenders).bind fun _ _ => ?_
    exact (hframe.save rest).bind fun _ _ => (hframe.loot draws rest planet).mapSome.forget
  · refine (hdestroyAll defenders).bind fun _ _ => ?_
    exact (hframe.destroy self).bind fun _ _ => Safe.pure trivial

theorem attack (draws : Draws) (self : Fleet) (planet : PlanetId) :
    Safe I (self.attack w draws planet) anything := by
  refine Safe.get.bind fun db _ => ?_
  cases db.relation self.user planet with
  | unknown => exact hframe.returnToOrigin w self planet
  | own => exact hframe.returnToOrigin w self planet
  | allied => exact hframe.returnToOrigin w self planet
  | enemy =>
      refine (hframe.fight w draws self planet).bind fun winner _ => ?_
      cases winner with
      | none => exact Safe.pure trivial
      | some fleet => exact hframe.returnToOrigin w fleet planet

/-! ## Requests -/

theorem checkHelper (params : Params) : Safe I (MissionsController.checkHelper w params) anything := by
  refine (Fleet.find_safe params.fleet).attempt.bind fun found _ => ?_
  cases found with
  | none => exact Safe.throw _ _
  | some fleet =>
      refine Safe.get.bind fun db _ => Safe.ite (fun _ => Safe.pure trivial) fun _ => ?_
      refine (Fleet.shipfleets_safe fleet).bind fun rows _ => ?_
      refine Safe.ite (fun _ => Safe.pure trivial) fun _ => ?_
      refine (hframe.splitFleet w fleet _).attempt.bind fun split _ => ?_
      cases split with
      | none => exact Safe.throw _ _
      | some fleets =>
          obtain ⟨staying, leaving⟩ := fleets
          refine (Fleet.flight_safe w leaving _).attempt.bind fun needed _ => ?_
          exact (hframe.mergeFleet w staying _).bind fun _ _ => Safe.pure trivial

theorem sendFleet (params : Params) : Safe I (MissionsController.sendFleet w params) anything := by
  refine (hframe.checkHelper w params).bind fun fehler _ => ?_
  refine Safe.ite (fun _ => ?_) fun _ => Safe.pure trivial
  refine (Fleet.find_safe params.fleet).bind fun fleet _ => ?_
  split
  · exact hframe.move w fleet _ _ _ _ _ _
  · exact Safe.throw _ _

theorem breakup (fleet : FleetId) : Safe I (FleetsController.breakup fleet) anything :=
  (Fleet.find_safe fleet).bind fun found _ => hframe.breakupMission found

theorem unload (fleet : FleetId) (planet : PlanetId) :
    Safe I (FleetsController.unload fleet planet) anything := by
  refine (Fleet.find_safe fleet).bind fun found _ => Safe.ite (fun _ => ?_) fun _ => Safe.pure trivial
  exact (hframe.unloadRessources found planet).bind fun _ _ => Safe.pure trivial

/-- A job of a fleet that is not colonising. -/
theorem perform (draws : Draws) {job : Job} {action : Act Unit}
    (hperform : job.perform w draws = some action)
    (hcolonize : ∀ fleet planet, job ≠ .colonizePlanet fleet planet) : Safe I action anything := by
  cases job with
  | attackPlanet fleet planet =>
      cases hperform
      exact (Fleet.find_safe fleet).bind fun found _ => hframe.attack w draws found planet
  | colonizePlanet fleet planet => exact absurd rfl (hcolonize fleet planet)
  | travelToPlanet fleet planet =>
      cases hperform
      exact (Fleet.find_safe fleet).bind fun found _ => hframe.travel w found planet
  | spyPlanet fleet planet factor =>
      cases hperform
      exact (Fleet.find_safe fleet).bind fun found _ => hframe.spy w draws.spyRate found factor planet
  | transportToPlanet fleet planet =>
      cases hperform
      exact (Fleet.find_safe fleet).bind fun found _ => hframe.transport w found planet
  | returnToOrigin fleet =>
      cases hperform
      exact (Fleet.find_safe fleet).bind fun found _ => hframe.arriveHome w found
  | buildBuildings planet buildingtype => cases hperform
  | produceResources planet => cases hperform

/-! ## The shipyard -/

variable (rules : Rules)

theorem insert (s : Hash ShipId ℤ) (planet : PlanetId) :
    Safe (fun game => I game.db) (ShipBuildingQueue.insert rules s planet) anything := by
  have htake := fun type (amount : ℤ) => Game.safe_onDb (hframe.take planet type fun _ =>
    show (Numeric.int amount).Rounded from trivial)
  have hgive := fun type number => Game.safe_onDb (hframe.give planet type number)
  refine (htake .ore _).bind fun o _ => (htake .crystal _).bind fun c _ => ?_
  refine (htake .money _).bind fun m _ => (htake .population _).bind fun crew _ => ?_
  refine Safe.ite (fun _ => ?_) fun _ => ?_
  · exact (ShipBuildingQueue.insertAll_safe rules planet s.entries).bind fun _ _ => Safe.pure trivial
  · refine (hgive .ore o).bind fun _ _ => (hgive .crystal c).bind fun _ _ => ?_
    refine (hgive .money m).bind fun _ _ => (hgive .population crew).bind fun _ _ => ?_
    exact Safe.pure trivial

theorem removeQueue (id : ℕ) :
    Safe (fun game => I game.db) (ShipBuildingQueue.removeQueue rules id) anything := by
  refine Safe.get.bind fun game _ => ?_
  cases game.queue.get id with
  | none => exact Safe.throw _ _
  | some self =>
      have hgive := fun type number => Game.safe_onDb (hframe.give self.planet type number)
      have hupdate : ∀ t b, Safe (fun game : Game => I game.db)
          (ShipBuildingQueue.updateTime t self.planet b) anything :=
        fun t b => Safe.get.bind fun state hstate => Safe.set hstate
      refine (Safe.modify fun state hstate => ?_).bind fun _ _ => (hupdate _ _).bind fun _ _ => ?_
      · exact hstate
      refine (hgive .ore _).bind fun _ _ => (hgive .crystal _).bind fun _ _ => ?_
      refine (hgive .money _).bind fun _ _ => (hgive .population _).bind fun _ _ => ?_
      refine Safe.modify fun state hstate => ?_
      exact hstate

theorem deliver (job : AddShip) : Safe (fun game => I game.db) (job.perform rules) anything := by
  refine (Game.safe_onDb (hframe.addShipToPlanet rules.toWorld _ _)).bind fun _ _ => ?_
  refine Safe.modify fun game hgame => ?_
  split
  · exact hgame
  · exact hgame

/-! ## Research -/

theorem upgradeTechnology (id : TechnologyId) (user : UserId) :
    Safe (fun game => I game.db) (Technology.upgradeTechnology rules id user) anything := by
  refine (Technology.findRow_safe rules id).bind fun row _ => Safe.get.bind fun game hgame => ?_
  split
  · exact Safe.throw _ _
  · exact Safe.pure trivial
  · refine Safe.ite (fun _ => Safe.pure trivial) fun _ => Safe.set ?_
    exact hframe.money user _ hgame

theorem abortTechnology (id : TechnologyId) (user : UserId) :
    Safe (fun game => I game.db) (Technology.abortTechnology rules id user) anything := by
  refine (Technology.findRow_safe rules id).bind fun row _ => Safe.get.bind fun game hgame => Safe.set ?_
  exact hframe.money user _ hgame

theorem updateUservalues (id : TechnologyId) (user : UserId) :
    Safe (fun game => I game.db) (Technology.updateUservalues rules id user) anything := by
  refine (Technology.findRow_safe rules id).bind fun row _ => Safe.get.bind fun game hgame => Safe.set ?_
  unfold Technology.updateSetting
  split
  · exact hframe.setting user _ hgame
  · exact hgame
  · exact hgame

end FleetFrame

end Mmog
