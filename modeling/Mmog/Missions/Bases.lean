import Mmog.Game.Build

/-!
# Where fleets are based

A fleet whose mission is to stay has a base, its origin.  Missions leave the
bases of fleets as they are or destroy the fleets, and only a colonising fleet
gets another one.
-/

namespace Mmog

open Ruby Action

/-- The base of a row's fleet, if its mission is to stay there. -/
def FleetRow.base (row : FleetRow) : Option PlanetId :=
  if row.attributes.missionId = 1 then some row.attributes.originPlanet else none

/-- All bases of fleets are among these. -/
def Db.Based (bases : FleetId → PlanetId → Prop) (db : Db) : Prop :=
  ∀ id row p, db.fleets.get id = some row → row.base = some p → bases id p

theorem Db.basedAt_iff {p : PlanetId} {row : FleetRow} : Db.basedAt p row = true ↔ row.base = some p := by
  unfold Db.basedAt FleetRow.base
  rw [decide_eq_true_iff]
  split
  · rename_i hmission
    exact ⟨fun h => congrArg some h.2, fun h => ⟨hmission, Option.some.inj h⟩⟩
  · rename_i hmission
    exact ⟨fun h => absurd h.1 hmission, nofun⟩

namespace Fleet

variable {bases : FleetId → PlanetId → Prop}

/-- The base of the object is among these. -/
def Lodged (bases : FleetId → PlanetId → Prop) (self : Fleet) : Prop :=
  self.missionId = 1 → bases self.id self.originPlanet

theorem Lodged.of_route {self other : Fleet} (hself : self.Lodged bases) (hid : other.id = self.id)
    (hmission : other.missionId = self.missionId) (horigin : other.originPlanet = self.originPlanet) :
    other.Lodged bases := by
  intro hstays
  rw [hid, horigin]
  exact hself (hmission ▸ hstays)

theorem based_of_base {self : Fleet} {row : FleetRow} (hrow : row.attributes = self.toAttributes)
    (hself : self.Lodged bases) {p : PlanetId} (hbase : row.base = some p) : bases self.id p := by
  unfold FleetRow.base at hbase
  rw [hrow] at hbase
  split at hbase
  · rename_i hmission
    obtain rfl := Option.some.inj hbase
    exact hself hmission
  · cases hbase

/-! ## Rows -/

theorem find_based (id : FleetId) : Safe (Db.Based bases) (find id) (Lodged bases) := by
  refine Safe.get.bind fun db hdb => ?_
  cases hget : db.fleets.get id with
  | none => exact Safe.throw _ _
  | some row => exact Safe.pure fun hmission => hdb id row _ hget (if_pos hmission)

theorem getHomeFleet_based (planet : PlanetId) :
    Safe (Db.Based bases) (getHomeFleet planet) fun found => ∀ fleet ∈ found, fleet.Lodged bases := by
  refine Safe.get.bind fun db _ => ?_
  cases db.fleets.first (Db.basedAt planet) with
  | none => exact Safe.pureNone
  | some id => exact (find_based id).mapSome

theorem select_based (test : FleetRow → Bool) :
    Safe (Db.Based bases) (select test) fun fleets => ∀ fleet ∈ fleets, fleet.Lodged bases := by
  refine Safe.get.bind fun db hdb => Safe.pure fun fleet hfleet => ?_
  obtain ⟨id, -, hmap⟩ := List.mem_filterMap.mp hfleet
  obtain ⟨row, hget, rfl⟩ := Option.map_eq_some_iff.mp hmap
  exact fun hmission => hdb id row _ hget (if_pos hmission)

/-- What only changes other tables, or deletes fleets, keeps the bases. -/
theorem based_of_get {db next : Db} (hdb : db.Based bases)
    (hget : ∀ id row, next.fleets.get id = some row → db.fleets.get id = some row) : next.Based bases :=
  fun id row p hrow => hdb id row p (hget id row hrow)

theorem save_based {self : Fleet} (hself : self.Lodged bases) : Safe (Db.Based bases) self.save anything := by
  refine Safe.modify fun db hdb id row p hget hbase => ?_
  rw [Db.setFleets, Table.get_modify] at hget
  split at hget
  · rename_i heq
    obtain ⟨old, -, rfl⟩ := Option.map_eq_some_iff.mp hget
    rw [heq]
    exact based_of_base rfl hself hbase
  · exact hdb id row p hget hbase

theorem destroy_based (self : Fleet) : Safe (Db.Based bases) self.destroy anything := by
  refine Safe.modify fun db hdb => based_of_get hdb fun id row hget => ?_
  rw [Db.setFleets, Table.get_destroy] at hget
  split at hget
  · cases hget
  · exact hget

theorem writeShipfleets_based (self : Fleet) (change : List Shipfleet → List Shipfleet) :
    Safe (Db.Based bases) (self.writeShipfleets change) anything := by
  refine Safe.modify fun db hdb id row p hget hbase => ?_
  rw [Db.setFleets, Table.get_modify] at hget
  split at hget
  · obtain ⟨old, hold, rfl⟩ := Option.map_eq_some_iff.mp hget
    exact hdb id old p hold hbase
  · exact hdb id row p hget hbase

/-! ## Stocks and jobs -/

theorem take_based (p : PlanetId) (type : Resource) (number : Numeric) :
    Safe (Db.Based bases) (Planet.take p type number) anything := by
  intro db hdb
  refine ⟨?_, fun _ _ => trivial⟩
  unfold Planet.take
  by_cases hnumber : number ≤ 0
  · rw [if_pos hnumber]
    exact hdb
  · rw [if_neg hnumber, run_bind_get]
    cases type with
    | money => cases (db.planets p).user <;> exact hdb
    | _ => exact hdb

theorem give_based (p : PlanetId) (type : Resource) (number : Numeric) :
    Safe (Db.Based bases) (Planet.give p type number) anything := by
  intro db hdb
  refine ⟨?_, fun _ _ => trivial⟩
  unfold Planet.give
  by_cases hnumber : number ≤ 0
  · rw [if_pos hnumber]
    exact hdb
  · rw [if_neg hnumber, run_bind_get]
    cases type with
    | money => cases (db.planets p).user <;> exact hdb
    | _ => exact hdb

theorem enqueueAt_based (timestamp : ℤ) (job : Job) :
    Safe (Db.Based bases) (Resque.enqueueAt timestamp job) anything :=
  Safe.modify fun _ hdb => hdb

theorem removeDelayed_based (job : Job) : Safe (Db.Based bases) (Resque.removeDelayed job) anything :=
  Safe.modify fun _ hdb => hdb

/-! ## Ships and cargo -/

section Ships

variable (w : World) {self : Fleet} (hself : self.Lodged bases)

include hself

theorem updateValuesOf_based (types : List ShipId) :
    Safe (Db.Based bases) (updateValuesOf w types self) (Lodged bases) := by
  refine (getShipsOf_safe types self).bind fun ships _ => Safe.get.bind fun db _ => ?_
  have hvalued : Fleet.Lodged bases
      { withValues w (db.users self.user).userSetting ships self.toAttributes with id := self.id } := by
    refine hself.of_route rfl ?_ ?_
    all_goals
      unfold withValues
      dsimp only
      split <;> rfl
  exact (save_based hvalued).bind fun _ _ => Safe.pure hvalued

theorem updateValues_based : Safe (Db.Based bases) (self.updateValues w) (Lodged bases) :=
  (ships_safe self).bind fun types _ => updateValuesOf_based w hself types

theorem addShips_based (shipHash : Hash ShipId ℤ) :
    Safe (Db.Based bases) (self.addShips w shipHash) (Lodged bases) := by
  have hraised : ∀ (entries : List (ShipId × ℤ)) (newShips : Hash ShipId ℤ),
      Safe (Db.Based bases) (self.addToRows entries newShips) anything := by
    intro entries
    induction entries with
    | nil => exact fun newShips => Safe.pure trivial
    | cons entry entries ih =>
        intro newShips
        refine (ships_safe self).bind fun types _ => Safe.ite (fun _ => ?_) fun _ => ih _
        exact (writeShipfleets_based self _).bind fun _ _ => ih _
  have hadded : ∀ entries : List (ShipId × ℤ), Safe (Db.Based bases) (self.addRows entries) anything := by
    intro entries
    induction entries with
    | nil => exact Safe.pure trivial
    | cons entry entries ih =>
        refine (writeShipfleets_based self _).bind fun _ _ => ?_
        exact (writeShipfleets_based self _).bind fun _ _ => ih
  refine Safe.ite (fun _ => Safe.throw_bind _ _ _) fun _ => ?_
  refine (hraised _ _).bind fun newShips _ => (hadded _).bind fun _ _ => ?_
  exact updateValues_based w hself

theorem destroyShips_based (shipHash : Hash ShipId ℤ) :
    Safe (Db.Based bases) (self.destroyShips w shipHash) (Lodged bases) := by
  have htaken : ∀ entries : List (ShipId × ℤ), Safe (Db.Based bases) (self.takeFromRows entries) anything := by
    intro entries
    induction entries with
    | nil => exact Safe.pure trivial
    | cons entry entries ih => exact (writeShipfleets_based self _).bind fun _ _ => ih
  refine (shipfleets_safe self).bind fun rows _ => Safe.ite (fun _ => Safe.throw_bind _ _ _) fun _ => ?_
  exact (htaken _).bind fun _ _ => updateValues_based w hself

theorem mergeFleet_based (fleet : Option Fleet) :
    Safe (Db.Based bases) (self.mergeFleet w fleet) (Lodged bases) := by
  cases fleet with
  | none => exact Safe.throw _ _
  | some fleet =>
      refine (getShips_safe fleet).bind fun shipHash _ => ?_
      refine Safe.bind (φ := Lodged bases) (addShips_based w ?_ shipHash) fun merged hmerged => ?_
      · exact hself.of_route rfl rfl rfl
      refine (ships_safe merged).bind fun types _ => (destroy_based fleet).bind fun _ _ => ?_
      exact updateValuesOf_based w hmerged types

omit hself in
theorem unloadRessources_based (hself : self.Lodged bases) (planet : PlanetId) :
    Safe (Db.Based bases) (self.unloadRessources planet) (Lodged bases) := by
  refine (give_based planet .ore _).bind fun backOre _ => ?_
  refine (give_based planet .crystal _).bind fun backCrystal _ => ?_
  refine (give_based planet .money _).bind fun backCredit _ => ?_
  have hunloaded : Lodged bases { self with
      ore := backOre.toI
      crystal := backCrystal.toI
      credit := backCredit.toI } := hself.of_route rfl rfl rfl
  exact (save_based hunloaded).bind fun _ _ => Safe.pure hunloaded

/-! ## Missions -/

theorem returnToOrigin_based (planet : PlanetId) :
    Safe (Db.Based bases) (self.returnToOrigin w planet) anything := by
  refine (getVelocity_safe w self).bind fun velocity _ => Safe.get.bind fun db _ => ?_
  refine Safe.bind (φ := anything) (save_based ?_) fun _ _ => enqueueAt_based _ _
  exact hself.of_route rfl rfl rfl

theorem breakupMission_based : Safe (Db.Based bases) self.breakupMission anything := by
  refine Safe.ite (fun _ => Safe.throw_bind _ _ _) fun _ => Safe.get.bind fun db _ => ?_
  refine (removeDelayed_based _).bind fun _ _ => Safe.get.bind fun later _ => ?_
  refine (enqueueAt_based _ _).bind fun _ _ => save_based ?_
  exact hself.of_route rfl rfl rfl

theorem travel_based (planet : PlanetId) : Safe (Db.Based bases) (self.travel w planet) anything := by
  refine Safe.get.bind fun db _ => ?_
  cases db.relation self.user planet with
  | unknown => exact returnToOrigin_based w hself planet
  | own =>
      refine (getHomeFleet_based planet).bind fun found hfound => ?_
      cases found with
      | none => exact Safe.throw _ _
      | some home => exact (mergeFleet_based w (hfound home rfl) _).bind fun _ _ => Safe.pure trivial
  | allied =>
      refine Safe.get.bind fun later _ => save_based ?_
      exact hself.of_route rfl rfl rfl
  | enemy => exact returnToOrigin_based w hself planet

theorem transport_based (planet : PlanetId) : Safe (Db.Based bases) (self.transport w planet) anything := by
  refine Safe.get.bind fun db _ => ?_
  cases db.relation self.user planet with
  | unknown => exact returnToOrigin_based w hself planet
  | own => exact (unloadRessources_based hself planet).bind fun _ hunloaded => returnToOrigin_based w hunloaded planet
  | allied => exact (unloadRessources_based hself planet).bind fun _ hunloaded => returnToOrigin_based w hunloaded planet
  | enemy => exact returnToOrigin_based w hself planet

theorem spy_based (r : ℚ) (ownSpyFactor : Factor) (planet : PlanetId) :
    Safe (Db.Based bases) (self.spy w r ownSpyFactor planet) anything := by
  refine Safe.get.bind fun db _ => ?_
  cases db.relation self.user planet with
  | enemy => exact Safe.ite (fun _ => destroy_based self) fun _ => returnToOrigin_based w hself planet
  | _ => exact returnToOrigin_based w hself planet

omit hself in
theorem arriveHome_based (self : Fleet) : Safe (Db.Based bases) (self.arriveHome w) anything := by
  refine (getHomeFleet_based self.originPlanet).bind fun found hfound => ?_
  cases found with
  | none => exact Safe.throw _ _
  | some home => exact (mergeFleet_based w (hfound home rfl) _).bind fun _ _ => Safe.pure trivial

/-! ## Fights -/

theorem loot_based (draws : Draws) (planet : PlanetId) :
    Safe (Db.Based bases) (Fight.loot draws self planet) (Lodged bases) := by
  refine (take_based planet .crystal _).bind fun gotCrystal _ => ?_
  refine (take_based planet .ore _).bind fun gotOre _ => ?_
  refine (take_based planet .money _).bind fun gotMoney _ => ?_
  refine Safe.bind (φ := anything) (save_based ?_) fun _ _ => Safe.pure ?_
  · exact hself.of_route rfl rfl rfl
  · exact hself.of_route rfl rfl rfl

theorem fight_based (draws : Draws) (planet : PlanetId) :
    Safe (Db.Based bases) (self.fight w draws planet) fun found => ∀ fleet ∈ found, fleet.Lodged bases := by
  have hraise : ∀ {α : Type} (outcome : Except Err α), Safe (Db.Based bases) (Fight.orRaise outcome) anything := by
    intro α outcome
    cases outcome with
    | ok value => exact Safe.pure trivial
    | error err => exact Safe.throw _ _
  have hdestroyAll : ∀ fleets : List Fleet, Safe (Db.Based bases) (fleets.forM Fleet.destroy) anything :=
    fun fleets => Safe.forM fun fleet _ => destroy_based fleet
  refine (select_based _).bind fun defenders hdefenders => ?_
  refine Safe.ite (fun _ => ?_) fun _ => Safe.ite (fun _ => ?_) fun _ => ?_
  · refine (Safe.mapM fun fleet _ => getShips_safe fleet).bind fun ships _ => (hraise _).bind fun lost _ => ?_
    refine (Safe.forM (φ := anything) fun entry hentry => ?_).bind fun _ _ => ?_
    · have hfleet := hdefenders entry.1 (List.of_mem_zip hentry).1
      exact (destroyShips_based w hfleet entry.2).bind fun _ _ => Safe.pure trivial
    · exact (destroy_based self).bind fun _ _ => Safe.pureNone
  · refine (getShips_safe self).bind fun ships _ => (hraise _).bind fun lost _ => ?_
    refine (destroyShips_based w hself lost).bind fun rest hrest => (hdestroyAll defenders).bind fun _ _ => ?_
    exact (save_based hrest).bind fun _ _ => (loot_based hrest draws planet).mapSome
  · refine (hdestroyAll defenders).bind fun _ _ => ?_
    exact (destroy_based self).bind fun _ _ => Safe.pureNone

theorem attack_based (draws : Draws) (planet : PlanetId) :
    Safe (Db.Based bases) (self.attack w draws planet) anything := by
  refine Safe.get.bind fun db _ => ?_
  cases db.relation self.user planet with
  | enemy =>
      refine (fight_based w hself draws planet).bind fun winner hwinner => ?_
      cases winner with
      | none => exact Safe.pure trivial
      | some fleet => exact returnToOrigin_based w (hwinner fleet rfl) planet
  | _ => exact returnToOrigin_based w hself planet

end Ships

/-! ## Colonising -/

theorem createBuildingJob_based (w : World) (p : PlanetId) (name : BuildingName) :
    Safe (Db.Based bases) (Planet.createBuildingJob w p name) anything := by
  intro db hdb
  refine ⟨?_, fun _ _ => trivial⟩
  obtain hsame | ⟨type, u, -, -, -, hordered⟩ := Planet.createBuildingJob_outcome w p name db
  · rw [hsame]
    exact hdb
  · rw [hordered]
    exact hdb

theorem claim_based (w : World) (p : PlanetId) (u : UserId) :
    Safe (Db.Based bases) (Planet.claim w p u) anything := by
  have hstart : ∀ name, Safe (Db.Based bases) (Planet.startBuilding w p name) anything :=
    fun name => (createBuildingJob_based w p name).bind fun _ _ => Safe.modify fun _ hdb => hdb
  refine Safe.get.bind fun db _ => (Safe.modify fun _ hdb => ?_).bind fun _ _ => ?_
  · exact hdb
  refine Safe.ite (fun _ => ?_) fun _ => Safe.pure trivial
  refine (hstart .oremine).bind fun _ _ => (hstart .headquarter).bind fun _ _ => ?_
  refine (hstart .powerplant).bind fun _ _ => (hstart .city).bind fun _ _ => ?_
  exact Safe.get.bind fun later _ => enqueueAt_based _ _

/-- A colonising fleet may be based where it was or on the planet it claims. -/
theorem settle_based (w : World) (self : Fleet) {planet : PlanetId} (hplanet : bases self.id planet) :
    Safe (Db.Based bases) (self.settle w planet) anything := by
  refine (claim_based w planet self.user).bind fun _ _ => Safe.get.bind fun db _ => ?_
  refine Safe.bind (φ := Lodged bases) (unloadRessources_based ?_ planet) fun unloaded hunloaded => ?_
  · exact fun _ => hplanet
  refine (destroyShips_based w hunloaded _).bind fun valued hvalued => ?_
  refine Safe.bind (φ := Lodged bases) (updateValues_based w ?_) fun _ _ => Safe.pure trivial
  split
  · exact hvalued.of_route rfl rfl rfl
  · exact hvalued

end Fleet

end Mmog
