import Mmog.Missions.Outcome
import Mmog.Model.Seeds

/-!
# What a move leaves in the tables

When `move` raises, the tables should be as they were, and when it returns, the
cargo of the home fleet should be in exactly one place.  Neither always holds;
here is when they do.
-/

namespace Mmog

open Ruby Action

/-! ## The same stored state -/

/-- What a row says about a fleet, without the values computed from it. -/
def FleetRow.stored (row : FleetRow) : Route × Cargo × List Shipfleet :=
  (row.attributes.toRoute, row.attributes.toCargo, row.shipfleets)

/-- The same fleets with the same ships and cargo, the same planets and users, the same jobs. -/
structure Db.Same (db next : Db) : Prop where
  now : next.now = db.now
  planets : next.planets = db.planets
  users : next.users = db.users
  buildings : next.buildings = db.buildings
  fleets : ∀ id, (next.fleets.get id).map FleetRow.stored = (db.fleets.get id).map FleetRow.stored
  delayed : next.delayed = db.delayed
  ready : next.ready = db.ready

namespace Db.Same

variable {db next : Db}

theorem refl (db : Db) : db.Same db := ⟨rfl, rfl, rfl, rfl, fun _ => rfl, rfl, rfl⟩

theorem trans {first second third : Db} (h : first.Same second) (h' : second.Same third) :
    first.Same third where
  now := h'.now.trans h.now
  planets := h'.planets.trans h.planets
  users := h'.users.trans h.users
  buildings := h'.buildings.trans h.buildings
  fleets id := (h'.fleets id).trans (h.fleets id)
  delayed := h'.delayed.trans h.delayed
  ready := h'.ready.trans h.ready

/-- A row that is new, or that has other cargo, shows that the state is not the same. -/
theorem setFleets_put_iff {id : FleetId} {old row : FleetRow} (hget : db.fleets.get id = some old)
    {t : Table FleetRow} (ht : ∀ other, t.get other = (db.fleets.put id row).get other) :
    db.Same (db.setFleets t) ↔ row.stored = old.stored := by
  constructor
  · intro hsame
    have hrow := hsame.fleets id
    rw [Db.fleets_setFleets, ht, Table.get_put _ hget, if_pos rfl, hget] at hrow
    exact Option.some.inj hrow
  · intro hstored
    refine ⟨rfl, rfl, rfl, rfl, fun other => ?_, rfl, rfl⟩
    rw [Db.fleets_setFleets, ht, Table.get_put _ hget]
    split
    · rename_i heq
      rw [heq, hget, Option.map_some, Option.map_some, hstored]
    · rfl

theorem not_of_new {row : FleetRow} (hnew : next.fleets.get db.fleets.nextId = some row) :
    ¬ db.Same next := by
  intro hsame
  have hrow := hsame.fleets db.fleets.nextId
  rw [hnew, db.fleets.fresh _ (le_refl _)] at hrow
  cases hrow

end Db.Same

namespace Fleet

variable (w : World) (db : Db) (self : Fleet) (row : FleetRow)

/-- The two shares of the cargo make up the cargo. -/
def SharesSum (shipHash : Hash ShipId ℤ) (user : UserId) : Prop :=
  (splitCargo w db shipHash user row.shipfleets self).1 +
    (splitCargo w db shipHash user row.shipfleets self).2 = self.toCargo

instance (shipHash : Hash ShipId ℤ) (user : UserId) :
    Decidable (SharesSum w db self row shipHash user) :=
  inferInstanceAs (Decidable (_ = _))

/-- What a move must meet so that nothing of it stays behind when it raises. -/
def Undoes (mission : MissionId) (destination : PlanetId) (shipHash : Hash ShipId ℤ)
    (ore crystal credit : ℤ) : Prop :=
  atHome self.toAttributes = true → enoughShips? row.shipfleets shipHash = true →
  ∀ user, (db.planets self.originPlanet).user = some user →
    ¬ SplitFails w db shipHash row.shipfleets self ∧ shipHash.entries ≠ [] ∧
    ∀ time energy, moveNeeds w db self destination shipHash user = some (time, energy) →
      (Affordable db self mission energy → MissionReady mission shipHash ore crystal credit) ∧
      (¬ Affordable db self mission energy → SharesSum w db self row shipHash user)

variable {w db row}

theorem restored_stored {id : FleetId} (cargo : Cargo) :
    (restored w db row.shipfleets (ofRow id row) cargo).stored = row.stored ↔
      cargo = row.attributes.toCargo := by
  have hroute : (restored w db row.shipfleets (ofRow id row) cargo).attributes.toRoute =
      row.attributes.toRoute :=
    valued_toRoute w db row.shipfleets row.attributes
  unfold FleetRow.stored
  rw [hroute, Prod.mk.injEq, Prod.mk.injEq]
  exact ⟨fun h => h.2.1, fun h => ⟨rfl, h, rfl⟩⟩

/-- `move` is all or nothing exactly when it is not stopped halfway and its shares add up. -/
theorem move_all_or_nothing {id : FleetId} (hget : db.fleets.get id = some row)
    (mission : MissionId) (destination : PlanetId) (shipHash : Hash ShipId ℤ)
    (ore crystal credit : ℤ) :
    (returned (((ofRow id row).move w mission destination shipHash ore crystal credit).run db) =
        false →
      db.Same (after
        (((ofRow id row).move w mission destination shipHash ore crystal credit).run db))) ↔
      Undoes w db (ofRow id row) row mission destination shipHash ore crystal credit := by
  have houtcome := move_outcome w (ofRow id row) hget mission destination shipHash ore
    crystal credit
  generalize ((ofRow id row).move w mission destination shipHash ore crystal credit).run db = result
    at houtcome
  cases houtcome with
  | refused message hrefused =>
      exact ⟨fun _ hhome henough => absurd ⟨hhome, henough⟩ hrefused, fun _ _ => .refl db⟩
  | unowned hhome henough howner =>
      refine ⟨fun _ _ _ user huser => ?_, fun _ _ => ?_⟩
      · rw [howner] at huser
        cases huser
      · refine (Db.Same.setFleets_put_iff hget fun _ => rfl).mpr ?_
        unfold FleetRow.stored
        rw [valued_toRoute, valued_toCargo]
        rfl
  | leftSplit user err hhome henough howner hstuck =>
      constructor
      · intro hsame
        exact absurd (hsame rfl) (Db.Same.not_of_new (get_splitTable_new w _ _ _ _ _))
      · intro hundoes
        obtain ⟨hfails, hships, -⟩ := hundoes hhome henough user howner
        exact absurd hstuck (not_or.mpr ⟨hfails, hships⟩)
  | mergedBack user time energy err hhome henough howner hfails hships hneeds hpoor =>
      have hsame := (Db.Same.setFleets_put_iff hget
        (t := (db.fleets.put id (restored w db row.shipfleets (ofRow id row)
          ((splitCargo w db shipHash user row.shipfleets (ofRow id row)).1 +
            (splitCargo w db shipHash user row.shipfleets (ofRow id row)).2))).skip)
        fun other => Table.get_skip _ other).trans (restored_stored _)
      constructor
      · intro h _ _ user' huser'
        obtain rfl : user = user' := Option.some.inj (howner.symm.trans huser')
        refine ⟨hfails, hships, fun time' energy' hneeds' => ?_⟩
        obtain ⟨rfl, rfl⟩ := Prod.mk.inj (Option.some.inj (hneeds.symm.trans hneeds'))
        exact ⟨fun hpaid => absurd hpaid hpoor, fun _ => hsame.mp (h rfl)⟩
      · intro hundoes _
        obtain ⟨-, -, hsum⟩ := hundoes hhome henough user howner
        exact hsame.mpr ((hsum time energy hneeds).2 hpoor)
  | stopped user time energy err next old hhome henough howner hfails hships hneeds hpaid hready
      hnew =>
      constructor
      · intro hsame
        exact absurd (hsame rfl) (Db.Same.not_of_new hnew)
      · intro hundoes
        obtain ⟨-, -, hrest⟩ := hundoes hhome henough user howner
        exact absurd ((hrest time energy hneeds).1 hpaid) hready
  | left user time energy cargo next hhome henough howner hfails hships hneeds hpaid hready hboard
      hcargo hstocked =>
      refine ⟨fun _ _ _ user' huser' => ?_, fun _ h => Bool.noConfusion h⟩
      obtain rfl : user = user' := Option.some.inj (howner.symm.trans huser')
      refine ⟨hfails, hships, fun time' energy' hneeds' => ?_⟩
      obtain ⟨rfl, rfl⟩ := Prod.mk.inj (Option.some.inj (hneeds.symm.trans hneeds'))
      exact ⟨fun _ => hready, fun hpoor => absurd hpaid hpoor⟩

/-- Two spy drones at planet 1. -/
def dronesDb : Db := (run (step Seeds.world) Seeds.start [.addShip 7 1, .addShip 7 1]).get
  (by decide)

def dronesRow : FleetRow := (dronesDb.fleets.get 1).get (by decide)

/-- A third drone is missed before anything is written. -/
theorem move_all_or_nothing_sample :
    dronesDb.Same (after
      (((ofRow 1 dronesRow).move Seeds.world 5 11 (.single spyDrone 3) 0 0 0).run dronesDb)) :=
  (move_all_or_nothing (w := Seeds.world) (Option.some_get _).symm 5 11 (.single spyDrone 3) 0 0 0).mpr
    (fun _ henough => absurd henough (by decide)) (by decide)

/-- Two drones may not spy; they stay behind as a fleet on its way, and the energy is gone. -/
theorem move_not_all_or_nothing :
    ¬ ∀ (w : World) (db : Db) (id : FleetId) (row : FleetRow) (mission : MissionId)
      (destination : PlanetId) (shipHash : Hash ShipId ℤ) (ore crystal credit : ℤ),
      db.fleets.get id = some row →
      returned (((ofRow id row).move w mission destination shipHash ore crystal credit).run db) =
        false →
      db.Same (after
        (((ofRow id row).move w mission destination shipHash ore crystal credit).run db)) := by
  intro hall
  have hsame := hall Seeds.world dronesDb 1 dronesRow 5 11 (.single spyDrone 2) 0 0 0
    (Option.some_get _).symm (by decide +kernel)
  obtain ⟨row, hrow⟩ := Option.isSome_iff_exists.mp (show ((after (((ofRow 1 dronesRow).move
    Seeds.world 5 11 (.single spyDrone 2) 0 0 0).run dronesDb)).fleets.get
      dronesDb.fleets.nextId).isSome = true by decide +kernel)
  exact Db.Same.not_of_new hrow hsame

/-! ## The cargo of a split -/

/-- The cargo in the row of a fleet. -/
def cargoOf (db : Db) (id : FleetId) : Cargo :=
  ((db.fleets.get id).map fun row => row.attributes.toCargo).getD 0

theorem cargoOf_of_same {db next : Db} (hsame : db.Same next) (id : FleetId) :
    cargoOf next id = cargoOf db id := by
  have hrow := congrArg (Option.map fun stored => stored.2.1) (hsame.fleets id)
  rw [Option.map_map, Option.map_map] at hrow
  exact congrArg (Option.getD · 0) hrow

/-- The cargo with which `split_fleet` hands the new fleet over. -/
def handedOver (w : World) (db : Db) (self : Fleet) (shipHash : Hash ShipId ℤ) : Cargo :=
  match (self.splitFleet w shipHash).run db with
  | .ok (_, fleet) _ => fleet.toCargo
  | .error _ _ => 0

/-- The cargo of both fleets after a move is that before it and what the new fleet loaded. -/
def ConservesCargo (w : World) (db : Db) (self : Fleet) (shipHash : Hash ShipId ℤ) (next : Db) :
    Prop :=
  ∀ loaded, cargoOf next db.fleets.nextId = handedOver w db self shipHash + loaded →
    cargoOf next self.id + cargoOf next db.fleets.nextId = cargoOf db self.id + loaded

/-- The ships that stay hold the cargo, or no whole part of it belongs to those that leave. -/
def KeepsCargo (w : World) (db : Db) (self : Fleet) (row : FleetRow) (shipHash : Hash ShipId ℤ) :
    Prop :=
  Overloaded w db shipHash row.shipfleets self →
    ∀ user, (db.planets self.originPlanet).user = some user →
      shares self.toCargo (splitFactor w db shipHash user row.shipfleets self) = 0

theorem splitCargo_eq_zero_iff {user : UserId}
    (howner : (db.planets self.originPlanet).user = some user) :
    (splitCargo w db shipHash user row.shipfleets self).2 = 0 ↔
      KeepsCargo w db self row shipHash := by
  unfold splitCargo KeepsCargo
  by_cases hover : Overloaded w db shipHash row.shipfleets self
  · rw [if_pos hover]
    refine ⟨fun hzero _ user' huser' => ?_, fun h => h hover user howner⟩
    obtain rfl : user = user' := Option.some.inj (howner.symm.trans huser')
    exact hzero
  · rw [if_neg hover]
    exact ⟨fun _ h => absurd h hover, fun _ => rfl⟩

/-- A move that returns conserves the cargo exactly when the split hands none over. -/
theorem move_conserves_cargo {id : FleetId} (hget : db.fleets.get id = some row)
    (mission : MissionId) (destination : PlanetId) (shipHash : Hash ShipId ℤ)
    (ore crystal credit : ℤ)
    (hreturns : returned (((ofRow id row).move w mission destination shipHash ore crystal
      credit).run db) = true) :
    ConservesCargo w db (ofRow id row) shipHash (after (((ofRow id row).move w mission destination
      shipHash ore crystal credit).run db)) ↔
      KeepsCargo w db (ofRow id row) row shipHash := by
  have houtcome := move_outcome w (ofRow id row) hget mission destination shipHash ore
    crystal credit
  generalize ((ofRow id row).move w mission destination shipHash ore crystal credit).run db = result
    at houtcome hreturns
  cases houtcome with
  | left user time energy cargo next hhome henough howner hfails hships hneeds hpaid hready hboard
      hcargo hstocked =>
      have hfleets : next.fleets = (splitTable w db shipHash user row.shipfleets (ofRow id row)).put
          db.fleets.nextId ⟨((mover w db (ofRow id row) row destination shipHash user time).sent
            mission cargo).toAttributes, added shipHash []⟩ :=
        congrArg Board.fleets hboard
      have hnew := get_splitTable_new w db (ofRow id row) row shipHash user
      have hcargoNew : cargoOf next db.fleets.nextId = cargo := by
        rw [cargoOf, hfleets, Table.get_put _ hnew, if_pos rfl]
        rfl
      have hhome : (splitTable w db shipHash user row.shipfleets (ofRow id row)).get id = some
          ⟨(staying w db shipHash row.shipfleets (ofRow id row)).toAttributes,
            removed shipHash row.shipfleets⟩ :=
        get_splitTable_self w hget
      have hcargoHome : cargoOf next id = cargoOf db id := by
        rw [cargoOf, cargoOf, hfleets, Table.get_put _ hnew, if_neg (Table.ne_nextId hget), hhome,
          hget]
        exact staying_toCargo w db shipHash row.shipfleets (ofRow id row)
      have hhanded : handedOver w db (ofRow id row) shipHash =
          (splitCargo w db shipHash user row.shipfleets (ofRow id row)).2 := by
        rw [handedOver, splitFleet_ok w hget henough howner hfails]
        rfl
      rw [after_ok, ConservesCargo, hcargoNew, ofRow_id, hcargoHome, hhanded,
        ← splitCargo_eq_zero_iff _ howner]
      exact Cargo.adds_nothing_iff _ _ _
  | _ => exact absurd hreturns (by simp)

/-- Two small cargo ships at planet 1 with some ore aboard. -/
def ladenRow (ore : ℤ) : FleetRow :=
  ⟨{ newAttributes Seeds.start 1 1 with ore, ressourceCapacity := 16000 }, [⟨1, 2⟩]⟩

def ladenDb (ore : ℤ) : Db := Seeds.start.setFleets (Table.empty.create (ladenRow ore))

/-- The ship that stays holds 5000 ore, and the one that leaves for planet 2 takes none of it. -/
theorem move_conserves_cargo_sample :
    ConservesCargo Seeds.world (ladenDb 5000) (ofRow 1 (ladenRow 5000)) (.single 1 1)
      (after (((ofRow 1 (ladenRow 5000)).move Seeds.world 4 2 (.single 1 1) 0 0 0).run
        (ladenDb 5000))) :=
  (move_conserves_cargo (w := Seeds.world) rfl 4 2 (.single 1 1) 0 0 0
    (by decide +kernel)).mpr fun hover => absurd hover (by decide +kernel)

/-- Of 9000 ore the ship that leaves takes half, which stays in the row of the other one too. -/
theorem move_not_conserves_cargo :
    ¬ ∀ (w : World) (db : Db) (id : FleetId) (row : FleetRow) (mission : MissionId)
      (destination : PlanetId) (shipHash : Hash ShipId ℤ) (ore crystal credit : ℤ),
      db.fleets.get id = some row →
      ((ofRow id row).getAmountOfRessources : Numeric) ≤ (ofRow id row).getCapacity →
      returned (((ofRow id row).move w mission destination shipHash ore crystal credit).run db) =
        true →
      ConservesCargo w db (ofRow id row) shipHash
        (after (((ofRow id row).move w mission destination shipHash ore crystal credit).run db)) := by
  intro hall
  have hconserves := hall Seeds.world (ladenDb 9000) 1 (ladenRow 9000) 4 2 (.single 1 1) 0 0 0 rfl
    (by decide +kernel) (by decide +kernel) 0 (by decide +kernel)
  exact absurd hconserves (by decide +kernel)

end Fleet

end Mmog
