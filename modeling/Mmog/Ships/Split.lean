import Mmog.Ships.Values

/-!
# Splitting and merging

Both methods, as equations over the fleet table.  A split writes the ships of
both fleets, but the shares of the cargo stay in the two objects it returns.
-/

namespace Mmog

open Ruby Action

namespace Fleet

variable (w : World)

theorem withValues_withValues (setting : UserSetting) (first second : Hash ShipId ℤ)
    (attributes : Attributes) :
    withValues w setting second (withValues w setting first attributes) =
      withValues w setting second attributes := by
  cases hhome : atHome attributes with
  | true =>
      have hroute : atHome (withValues w setting first attributes) = true := by
        unfold withValues
        rw [if_pos hhome]
        exact hhome
      rw [withValues, if_pos hroute, withValues, if_pos hhome, withValues, if_pos hhome]
  | false =>
      have hroute : atHome (withValues w setting first attributes) = false := by
        unfold withValues
        rw [if_neg (by simp [hhome])]
        exact hhome
      rw [withValues, if_neg (by simp [hroute]), withValues, if_neg (by simp [hhome]), withValues,
        if_neg (by simp [hhome])]

theorem valued_valued (db : Db) (first second : List Shipfleet) (attributes : Attributes) :
    valued w db second (valued w db first attributes) = valued w db second attributes := by
  have huser : (valued w db first attributes).user = attributes.user :=
    congrArg Route.user (valued_toRoute w db first attributes)
  rw [valued, huser]
  exact withValues_withValues w _ _ _ _

/-! ## A new fleet -/

/-- The attributes of a new fleet of a planet's owner. -/
def newAttributes (db : Db) (planet : PlanetId) (user : UserId) : Attributes where
  user := user
  missionId := 1
  departureTime := db.now
  arrivalTime := db.now
  startPlanet := planet
  targetPlanet := planet
  originPlanet := planet
  ore := 0
  crystal := 0
  credit := 0
  ressourceCapacity := 0
  storageFactor := (db.users user).userSetting.increasedCapacity
  velocityFactor := (db.users user).userSetting.increasedMovement
  offense := 0
  defense := 0

theorem new_apply {db : Db} {planet : PlanetId} {user : UserId}
    (howner : (db.planets planet).user = some user) :
    (new planet).run db =
      .ok { newAttributes db planet user with id := db.fleets.nextId }
        (db.setFleets (db.fleets.create ⟨newAttributes db planet user, []⟩)) := by
  rw [new, run_bind_get, howner]
  rfl

theorem new_of_unowned {db : Db} {planet : PlanetId} (howner : (db.planets planet).user = none) :
    (new planet).run db = .error .noMethodError db := by
  rw [new, run_bind_get, howner]
  rfl

/-! ## Split -/

/-- The fleet that stays when the ships of the hash leave. -/
def staying (db : Db) (shipHash : Hash ShipId ℤ) (rows : List Shipfleet) (self : Fleet) : Fleet :=
  revalued w db (removed shipHash rows) self

/-- The new fleet with the ships of the hash. -/
def leaving (db : Db) (shipHash : Hash ShipId ℤ) (user : UserId) (self : Fleet) : Fleet :=
  { valued w db (added shipHash []) (newAttributes db self.originPlanet user) with
    id := db.fleets.nextId }

/-- The fleet table after a split. -/
def splitTable (db : Db) (shipHash : Hash ShipId ℤ) (user : UserId) (rows : List Shipfleet)
    (self : Fleet) : Table FleetRow :=
  (db.fleets.put self.id
    ⟨(staying w db shipHash rows self).toAttributes, removed shipHash rows⟩).create
      ⟨(leaving w db shipHash user self).toAttributes, added shipHash []⟩

/-- The staying ships do not hold what the fleet has loaded. -/
def Overloaded (db : Db) (shipHash : Hash ShipId ℤ) (rows : List Shipfleet) (self : Fleet) : Prop :=
  (staying w db shipHash rows self).getCapacity < (self.getAmountOfRessources : Numeric)

instance (db : Db) (shipHash : Hash ShipId ℤ) (rows : List Shipfleet) (self : Fleet) :
    Decidable (Overloaded w db shipHash rows self) :=
  inferInstanceAs (Decidable (_ < _))

/-- The part of the old capacity that leaves. -/
def splitFactor (db : Db) (shipHash : Hash ShipId ℤ) (user : UserId) (rows : List Shipfleet)
    (self : Fleet) : Numeric :=
  (leaving w db shipHash user self).getCapacity / (revalued w db rows self).getCapacity

/-- The objects a split gives back, or what it raises when it divides by no capacity. -/
def splitFleets (db : Db) (shipHash : Hash ShipId ℤ) (user : UserId) (rows : List Shipfleet)
    (self : Fleet) : Except Err (Fleet × Fleet) :=
  let stays := staying w db shipHash rows self
  let leaves := leaving w db shipHash user self
  if Overloaded w db shipHash rows self then
    if (revalued w db rows self).getCapacity.value = 0 then .error .floatDomainError
    else
      let factor := splitFactor w db shipHash user rows self
      .ok (stays.withShare stays (1 - factor), leaves.withShare stays factor)
  else .ok (stays, leaves)

theorem splitFleets_ids {db : Db} {shipHash : Hash ShipId ℤ} {user : UserId}
    {rows : List Shipfleet} {self stays leaves : Fleet}
    (hfleets : splitFleets w db shipHash user rows self = .ok (stays, leaves)) :
    stays.id = self.id ∧ leaves.id = db.fleets.nextId := by
  unfold splitFleets at hfleets
  dsimp only at hfleets
  split at hfleets
  · split at hfleets
    · cases hfleets
    · cases hfleets
      exact ⟨rfl, rfl⟩
  · cases hfleets
    exact ⟨rfl, rfl⟩

@[simp] theorem getAmountOfRessources_revalued (db : Db) (rows : List Shipfleet) (self : Fleet) :
    (revalued w db rows self).getAmountOfRessources = self.getAmountOfRessources := by
  unfold getAmountOfRessources
  simp only [revalued_toAttributes, valued_toCargo]

section Split

variable {db : Db} {self : Fleet} {row : FleetRow} {shipHash : Hash ShipId ℤ} {user : UserId}

theorem splitFleet_not_enough (hget : db.fleets.get self.id = some row)
    (henough : ¬ enoughShips? row.shipfleets shipHash = true) :
    (self.splitFleet w shipHash).run db =
      .error (.runtimeError "Not enough ships for a split") db := by
  rw [splitFleet, run_bind_of_ok (shipfleets_apply hget), if_pos (by simpa using henough),
    run_bind_raise]

/-- A split of a fleet whose origin has no owner raises after it saved new values. -/
theorem splitFleet_of_unowned (hget : db.fleets.get self.id = some row)
    (henough : enoughShips? row.shipfleets shipHash = true)
    (howner : (db.planets self.originPlanet).user = none) :
    (self.splitFleet w shipHash).run db =
      .error .noMethodError (db.setFleets (db.fleets.put self.id
        ⟨valued w db row.shipfleets self.toAttributes, row.shipfleets⟩)) := by
  rw [splitFleet, run_bind_of_ok (shipfleets_apply hget), if_neg (by simp [henough]),
    run_bind_of_ok (updateValues_apply w hget)]
  have horigin : (revalued w db row.shipfleets self).originPlanet = self.originPlanet :=
    congrArg Route.originPlanet (valued_toRoute w db row.shipfleets self.toAttributes)
  refine run_bind_of_error (new_of_unowned ?_) _
  rw [horigin]
  exact howner

theorem splitFleet_apply (hget : db.fleets.get self.id = some row)
    (henough : enoughShips? row.shipfleets shipHash = true)
    (howner : (db.planets self.originPlanet).user = some user) :
    (self.splitFleet w shipHash).run db =
      match splitFleets w db shipHash user row.shipfleets self with
      | .ok fleets => .ok fleets (db.setFleets (splitTable w db shipHash user row.shipfleets self))
      | .error err =>
          .error err (db.setFleets (splitTable w db shipHash user row.shipfleets self)) := by
  have horigin : (revalued w db row.shipfleets self).originPlanet = self.originPlanet :=
    congrArg Route.originPlanet (valued_toRoute w db row.shipfleets self.toAttributes)
  have hvalid := hashIsValid?_of_enough henough
  -- the states after the four writes
  let valuedRow : FleetRow := ⟨valued w db row.shipfleets self.toAttributes, row.shipfleets⟩
  let newRow : FleetRow := ⟨newAttributes db self.originPlanet user, []⟩
  let first := db.fleets.put self.id valuedRow
  have hfirst : first.get self.id = some valuedRow := (Table.get_put _ hget _).trans (if_pos rfl)
  have hne : self.id ≠ db.fleets.nextId := Table.ne_nextId hget
  have hnew : (new (revalued w db row.shipfleets self).originPlanet).run (db.setFleets first) =
      .ok { newAttributes db self.originPlanet user with id := db.fleets.nextId }
        (db.setFleets (first.create newRow)) := by
    rw [horigin]
    exact new_apply howner
  have hsave : ({ newAttributes db self.originPlanet user with id := db.fleets.nextId } : Fleet).save.run
      (db.setFleets (first.create newRow)) = .ok ⟨⟩ (db.setFleets (first.create newRow)) := by
    rw [save_apply (Table.get_create_self first newRow)]
    simp only [Db.setFleets_setFleets, Db.fleets_setFleets]
    rw [show db.fleets.nextId = first.nextId from rfl, Table.put_create_self]
  have hadd : (({ newAttributes db self.originPlanet user with id := db.fleets.nextId } : Fleet).addShips
      w shipHash).run (db.setFleets (first.create newRow)) =
        .ok (leaving w db shipHash user self) (db.setFleets (first.create
          ⟨(leaving w db shipHash user self).toAttributes, added shipHash []⟩)) := by
    rw [addShips_apply w (Table.get_create_self first newRow) hvalid]
    simp only [Db.setFleets_setFleets, Db.fleets_setFleets]
    rw [show db.fleets.nextId = first.nextId from rfl, Table.put_create_self]
    rfl
  have hdestroy : ((revalued w db row.shipfleets self).destroyShips w shipHash).run
      (db.setFleets (first.create
        ⟨(leaving w db shipHash user self).toAttributes, added shipHash []⟩)) =
        .ok (staying w db shipHash row.shipfleets self)
          (db.setFleets (splitTable w db shipHash user row.shipfleets self)) := by
    have hcreated : (db.setFleets (first.create ⟨(leaving w db shipHash user self).toAttributes,
        added shipHash []⟩)).fleets.get (revalued w db row.shipfleets self).id = some valuedRow :=
      Table.get_create_of_some _ hfirst
    refine (destroyShips_apply w hcreated henough).trans ?_
    simp only [Db.setFleets_setFleets, Db.fleets_setFleets, revalued_id, revalued_toAttributes,
      valued_setFleets]
    rw [Table.put_create_of_some _ _ hfirst, Table.put_put, valued_valued]
    refine congrArg (fun fleet => EStateM.Result.ok fleet _) ?_
    unfold staying revalued
    dsimp only
    rw [valued_setFleets, valued_valued]
  rw [splitFleet, run_bind_of_ok (shipfleets_apply hget), if_neg (by simp [henough]),
    run_bind_of_ok (updateValues_apply w hget), run_bind_of_ok hnew, run_bind_of_ok hsave,
    run_bind_of_ok hadd, run_bind_of_ok hdestroy]
  have hover : (staying w db shipHash row.shipfleets self).getCapacity <
      ((staying w db shipHash row.shipfleets self).getAmountOfRessources : Numeric) ↔
        Overloaded w db shipHash row.shipfleets self := by
    unfold Overloaded
    unfold staying
    rw [getAmountOfRessources_revalued]
  unfold splitFleets
  by_cases hoverloaded : Overloaded w db shipHash row.shipfleets self
  · rw [if_pos (hover.mpr hoverloaded), if_pos hoverloaded]
    by_cases hzero : (revalued w db row.shipfleets self).getCapacity.value = 0
    · rw [if_pos hzero, if_pos hzero, run_bind_throw]
    · rw [if_neg hzero, if_neg hzero]
      rfl
  · rw [if_neg (mt hover.mp hoverloaded), if_neg hoverloaded]
    rfl

end Split

/-! ## Merge -/

/-- The object with the cargo of both fleets. -/
def withCargoOf (self fleet : Fleet) : Fleet :=
  { self with
    ore := self.ore + fleet.ore
    credit := self.credit + fleet.credit
    crystal := self.crystal + fleet.crystal }

/-- The fleet that another one was merged into. -/
def merged (db : Db) (rows fleetRows : List Shipfleet) (self fleet : Fleet) : Fleet :=
  revalued w db (added (shipsOf fleetRows) rows) (self.withCargoOf fleet)

section Merge

variable {db : Db} {self fleet : Fleet} {row fleetRow : FleetRow}

theorem updateValuesOf_apply {types : List ShipId} (hget : db.fleets.get self.id = some row)
    (htypes : types = typesOf row.shipfleets) :
    (self.updateValuesOf w types).run db = .ok (revalued w db row.shipfleets self)
      (db.setFleets (db.fleets.put self.id
        ⟨valued w db row.shipfleets self.toAttributes, row.shipfleets⟩)) := by
  rw [htypes, ← updateValues_apply w hget, updateValues, run_bind_of_ok (ships_apply hget)]

theorem mergeFleet_apply (hself : db.fleets.get self.id = some row)
    (hfleet : db.fleets.get fleet.id = some fleetRow) (hne : self.id ≠ fleet.id)
    (hvalid : hashIsValid? (shipsOf fleetRow.shipfleets) = true) :
    (self.mergeFleet w (some fleet)).run db =
      .ok (merged w db row.shipfleets fleetRow.shipfleets self fleet)
        (db.setFleets ((db.fleets.put self.id
          ⟨(merged w db row.shipfleets fleetRow.shipfleets self fleet).toAttributes,
            added (shipsOf fleetRow.shipfleets) row.shipfleets⟩).destroy fleet.id)) := by
  let mergedRow : FleetRow :=
    ⟨(merged w db row.shipfleets fleetRow.shipfleets self fleet).toAttributes,
      added (shipsOf fleetRow.shipfleets) row.shipfleets⟩
  have hput : (db.fleets.put self.id mergedRow).get self.id = some mergedRow :=
    (Table.get_put _ hself _).trans (if_pos rfl)
  have hleft : ((db.fleets.put self.id mergedRow).destroy fleet.id).get self.id = some mergedRow := by
    rw [Table.get_destroy_of_ne _ hne, hput]
  have hadd := addShips_apply w
    (show db.fleets.get (self.withCargoOf fleet).id = some row from hself) hvalid
  rw [mergeFleet, run_bind_of_ok (getShips_apply hfleet)]
  refine (run_bind_of_ok hadd _).trans ?_
  refine (run_bind_of_ok (ships_apply hput) _).trans ?_
  refine (run_bind_of_ok (destroy_apply _ fleet) _).trans ?_
  refine (updateValuesOf_apply w hleft rfl).trans ?_
  have hfleets : ((db.fleets.put self.id mergedRow).destroy fleet.id).put self.id mergedRow =
      (db.fleets.put self.id mergedRow).destroy fleet.id :=
    Table.put_self hleft
  have hvalued : valued w db mergedRow.shipfleets
      (merged w db row.shipfleets fleetRow.shipfleets self fleet).toAttributes =
        mergedRow.attributes := by
    unfold mergedRow merged
    rw [revalued_toAttributes, valued_valued]
  have hobject : revalued w db mergedRow.shipfleets
      (merged w db row.shipfleets fleetRow.shipfleets self fleet) =
        merged w db row.shipfleets fleetRow.shipfleets self fleet := by
    unfold revalued
    rw [hvalued]
  exact congrArg₂ EStateM.Result.ok hobject
    (congrArg db.setFleets ((congrArg (Table.put _ self.id)
      (congrArg (FleetRow.mk · mergedRow.shipfleets) hvalued)).trans hfleets))

/-- Without its rows, an object that knows ship types cannot compute its values. -/
theorem updateValuesOf_of_none {types : List ShipId} (hget : db.fleets.get self.id = none) :
    (self.updateValuesOf w types).run db =
      if types = [] then .ok (revalued w db [] self) db else .error .noMethodError db := by
  have hrows : self.shipfleets.run db = .ok [] db := by
    rw [shipfleets, run_bind_get, hget]
    rfl
  cases types with
  | nil =>
      have hships : (getShipsOf [] self).run db = .ok (shipsOf []) db := by
        rw [getShipsOf, run_bind_of_ok hrows]
        rfl
      rw [if_pos rfl, updateValuesOf, run_bind_of_ok hships, run_bind_get]
      have hsave := save_of_none (show db.fleets.get (revalued w db [] self).id = none from hget)
      exact run_bind_of_ok hsave _
  | cons ship types =>
      have hships : (getShipsOf (ship :: types) self).run db = .error .noMethodError db := by
        rw [getShipsOf, run_bind_of_ok hrows]
        rfl
      rw [if_neg (List.cons_ne_nil ship types), updateValuesOf]
      exact run_bind_of_error hships _

/-- A fleet that is merged into itself is gone, and its ships with it. -/
theorem mergeFleet_self (hself : db.fleets.get self.id = some row) (hid : self.id = fleet.id)
    (hvalid : hashIsValid? (shipsOf row.shipfleets) = true) :
    after ((self.mergeFleet w (some fleet)).run db) = db.setFleets (db.fleets.destroy self.id) ∧
      (returned ((self.mergeFleet w (some fleet)).run db) = true ↔ row.shipfleets = []) := by
  have hfleet : db.fleets.get fleet.id = some row := hid ▸ hself
  let mergedRow : FleetRow :=
    ⟨(merged w db row.shipfleets row.shipfleets self fleet).toAttributes,
      added (shipsOf row.shipfleets) row.shipfleets⟩
  have hput : (db.fleets.put self.id mergedRow).get self.id = some mergedRow :=
    (Table.get_put _ hself _).trans (if_pos rfl)
  have hadd := addShips_apply w
    (show db.fleets.get (self.withCargoOf fleet).id = some row from hself) hvalid
  let left := (db.fleets.put self.id mergedRow).destroy self.id
  have hleft : left = db.fleets.destroy self.id := Table.destroy_put_self _ _ _
  have hrun : (self.mergeFleet w (some fleet)).run db =
      if typesOf mergedRow.shipfleets = [] then
        .ok (revalued w db [] (merged w db row.shipfleets row.shipfleets self fleet))
          (db.setFleets left)
      else .error .noMethodError (db.setFleets left) := by
    rw [mergeFleet, run_bind_of_ok (getShips_apply hfleet)]
    refine (run_bind_of_ok hadd _).trans ?_
    refine (run_bind_of_ok (ships_apply hput) _).trans ?_
    refine (run_bind_of_ok (destroy_apply _ fleet) _).trans ?_
    rw [← hid]
    exact updateValuesOf_of_none w (Table.get_destroy_self _ _)
  have htypes : typesOf mergedRow.shipfleets = typesOf row.shipfleets := by
    unfold mergedRow
    rw [added_eq_changeAll fun key hkey => mem_keys_shipsOf.mp hkey, typesOf_changeAll]
  rw [hrun, htypes, hleft]
  by_cases hnil : row.shipfleets = []
  · simp [hnil, typesOf]
  · simp [hnil, typesOf]

end Merge

end Fleet

end Mmog
