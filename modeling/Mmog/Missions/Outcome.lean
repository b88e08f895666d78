import Mmog.Missions.Move

/-!
# The outcomes of a move

Each way a call of `move` can end, with the condition under which it does and
the state it leaves.
-/

namespace Mmog

open Ruby Action

namespace Fleet

variable (w : World)

section Outcome

variable (db : Db) (self : Fleet) (row : FleetRow) (mission : MissionId) (destination : PlanetId)
variable (shipHash : Hash ShipId ℤ) (ore crystal credit : ℤ)

/-- The time and the energy that `move` computes for the ships of the hash. -/
def moveNeeds (user : UserId) : Option (Numeric × Numeric) :=
  flightOf w (leaving w db shipHash user self).velocityFactor (added shipHash [])
    (w.getDistance self.originPlanet destination)

/-- The fleet that `move` sends. -/
def mover (user : UserId) (time : Numeric) : Fleet :=
  outbound db ((leaving w db shipHash user self).withCargo
    (splitCargo w db shipHash user row.shipfleets self).2) time destination

/-- The origin planet can pay for a mission that a fleet can start. -/
def Affordable (energy : Numeric) : Prop :=
  Starts mission ∧ MissionsController.doubled mission energy ≤
    ((db.planets self.originPlanet).energy : Numeric)

/-- The ways `move` can end. -/
inductive MoveOutcome : EStateM.Result Err Db Unit → Prop
  | refused (message : String)
      (hrefused : ¬ (atHome self.toAttributes = true ∧
        enoughShips? row.shipfleets shipHash = true)) :
      MoveOutcome (.error (.runtimeError message) db)
  | unowned (hhome : atHome self.toAttributes = true)
      (henough : enoughShips? row.shipfleets shipHash = true)
      (howner : (db.planets self.originPlanet).user = none) :
      MoveOutcome (.error .noMethodError (db.setFleets (db.fleets.put self.id
        ⟨valued w db row.shipfleets self.toAttributes, row.shipfleets⟩)))
  | leftSplit (user : UserId) (err : Err) (hhome : atHome self.toAttributes = true)
      (henough : enoughShips? row.shipfleets shipHash = true)
      (howner : (db.planets self.originPlanet).user = some user)
      (hstuck : SplitFails w db shipHash row.shipfleets self ∨ shipHash.entries = []) :
      MoveOutcome (.error err (db.setFleets (splitTable w db shipHash user row.shipfleets self)))
  | mergedBack (user : UserId) (time energy : Numeric) (err : Err)
      (hhome : atHome self.toAttributes = true)
      (henough : enoughShips? row.shipfleets shipHash = true)
      (howner : (db.planets self.originPlanet).user = some user)
      (hfails : ¬ SplitFails w db shipHash row.shipfleets self) (hships : shipHash.entries ≠ [])
      (hneeds : moveNeeds w db self destination shipHash user = some (time, energy))
      (hpoor : ¬ Affordable db self mission energy) :
      MoveOutcome (.error err (db.setFleets (db.fleets.put self.id
        (restored w db row.shipfleets self
          ((splitCargo w db shipHash user row.shipfleets self).1 +
            (splitCargo w db shipHash user row.shipfleets self).2))).skip))
  | stopped (user : UserId) (time energy : Numeric) (err : Err) (next : Db) (old : FleetRow)
      (hhome : atHome self.toAttributes = true)
      (henough : enoughShips? row.shipfleets shipHash = true)
      (howner : (db.planets self.originPlanet).user = some user)
      (hfails : ¬ SplitFails w db shipHash row.shipfleets self) (hships : shipHash.entries ≠ [])
      (hneeds : moveNeeds w db self destination shipHash user = some (time, energy))
      (hpaid : Affordable db self mission energy)
      (hready : ¬ MissionReady mission shipHash ore crystal credit)
      (hnew : next.fleets.get db.fleets.nextId = some old) :
      MoveOutcome (.error err next)
  | left (user : UserId) (time energy : Numeric) (cargo : Cargo) (next : Db)
      (hhome : atHome self.toAttributes = true)
      (henough : enoughShips? row.shipfleets shipHash = true)
      (howner : (db.planets self.originPlanet).user = some user)
      (hfails : ¬ SplitFails w db shipHash row.shipfleets self) (hships : shipHash.entries ≠ [])
      (hneeds : moveNeeds w db self destination shipHash user = some (time, energy))
      (hpaid : Affordable db self mission energy)
      (hready : MissionReady mission shipHash ore crystal credit)
      (hboard : next.board =
        departedBoard (db.setFleets (splitTable w db shipHash user row.shipfleets self))
          (mover w db self row destination shipHash user time) (added shipHash []) mission
          (MissionsController.doubled mission energy) cargo)
      (hcargo : LeavesWith db.Stocked mission
        (mover w db self row destination shipHash user time) cargo)
      (hstocked : db.Stocked → next.Stocked) :
      MoveOutcome (.ok ⟨⟩ next)

end Outcome

variable {db : Db} {self : Fleet} {row : FleetRow} {shipHash : Hash ShipId ℤ}

theorem mover_originPlanet (destination : PlanetId) (user : UserId) (time : Numeric) :
    (mover w db self row destination shipHash user time).originPlanet = self.originPlanet :=
  leaving_originPlanet w db shipHash user self

theorem added_nil_ne_nil (hships : shipHash.entries ≠ []) : added shipHash [] ≠ [] := by
  intro hnil
  have htypes : typesOf (added shipHash []) = shipHash.keys := by
    rw [typesOf_added]
    simp [typesOf, Hash.keys, Hash.filterKeys]
  rw [hnil, eq_comm] at htypes
  exact hships (List.map_eq_nil_iff.mp htypes)

theorem moveNeeds_isSome (hships : shipHash.entries ≠ []) (destination : PlanetId)
    (user : UserId) :
    ∃ time energy, moveNeeds w db self destination shipHash user = some (time, energy) := by
  obtain ⟨⟨time, energy⟩, hneeds⟩ := flightOf_isSome w
    (added_nil_ne_nil hships) (w.getDistance self.originPlanet destination)
  exact ⟨time, energy, hneeds⟩

theorem mover_arrivalTime_nonneg {destination : PlanetId} {user : UserId} {time energy : Numeric}
    (hneeds : moveNeeds w db self destination shipHash user = some (time, energy)) :
    0 ≤ (mover w db self row destination shipHash user time).arrivalTime := by
  have htime := flightOf_nonneg w (w.getDistance_nonneg self.originPlanet destination) hneeds
  have hnow : 0 ≤ ((db.now : ℤ) : Numeric).value := by
    rw [Numeric.value_int]
    positivity
  exact Numeric.toI_nonneg (Numeric.value_add_nonneg hnow htime)

/-- Every call of `move` has one of the outcomes. -/
theorem move_outcome (self : Fleet) (hget : db.fleets.get self.id = some row) (mission : MissionId)
    (destination : PlanetId) (shipHash : Hash ShipId ℤ) (ore crystal credit : ℤ) :
    MoveOutcome w db self row mission destination shipHash ore crystal credit
      ((self.move w mission destination shipHash ore crystal credit).run db) := by
  by_cases hhome : atHome self.toAttributes = true
  swap
  · obtain ⟨message, hrun⟩ := move_away w
      hhome
    rw [hrun]
    exact .refused message fun h => hhome h.1
  by_cases henough : enoughShips? row.shipfleets shipHash = true
  swap
  · rw [move_not_enough w hget hhome henough]
    exact .refused _ fun h => henough h.2
  cases howner : (db.planets self.originPlanet).user with
  | none =>
      rw [move_of_unowned w hget hhome henough howner]
      exact .unowned hhome henough howner
  | some user =>
      by_cases hfails : SplitFails w db shipHash row.shipfleets self
      · rw [move_split_fails w hget hhome henough howner hfails]
        exact .leftSplit user _ hhome henough howner (.inl hfails)
      by_cases hships : shipHash.entries = []
      · rw [move_no_ships w hget hhome henough howner hfails hships]
        exact .leftSplit user _ hhome henough howner (.inr hships)
      obtain ⟨time, energy, hneeds⟩ :=
        moveNeeds_isSome w hships destination user
      have hnew := get_splitTable_new w db self row shipHash user
      rw [move_launch w hget hhome henough howner hfails hneeds]
      by_cases hpaid : Affordable db self mission energy
      swap
      · obtain ⟨next, whole, hmerge, rfl⟩ := mergeFleet_split w hget henough
          (splitCargo w db shipHash user row.shipfleets self).1
          (splitCargo w db shipHash user row.shipfleets self).2
          (mover w db self row destination shipHash user time) rfl rfl
        obtain ⟨err, hrun⟩ := launch_merges w
          (by rw [mover_originPlanet]; exact hpaid) hmerge destination
        refine cast (congrArg _ hrun.symm) ?_
        exact .mergedBack user time energy err hhome henough howner hfails hships hneeds hpaid
      have henergy : MissionsController.doubled mission energy ≤
          (((db.setFleets (splitTable w db shipHash user row.shipfleets self)).planets
            (mover w db self row destination shipHash user time).originPlanet).energy : Numeric) := by
        rw [mover_originPlanet]
        exact hpaid.2
      by_cases hready : MissionReady mission shipHash ore crystal credit
      · obtain ⟨cargo, next, hrun, hboard, hcargo, hstocked⟩ := launch_ok w
          hnew
          (mover_arrivalTime_nonneg w hneeds) hpaid.1 henergy
          (by rw [shipsOf_added_nil]; exact hready)
        refine cast (congrArg _ hrun.symm) ?_
        exact .left user time energy cargo next hhome henough howner hfails hships hneeds hpaid
          hready hboard (hcargo.of_imp fun hdb => hdb.setFleets) fun hdb => hstocked hdb.setFleets
      · obtain ⟨err, next, old, hrun, hold⟩ := launch_stopped w
          hnew hpaid.1 henergy
          (by rw [shipsOf_added_nil]; exact hready)
        refine cast (congrArg _ hrun.symm) ?_
        exact .stopped user time energy err next old hhome henough howner hfails hships hneeds
          hpaid hready hold

end Fleet

end Mmog
