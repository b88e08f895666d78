import Mmog.Missions.Cargo

/-!
# A split that is undone

`move` and `check_helper` merge the fleets of a split again when the mission
does not start.  The ships come back as they were; of the cargo, the shares do.
-/

namespace Mmog

open Ruby Action

instance : Add Cargo := ⟨fun a b => ⟨a.ore + b.ore, a.crystal + b.crystal, a.credit + b.credit⟩⟩

instance : Zero Cargo := ⟨⟨0, 0, 0⟩⟩

attribute [ext] Cargo

namespace Cargo

@[simp] theorem add_ore (a b : Cargo) : (a + b).ore = a.ore + b.ore := rfl
@[simp] theorem add_crystal (a b : Cargo) : (a + b).crystal = a.crystal + b.crystal := rfl
@[simp] theorem add_credit (a b : Cargo) : (a + b).credit = a.credit + b.credit := rfl
@[simp] theorem zero_ore : (0 : Cargo).ore = 0 := rfl
@[simp] theorem zero_crystal : (0 : Cargo).crystal = 0 := rfl
@[simp] theorem zero_credit : (0 : Cargo).credit = 0 := rfl

theorem add_nothing (a : Cargo) : a + 0 = a := by
  ext <;> simp

/-- What was handed over counts twice unless it is nothing. -/
theorem adds_nothing_iff (base handed cargo : Cargo) :
    (∀ loaded, cargo = handed + loaded → base + cargo = base + loaded) ↔ handed = 0 := by
  constructor
  · intro hall
    have heq := hall ⟨cargo.ore - handed.ore, cargo.crystal - handed.crystal,
      cargo.credit - handed.credit⟩ (by ext <;> simp)
    have hparts := Cargo.ext_iff.mp heq
    simp only [add_ore, add_crystal, add_credit] at hparts
    ext <;> simp <;> omega
  · rintro rfl loaded rfl
    ext <;> simp

end Cargo

namespace Fleet

variable (w : World)

/-- The share of each kind of cargo. -/
def shares (cargo : Cargo) (factor : Numeric) : Cargo :=
  ⟨share cargo.ore factor, share cargo.crystal factor, share cargo.credit factor⟩

@[simp] theorem staying_id (db : Db) (shipHash : Hash ShipId ℤ) (rows : List Shipfleet)
    (self : Fleet) : (staying w db shipHash rows self).id = self.id := rfl

@[simp] theorem leaving_id (db : Db) (shipHash : Hash ShipId ℤ) (user : UserId) (self : Fleet) :
    (leaving w db shipHash user self).id = db.fleets.nextId := rfl

/-- The new fleet is one at the home of the first one, and belongs to the planet's owner. -/
theorem leaving_toRoute (db : Db) (shipHash : Hash ShipId ℤ) (user : UserId) (self : Fleet) :
    (leaving w db shipHash user self).toRoute =
      (newAttributes db self.originPlanet user).toRoute :=
  valued_toRoute w db _ _

theorem leaving_originPlanet (db : Db) (shipHash : Hash ShipId ℤ) (user : UserId) (self : Fleet) :
    (leaving w db shipHash user self).originPlanet = self.originPlanet :=
  (congrArg Route.originPlanet (leaving_toRoute w db shipHash user self)).trans rfl

theorem staying_toRoute (db : Db) (shipHash : Hash ShipId ℤ) (rows : List Shipfleet)
    (self : Fleet) : (staying w db shipHash rows self).toRoute = self.toRoute :=
  valued_toRoute w db _ _

theorem staying_toCargo (db : Db) (shipHash : Hash ShipId ℤ) (rows : List Shipfleet)
    (self : Fleet) : (staying w db shipHash rows self).toCargo = self.toCargo :=
  valued_toCargo w db _ _

theorem leaving_toCargo (db : Db) (shipHash : Hash ShipId ℤ) (user : UserId) (self : Fleet) :
    (leaving w db shipHash user self).toCargo = 0 :=
  valued_toCargo w db _ _

section Split

variable (db : Db) (shipHash : Hash ShipId ℤ) (user : UserId) (rows : List Shipfleet) (self : Fleet)

/-- The old capacity, by which a split divides, is zero. -/
def SplitFails : Prop :=
  Overloaded w db shipHash rows self ∧ (revalued w db rows self).getCapacity.value = 0

instance : Decidable (SplitFails w db shipHash rows self) := inferInstanceAs (Decidable (_ ∧ _))

/-- The cargo of the two objects that a split gives back. -/
def splitCargo : Cargo × Cargo :=
  if Overloaded w db shipHash rows self then
    let factor := splitFactor w db shipHash user rows self
    (shares self.toCargo (1 - factor), shares self.toCargo factor)
  else (self.toCargo, 0)

theorem splitFleets_eq :
    splitFleets w db shipHash user rows self =
      if SplitFails w db shipHash rows self then .error .floatDomainError
      else
        .ok ((staying w db shipHash rows self).withCargo
            (splitCargo w db shipHash user rows self).1,
          (leaving w db shipHash user self).withCargo
            (splitCargo w db shipHash user rows self).2) := by
  have hstays := staying_toCargo w db shipHash rows self
  have hleaves := leaving_toCargo w db shipHash user self
  unfold splitFleets SplitFails splitCargo
  by_cases hover : Overloaded w db shipHash rows self
  · by_cases hzero : (revalued w db rows self).getCapacity.value = 0
    · simp [hover, hzero]
    · simp only [hover, hzero, and_false, if_true, if_false, withShare, shares, withCargo]
      rw [← hstays]
  · simp only [hover, false_and, if_false, withCargo]
    rw [← hstays, ← hleaves]

end Split

section Run

variable {db : Db} {self : Fleet} {row : FleetRow} {shipHash : Hash ShipId ℤ} {user : UserId}

/-- What a split of a fleet with an owned origin does. -/
theorem splitFleet_ok (hget : db.fleets.get self.id = some row)
    (henough : enoughShips? row.shipfleets shipHash = true)
    (howner : (db.planets self.originPlanet).user = some user)
    (hfails : ¬ SplitFails w db shipHash row.shipfleets self) :
    (self.splitFleet w shipHash).run db =
      .ok ((staying w db shipHash row.shipfleets self).withCargo
          (splitCargo w db shipHash user row.shipfleets self).1,
        (leaving w db shipHash user self).withCargo
          (splitCargo w db shipHash user row.shipfleets self).2)
        (db.setFleets (splitTable w db shipHash user row.shipfleets self)) := by
  rw [splitFleet_apply w hget henough howner, splitFleets_eq, if_neg hfails]

/-- A split by no capacity raises after the ships have been moved. -/
theorem splitFleet_fails (hget : db.fleets.get self.id = some row)
    (henough : enoughShips? row.shipfleets shipHash = true)
    (howner : (db.planets self.originPlanet).user = some user)
    (hfails : SplitFails w db shipHash row.shipfleets self) :
    (self.splitFleet w shipHash).run db = .error .floatDomainError
      (db.setFleets (splitTable w db shipHash user row.shipfleets self)) := by
  rw [splitFleet_apply w hget henough howner, splitFleets_eq, if_pos hfails]

end Run

/-! ## Merging back -/

theorem valued_withCargo (db : Db) (rows : List Shipfleet) (attributes : Attributes)
    (cargo : Cargo) :
    valued w db rows { attributes with toCargo := cargo } =
      { valued w db rows attributes with toCargo := cargo } := by
  unfold valued withValues atHome
  dsimp only
  split <;> rfl

/-- The row of a fleet that got its ships back, with this cargo. -/
def restored (db : Db) (rows : List Shipfleet) (self : Fleet) (cargo : Cargo) : FleetRow :=
  ⟨{ valued w db rows self.toAttributes with toCargo := cargo }, rows⟩

section Back

variable {db : Db} {self : Fleet} {row : FleetRow} {shipHash : Hash ShipId ℤ} {user : UserId}

theorem get_splitTable_self (hget : db.fleets.get self.id = some row) :
    (splitTable w db shipHash user row.shipfleets self).get self.id =
      some ⟨(staying w db shipHash row.shipfleets self).toAttributes,
        removed shipHash row.shipfleets⟩ :=
  Table.get_create_of_some _ ((Table.get_put _ hget _).trans (if_pos rfl))

variable (db self row shipHash user) in
theorem get_splitTable_new :
    (splitTable w db shipHash user row.shipfleets self).get db.fleets.nextId =
      some ⟨(leaving w db shipHash user self).toAttributes, added shipHash []⟩ :=
  Table.get_create_self _ _

theorem get_splitTable_of_ne {id : FleetId} (hself : id ≠ self.id) (hnew : id ≠ db.fleets.nextId) :
    (splitTable w db shipHash user row.shipfleets self).get id = db.fleets.get id := by
  rw [splitTable, Table.get_create, Table.nextId_put, if_neg hnew, Table.put,
    Table.get_modify_of_ne _ _ hself]

/-- Merging the two fleets of a split gives the first one its ships back. -/
theorem mergeFleet_split (hget : db.fleets.get self.id = some row)
    (henough : enoughShips? row.shipfleets shipHash = true) (kept taken : Cargo) (fleet : Fleet)
    (hid : fleet.id = db.fleets.nextId) (hcargo : fleet.toCargo = taken) :
    ∃ next whole,
      (((staying w db shipHash row.shipfleets self).withCargo kept).mergeFleet w (some fleet)).run
          (db.setFleets (splitTable w db shipHash user row.shipfleets self)) = .ok whole next ∧
      next = db.setFleets
        (db.fleets.put self.id (restored w db row.shipfleets self (kept + taken))).skip := by
  let stays := (staying w db shipHash row.shipfleets self).withCargo kept
  have hne : stays.id ≠ fleet.id := by
    rw [hid]
    exact Table.ne_nextId hget
  have hvalid : hashIsValid? (shipsOf (added shipHash [])) = true := by
    rw [shipsOf_added_nil]
    exact hashIsValid?_of_enough henough
  have hnew : (splitTable w db shipHash user row.shipfleets self).get fleet.id =
      some ⟨(leaving w db shipHash user self).toAttributes, added shipHash []⟩ := by
    rw [hid]
    exact get_splitTable_new w _ _ _ _ _
  have hrows : added (shipsOf (added shipHash [])) (removed shipHash row.shipfleets) =
      row.shipfleets := by
    rw [shipsOf_added_nil, added_removed fun _ => mem_typesOf_of_enough henough]
  have hstays : (db.setFleets (splitTable w db shipHash user row.shipfleets self)).fleets.get
      stays.id = _ := get_splitTable_self w hget
  have hmerge := mergeFleet_apply w hstays hnew hne hvalid
  have hcargos : (stays.withCargoOf fleet).toAttributes =
      { valued w db (removed shipHash row.shipfleets) self.toAttributes with
        toCargo := kept + taken } := by
    rw [← hcargo]
    rfl
  have hattributes : (merged w (db.setFleets (splitTable w db shipHash user row.shipfleets self))
      (removed shipHash row.shipfleets) (added shipHash []) stays fleet).toAttributes =
        (restored w db row.shipfleets self (kept + taken)).attributes := by
    rw [merged, hrows, revalued_toAttributes, hcargos, valued_withCargo, valued_setFleets,
      valued_valued]
    rfl
  refine ⟨_, _, hmerge, ?_⟩
  rw [Db.setFleets_setFleets, hattributes, hrows, hid]
  refine congrArg db.setFleets ?_
  have hput : (db.fleets.put self.id ⟨(staying w db shipHash row.shipfleets self).toAttributes,
      removed shipHash row.shipfleets⟩).get self.id = some _ :=
    (Table.get_put _ hget _).trans (if_pos rfl)
  rw [Db.fleets_setFleets, splitTable, show stays.id = self.id from rfl,
    Table.put_create_of_some _ _ hput, Table.put_put]
  exact Table.destroy_create_self _ _

end Back

end Fleet

end Mmog
