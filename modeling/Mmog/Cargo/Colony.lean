import Mmog.Buildings.Count
import Mmog.Cargo.Unloading
import Mmog.Missions.Arrival
import Mmog.Ruby.Grid

/-!
# Colonies

What a fleet that settles brings to the planet and its new owner.  What finds no
room on the planet stays aboard, and if it has no room there without the colony
ship, it is replaced by a third of the capacity of each kind.
-/

namespace Mmog

open Ruby Action Planet

namespace Planet

/-! ## The first buildings -/

/-- The first building of this name costs nothing. -/
def FreeFirst (w : World) (name : BuildingName) : Prop :=
  ∀ type ∈ w.buildingtypes, type.name = name → type.level = 1 → ∀ resource, type.cost resource = 0

/-- Nothing is built on the planet, and the buildings that a new owner gets are free, as those of the game are. -/
structure Bare (w : World) (db : Db) (p : PlanetId) : Prop where
  empty : ∀ building ∈ db.buildings, building.planet ≠ p
  free : ∀ name ∈ [BuildingName.oremine, .headquarter, .powerplant, .city], FreeFirst w name

theorem buildable_of_empty {w : World} {db : Db} {p : PlanetId} {name : BuildingName} {type : Buildingtype}
    (hempty : ∀ building ∈ db.buildings, building.planet ≠ p) (hbuildable : buildable w db p name = some type) :
    type ∈ w.buildingtypes ∧ type.name = name ∧ type.level = 1 := by
  have hnone : db.buildings.filter (·.planet = p) = [] :=
    List.filter_eq_nil_iff.mpr fun building hmem => by simpa using hempty building hmem
  unfold buildable at hbuildable
  dsimp only at hbuildable
  rw [hnone] at hbuildable
  split at hbuildable
  · cases hbuildable
  split at hbuildable
  · cases hbuildable
  dsimp only [List.findSome?_nil] at hbuildable
  split at hbuildable
  · exact typeAt_spec hbuildable
  · cases hbuildable

/-- What a claim leaves of a planet: its new owner may have paid for the first buildings. -/
structure Claimed (w : World) (p : PlanetId) (u : UserId) (done : List BuildingName) (db next : Db) : Prop where
  user : (next.planets p).user = some u
  fleets : next.fleets = db.fleets
  now : next.now = db.now
  buildings : next.buildings = db.buildings
  settings : ∀ v, (next.users v).userSetting = (db.users v).userSetting
  maximum : ∀ type, (next.planets p).maximum type = (db.planets p).maximum type
  le : ∀ type, next.holding p type ≤ db.holding p type
  free : (∀ building ∈ db.buildings, building.planet ≠ p) → (∀ name ∈ done, FreeFirst w name) →
    ∀ type, next.holding p type = db.holding p type

theorem Claimed.constructing {w : World} {p : PlanetId} {u : UserId} {done : List BuildingName} {db later : Db}
    (hlater : Claimed w p u done db later) (id : ℕ) : Claimed w p u done db (constructing later p id) := by
  have hplanet : (Planet.constructing later p id).planets p = { later.planets p with underConstruction := id } :=
    if_pos rfl
  refine ⟨?_, hlater.fleets, hlater.now, hlater.buildings, hlater.settings, fun type => ?_, fun type => ?_,
    fun hempty hfree type => ?_⟩
  · rw [hplanet]
    exact hlater.user
  · rw [hplanet, ← hlater.maximum type]
    cases type <;> rfl
  · rw [holding_constructing]
    exact hlater.le type
  · rw [holding_constructing]
    exact hlater.free hempty hfree type

theorem startBuilding_claimed {w : World} {p : PlanetId} {u : UserId} {done : List BuildingName} {db later : Db}
    (hlater : Claimed w p u done db later) (name : BuildingName) :
    ∃ next, (startBuilding w p name).run later = .ok ⟨⟩ next ∧ Claimed w p u (name :: done) db next := by
  refine ⟨_, startBuilding_run w hlater.user name, Claimed.constructing ?_ 0⟩
  have htail : ∀ {P : BuildingName → Prop}, (∀ other ∈ name :: done, P other) → ∀ other ∈ done, P other :=
    fun hall other hother => hall other (List.mem_cons_of_mem name hother)
  obtain hsame | ⟨type, v, hbuildable, hv, -, hordered⟩ := createBuildingJob_outcome w p name later
  · rw [hsame]
    exact { hlater with free := fun hempty hfree => hlater.free hempty (htail hfree) }
  · rw [hordered]
    have hplanet : (paid later p v type).planets p =
        { later.planets p with
          ore := (later.planets p).ore - type.buildCostOre
          crystal := (later.planets p).crystal - type.buildCostCrystal
          population := (later.planets p).population - type.buildCostPopulation
          underConstruction := type.id } := if_pos rfl
    refine ⟨?_, hlater.fleets, hlater.now, hlater.buildings, fun u' => ?_, fun resource => ?_, fun resource => ?_,
      fun hempty hfree resource => ?_⟩
    · exact (congrArg Planet.user hplanet).trans hlater.user
    · rw [← hlater.settings u']
      change ((later.setMoney v _).users u').userSetting = _
      unfold Db.setMoney
      dsimp only
      split <;> simp_all
    · rw [← hlater.maximum resource]
      change ((paid later p v type).planets p).maximum resource = _
      rw [hplanet]
      cases resource <;> rfl
    · change (paid later p v type).holding p resource ≤ _
      have hle := hlater.le resource
      rw [holding_paid hv]
      omega
    · obtain ⟨hmem, hname, hlevel⟩ := buildable_of_empty (by rwa [hlater.buildings]) hbuildable
      change (paid later p v type).holding p resource = _
      rw [holding_paid hv, hfree name List.mem_cons_self type hmem hname hlevel resource,
        hlater.free hempty (htail hfree) resource, Nat.cast_zero, sub_zero]

/-- Claiming a planet without an owner takes at most what the first buildings cost. -/
theorem claim_claims (w : World) {p : PlanetId} {db : Db} (hfree : (db.planets p).user = none) (u : UserId) :
    ∃ next, (claim w p u).run db = .ok ⟨⟩ next ∧
      Claimed w p u [.city, .powerplant, .headquarter, .oremine]
        (db.setPlanet p { db.planets p with user := some u }) next := by
  have hbegin : Claimed w p u [] (db.setPlanet p { db.planets p with user := some u })
      (db.setPlanet p { db.planets p with user := some u }) :=
    ⟨congrArg Planet.user (if_pos rfl), rfl, rfl, rfl, fun _ => rfl, fun _ => rfl, fun _ => le_rfl, fun _ _ _ => rfl⟩
  obtain ⟨next, hnext, hrun⟩ := claim_of_free (w := w) (u := u)
    (J := fun done next => Claimed w p u done (db.setPlanet p { db.planets p with user := some u }) next)
    hfree hbegin fun _ name _ hlater => startBuilding_claimed hlater name
  exact ⟨_, hrun, ⟨hnext.user, hnext.fleets, hnext.now, hnext.buildings, hnext.settings, hnext.maximum, hnext.le,
    hnext.free⟩⟩

/-- With more in store no less comes back. -/
theorem back_mono {db other : Db} {p : PlanetId} {type : Resource} (htype : type = .ore ∨ type = .crystal)
    (hmaximum : (db.planets p).maximum type = (other.planets p).maximum type) {old more : ℤ} (hle : old ≤ more) (n : ℤ) :
    back db p type old n ≤ back other p type more n := by
  unfold back grown
  rcases htype with rfl | rfl
  · dsimp only
    rw [hmaximum]
    split <;> omega
  · dsimp only
    rw [hmaximum]
    split <;> omega

theorem back_nonneg_of_store {type : Resource} (htype : type = .ore ∨ type = .crystal) (db : Db) (p : PlanetId) (old n : ℤ) :
    0 ≤ back db p type old n := by
  have hstored : ∀ maximum : ℤ, (if n ≤ 0 then old else min maximum (old + n)) - old ≤ max n 0 := by
    intro maximum
    split_ifs with hn
    · rw [sub_self]
      exact le_max_right n 0
    · have hle := min_le_right maximum (old + n)
      exact le_max_of_le_left (by omega)
  rcases htype with rfl | rfl
  · exact sub_nonneg.mpr (hstored (db.planets p).maxore)
  · exact sub_nonneg.mpr (hstored (db.planets p).maxcrystal)

/-- Money that an owner gets does not come back. -/
theorem back_money {db : Db} {p : PlanetId} {u : UserId} (huser : (db.planets p).user = some u) (old : ℤ) {n : ℤ}
    (hn : 0 ≤ n) : back db p .money old n = 0 := by
  have hgrown : grown db p .money old n = old + n := by
    unfold grown
    rw [huser]
    dsimp only [Option.isSome_some]
    split
    · rw [show n = 0 by omega, add_zero]
    · rfl
  rw [back, hgrown, max_eq_left hn, add_sub_cancel_left, sub_self]

theorem grown_eq {db : Db} {p : PlanetId} {type : Resource} (old : ℤ) {n : ℤ} (hn : 0 ≤ n) :
    grown db p type old n = old + n - back db p type old n := by
  rw [back, max_eq_left hn]
  ring

end Planet

namespace Fleet

/-! ## What stays aboard -/

section Settling

variable (w : World) (db : Db) (p : PlanetId) (id : FleetId) (row : FleetRow)

/-- What finds no room on the planet; the credit goes to its new owner. -/
def leftOver : ℤ :=
  back db p .ore (db.holding p .ore) row.attributes.ore + back db p .crystal (db.holding p .crystal) row.attributes.crystal

/-- The fleet without its colony ship. -/
def unmanned : Fleet :=
  revalued w db (removed (.single colonyShip 1) row.shipfleets) (settled p db.now (ofRow id row))

/-- What stays aboard has room without the colony ship, or there is hardly any room at all. -/
def SettlesWithin : Prop :=
  (leftOver db p row : ℚ) ≤ (unmanned w db p id row).getCapacity.value ∨
    ((unmanned w db p id row).getCapacity / 3).toI = 0

/-- There is no more than before of any kind, and what is aboard has room. -/
structure CreatesNothing (db next : Db) (p : PlanetId) (before after : Fleet) : Prop where
  ore : (next.planets p).ore + after.ore ≤ (db.planets p).ore + before.ore
  crystal : (next.planets p).crystal + after.crystal ≤ (db.planets p).crystal + before.crystal
  credit : (next.users before.user).money + after.credit ≤ (db.users before.user).money + before.credit
  within : (after.getAmountOfRessources : ℚ) ≤ after.getCapacity.value

theorem trimmed_bounds {whole : Fleet} (hcapacity : 0 ≤ whole.getCapacity.value)
    (hbound : whole.getCapacity.value < 2 ^ 53) :
    (((trimmed whole).ore + (trimmed whole).credit + (trimmed whole).crystal : ℤ) : ℚ) ≤ whole.getCapacity.value ∧
      0 ≤ (whole.getCapacity / 3).toI := by
  have hround : Binary64.round whole.getCapacity.value = whole.getCapacity.value := Binary64.round_round _
  have hthird : whole.getCapacity / 3 = .float (Binary64.round (whole.getCapacity.value / 3)) := by
    have hthree : Binary64.round (3 : ℤ) = (3 : ℤ) := Binary64.round_intCast (by norm_num)
    change Numeric.float (Binary64.round (whole.getCapacity.value / Binary64.round (3 : ℤ))) = _
    rw [hthree, Int.cast_ofNat]
  have hnonneg : 0 ≤ Binary64.round (whole.getCapacity.value / 3) :=
    Binary64.round_nonneg (div_nonneg hcapacity zero_le_three)
  have hfloor : (whole.getCapacity / 3).toI = ⌊Binary64.round (whole.getCapacity.value / 3)⌋ := by
    rw [hthird, Numeric.toI, if_pos hnonneg]
  refine ⟨?_, hfloor ▸ Int.floor_nonneg.mpr hnonneg⟩
  unfold trimmed
  dsimp only
  split
  · have hle := Binary64.three_mul_le_of_le_round_third hround hcapacity hbound
      (Int.floor_le (Binary64.round (whole.getCapacity.value / 3)))
    rw [hfloor]
    push_cast
    linarith
  · rename_i hfits
    exact not_lt.mp hfits

variable {w db p id row} {u : UserId}

/-- The capacity depends on the ships and the technologies of the owner. -/
theorem getCapacity_revalued (first : Db) {second : Db} (rows : List Shipfleet) {self : Fleet}
    (hsetting : (first.users self.user).userSetting = (second.users self.user).userSetting) (cargo : Cargo) :
    (revalued w first rows (self.withCargo cargo)).getCapacity = (revalued w second rows self).getCapacity := by
  have hvalued : valued w first rows (self.withCargo cargo).toAttributes =
      { valued w second rows self.toAttributes with toCargo := cargo } := by
    rw [← valued_withCargo]
    unfold valued
    rw [show (self.withCargo cargo).toAttributes.user = self.user from rfl, hsetting]
    rfl
  unfold getCapacity
  rw [revalued, hvalued]
  rfl

/-- The planet with its new owner, before the first buildings. -/
def ownedDb (db : Db) (p : PlanetId) (u : UserId) : Db := db.setPlanet p { db.planets p with user := some u }

/-- The state after a claim and after a settler of the row came down, with the fleet as it is before its cargo is
trimmed. -/
structure Lands (w : World) (db : Db) (p : PlanetId) (id : FleetId) (row : FleetRow) (claimed next : Db)
    (after : FleetRow) (whole : Fleet) : Prop where
  claim : Claimed w p row.attributes.user [.city, .powerplant, .headquarter, .oremine]
    (ownedDb db p row.attributes.user) claimed
  user : (next.planets p).user = some row.attributes.user
  holding : ∀ type, next.holding p type = grown claimed p type (claimed.holding p type) ((ofRow id row).amount type)
  aboard : ∀ type, Planet.Loadable type →
    whole.toCargo.amount type = back claimed p type (claimed.holding p type) ((ofRow id row).amount type)
  capacity : whole.getCapacity = (unmanned w db p id row).getCapacity
  kept : after.attributes.toCargo = trimmed whole
  room : (ofRow id after).getCapacity = whole.getCapacity

/-- A fleet with a colony ship claims the planet, unloads and keeps what has room. -/
theorem colonize_lands (w : World) (hget : db.fleets.get id = some row) (hfree : (db.planets p).user = none)
    (henough : enoughShips? row.shipfleets (.single colonyShip 1) = true) :
    ∃ claimed next after whole, ((ofRow id row).colonize w p).run db = .ok ⟨⟩ next ∧
      next.fleets.get id = some after ∧ Lands w db p id row claimed next after whole := by
  let self := ofRow id row
  obtain ⟨claimed, hclaim, hclaimed⟩ := claim_claims w hfree row.attributes.user
  have hrelation : db.relation self.user p = .unknown := by
    unfold Db.relation
    rw [hfree]
  let home := settled p claimed.now self
  have hunload := unloadRessources_apply claimed p home
  let middle := unloadedDb claimed p home
  let rows := removed (.single colonyShip 1) row.shipfleets
  have hrow : claimed.fleets.get home.id = some row := by
    rw [hclaimed.fleets]
    exact hget
  have hmiddle : middle.fleets.get self.id = some ⟨(unloaded claimed p home).toAttributes, row.shipfleets⟩ :=
    Table.get_modify_self _ hrow
  let whole := revalued w middle rows (unloaded claimed p home)
  let after : FleetRow := ⟨valued w middle rows (whole.withCargo (trimmed whole)).toAttributes, rows⟩
  have hsettle := settle_apply w hclaim hunload hmiddle henough
  have hhome : home = settled p db.now self := by
    unfold home
    rw [hclaimed.now]
    rfl
  have hsetting : ∀ v, (middle.users v).userSetting = (db.users v).userSetting := by
    intro v
    rw [← show (claimed.users v).userSetting = (db.users v).userSetting from hclaimed.settings v]
    change ((claimed.withHoldings p _).users v).userSetting = _
    unfold Db.withHoldings
    dsimp only
    split <;> rfl
  refine ⟨claimed, middle.setFleets (middle.fleets.put self.id after), after, whole, ?_,
    (Table.get_put _ hmiddle self.id).trans (if_pos rfl), ?_⟩
  · rw [colonize, run_bind_get, hrelation]
    exact hsettle
  constructor
  case claim => exact hclaimed
  case user => exact user_unloadedDb.trans hclaimed.user
  case holding => exact holding_unloadedDb
  case aboard =>
    intro type htype
    have hcargo : whole.toCargo = (unloaded claimed p home).toCargo := valued_toCargo w middle rows _
    rw [hcargo]
    exact amount_unloaded htype
  case capacity =>
    rw [unmanned, ← hhome]
    exact getCapacity_revalued _ rows (hsetting home.user) _
  case kept => exact valued_toCargo w middle rows _
  case room =>
    have hagain : (revalued w middle rows whole).toAttributes = whole.toAttributes := valued_valued w middle rows rows _
    refine (getCapacity_revalued (w := w) middle rows rfl (trimmed whole)).trans ?_
    unfold getCapacity
    rw [hagain]

theorem unmanned_capacity_nonneg (hvalid : Valid row.shipfleets)
    (henough : enoughShips? row.shipfleets (.single colonyShip 1) = true) :
    0 ≤ (unmanned w db p id row).getCapacity.value := by
  have hrows := hvalid.removed henough
  have hcapacity : (unmanned w db p id row).ressourceCapacity =
      (shipsOf (removed (.single colonyShip 1) row.shipfleets)).weight fun ship => (w.ship ship).ressourceCapacity := by
    unfold unmanned revalued valued withValues
    dsimp only
    split <;> rfl
  have hnonneg : 0 ≤ (unmanned w db p id row).ressourceCapacity := by
    rw [hcapacity]
    refine Hash.weight_nonneg (fun _ => Int.natCast_nonneg _) fun ship => ?_
    rw [getD_shipsOf]
    exact valid_iff.mp hrows ship
  exact Numeric.value_mul_nonneg (Int.cast_nonneg hnonneg) (zero_le_one.trans (unmanned w db p id row).storageFactor.2)

namespace Lands

variable {claimed next : Db} {after : FleetRow} {whole : Fleet} (hlands : Lands w db p id row claimed next after whole)
  (hcargo : ∀ type, 0 ≤ (ofRow id row).amount type)

/-- What comes back of a kind when the fleet unloads. -/
def left (claimed : Db) (p : PlanetId) (self : Fleet) (type : Resource) : ℤ :=
  back claimed p type (claimed.holding p type) (self.amount type)

theorem holding_ownedDb (db : Db) (p : PlanetId) (u : UserId) :
    (ownedDb db p u).holding p .ore = (db.planets p).ore ∧ (ownedDb db p u).holding p .crystal = (db.planets p).crystal ∧
      (ownedDb db p u).holding p .money = (db.users u).money := by
  have howned : (ownedDb db p u).planets p = { db.planets p with user := some u } := if_pos rfl
  unfold Db.holding
  rw [howned]
  exact ⟨rfl, rfl, rfl⟩

include hlands

theorem maximum_eq (type : Resource) : (claimed.planets p).maximum type = (db.planets p).maximum type := by
  rw [hlands.claim.maximum type, ownedDb, show (db.setPlanet p { db.planets p with
    user := some row.attributes.user }).planets p = { db.planets p with user := some row.attributes.user } from if_pos rfl]
  cases type <;> rfl

include hcargo

theorem left_money : left claimed p (ofRow id row) .money = 0 := back_money hlands.claim.user _ (hcargo .money)

/-- All the credit goes to the new owner. -/
theorem whole_eq : whole.ore = left claimed p (ofRow id row) .ore ∧
    whole.crystal = left claimed p (ofRow id row) .crystal ∧ whole.credit = 0 :=
  ⟨hlands.aboard .ore (.inl rfl), hlands.aboard .crystal (.inr (.inl rfl)),
    (hlands.aboard .money (.inr (.inr rfl))).trans (hlands.left_money hcargo)⟩

theorem overloaded_iff : whole.getCapacity < (whole.getAmountOfRessources : Numeric) ↔
    (unmanned w db p id row).getCapacity.value <
      (left claimed p (ofRow id row) .ore + left claimed p (ofRow id row) .crystal : ℤ) := by
  obtain ⟨hore, hcrystal, hcredit⟩ := hlands.whole_eq hcargo
  rw [Numeric.lt_iff, Numeric.value_int, getAmountOfRessources, hore, hcrystal, hcredit, add_zero, hlands.capacity]

theorem holding_eq (type : Resource) : next.holding p type =
    claimed.holding p type + (ofRow id row).amount type - left claimed p (ofRow id row) type :=
  (hlands.holding type).trans (grown_eq _ (hcargo type))

/-- Nothing is created if what is kept of each kind was left or has been paid for. -/
theorem createsNothing_iff (hcapacity : 0 ≤ (unmanned w db p id row).getCapacity.value)
    (hbound : (unmanned w db p id row).getCapacity.value < 2 ^ 53) :
    CreatesNothing db next p (ofRow id row) (ofRow id after) ↔
      claimed.holding p .ore - left claimed p (ofRow id row) .ore + (trimmed whole).ore ≤
          (ownedDb db p row.attributes.user).holding p .ore ∧
        claimed.holding p .crystal - left claimed p (ofRow id row) .crystal + (trimmed whole).crystal ≤
          (ownedDb db p row.attributes.user).holding p .crystal ∧
        claimed.holding p .money + (trimmed whole).credit ≤ (ownedDb db p row.attributes.user).holding p .money := by
  obtain ⟨hbefore_ore, hbefore_crystal, hbefore_money⟩ :
      (ownedDb db p row.attributes.user).holding p .ore = (db.planets p).ore ∧
        (ownedDb db p row.attributes.user).holding p .crystal = (db.planets p).crystal ∧
        (ownedDb db p row.attributes.user).holding p .money = (db.users (ofRow id row).user).money :=
    holding_ownedDb db p row.attributes.user
  have hore : (next.planets p).ore =
      claimed.holding p .ore + (ofRow id row).ore - left claimed p (ofRow id row) .ore :=
    hlands.holding_eq hcargo .ore
  have hcrystal : (next.planets p).crystal =
      claimed.holding p .crystal + (ofRow id row).crystal - left claimed p (ofRow id row) .crystal :=
    hlands.holding_eq hcargo .crystal
  have hcredit : (next.users (ofRow id row).user).money = claimed.holding p .money + (ofRow id row).credit := by
    have hmoney : next.holding p .money = (next.users (ofRow id row).user).money := by
      unfold Db.holding
      rw [hlands.user]
      rfl
    rw [← hmoney, hlands.holding_eq hcargo .money, hlands.left_money hcargo, sub_zero]
    rfl
  have hkept : (ofRow id after).ore = (trimmed whole).ore ∧ (ofRow id after).crystal = (trimmed whole).crystal ∧
      (ofRow id after).credit = (trimmed whole).credit :=
    ⟨congrArg Cargo.ore hlands.kept, congrArg Cargo.crystal hlands.kept, congrArg Cargo.credit hlands.kept⟩
  have hwithin : ((ofRow id after).getAmountOfRessources : ℚ) ≤ (ofRow id after).getCapacity.value := by
    rw [getAmountOfRessources, hkept.1, hkept.2.1, hkept.2.2, hlands.room]
    rw [← hlands.capacity] at hcapacity hbound
    exact (trimmed_bounds hcapacity hbound).1
  rw [hbefore_ore, hbefore_crystal, hbefore_money]
  constructor
  · rintro ⟨hnoore, hnocrystal, hnocredit, -⟩
    rw [hore, hkept.1] at hnoore
    rw [hcrystal, hkept.2.1] at hnocrystal
    rw [hcredit, hkept.2.2] at hnocredit
    omega
  · rintro ⟨hnoore, hnocrystal, hnocredit⟩
    refine ⟨?_, ?_, ?_, hwithin⟩
    · rw [hore, hkept.1]
      omega
    · rw [hcrystal, hkept.2.1]
      omega
    · rw [hcredit, hkept.2.2]
      omega

/-- What has room is kept as it is, and of hardly any room no third is left. -/
theorem creates_of_within (hcapacity : 0 ≤ (unmanned w db p id row).getCapacity.value)
    (hbound : (unmanned w db p id row).getCapacity.value < 2 ^ 53) (hsettles : SettlesWithin w db p id row) :
    CreatesNothing db next p (ofRow id row) (ofRow id after) := by
  obtain ⟨hbefore_ore, hbefore_crystal, -⟩ := holding_ownedDb db p row.attributes.user
  obtain ⟨hore, hcrystal, hcredit⟩ := hlands.whole_eq hcargo
  have hcost_ore := hlands.claim.le .ore
  have hcost_crystal := hlands.claim.le .crystal
  have hcost_money := hlands.claim.le .money
  have hleft_ore : 0 ≤ left claimed p (ofRow id row) .ore := back_nonneg_of_store (.inl rfl) claimed p _ _
  have hleft_crystal : 0 ≤ left claimed p (ofRow id row) .crystal := back_nonneg_of_store (.inr rfl) claimed p _ _
  refine (hlands.createsNothing_iff hcargo hcapacity hbound).mpr ?_
  unfold trimmed
  dsimp only
  split
  case isFalse =>
    rw [hore, hcrystal, hcredit]
    omega
  case isTrue htrim =>
    have hmono_ore : left claimed p (ofRow id row) .ore ≤ back db p .ore (db.holding p .ore) row.attributes.ore :=
      back_mono (.inl rfl) (hlands.maximum_eq .ore) (hcost_ore.trans_eq hbefore_ore) _
    have hmono_crystal : left claimed p (ofRow id row) .crystal ≤
        back db p .crystal (db.holding p .crystal) row.attributes.crystal :=
      back_mono (.inr rfl) (hlands.maximum_eq .crystal) (hcost_crystal.trans_eq hbefore_crystal) _
    have hzero : (whole.getCapacity / 3).toI = 0 := by
      rw [hlands.capacity]
      refine hsettles.resolve_left fun hfits => ?_
      have hleft : ((left claimed p (ofRow id row) .ore + left claimed p (ofRow id row) .crystal : ℤ) : ℚ) ≤
          leftOver db p row := Int.cast_le.mpr (add_le_add hmono_ore hmono_crystal)
      exact absurd ((hlands.overloaded_iff hcargo).mp htrim) (hleft.trans hfits).not_gt
    dsimp only
    omega

/-- Where the first buildings are free, a third of each kind is too much credit. -/
theorem within_of_creates (hcapacity : 0 ≤ (unmanned w db p id row).getCapacity.value)
    (hbound : (unmanned w db p id row).getCapacity.value < 2 ^ 53) (hbare : Bare w db p)
    (hnothing : CreatesNothing db next p (ofRow id row) (ofRow id after)) : SettlesWithin w db p id row := by
  obtain ⟨hbefore_ore, hbefore_crystal, -⟩ := holding_ownedDb db p row.attributes.user
  have hsame : ∀ type, claimed.holding p type = (ownedDb db p row.attributes.user).holding p type :=
    hlands.claim.free hbare.empty fun name hname => hbare.free name (by
      simp only [List.mem_cons, List.not_mem_nil, or_false] at hname ⊢
      tauto)
  obtain ⟨-, -, hcredit⟩ := (hlands.createsNothing_iff hcargo hcapacity hbound).mp hnothing
  by_cases htrim : whole.getCapacity < (whole.getAmountOfRessources : Numeric)
  · have htrimmed : (trimmed whole).credit = (whole.getCapacity / 3).toI := by
      unfold trimmed
      rw [if_pos htrim]
    rw [hsame, htrimmed, hlands.capacity] at hcredit
    have hthird := (trimmed_bounds hcapacity hbound).2
    exact .inr (by omega)
  · have hback_ore : back db p .ore (db.holding p .ore) row.attributes.ore ≤ left claimed p (ofRow id row) .ore :=
      back_mono (.inl rfl) (hlands.maximum_eq .ore).symm (hbefore_ore.symm.trans (hsame .ore).symm).le _
    have hback_crystal : back db p .crystal (db.holding p .crystal) row.attributes.crystal ≤
        left claimed p (ofRow id row) .crystal :=
      back_mono (.inr rfl) (hlands.maximum_eq .crystal).symm (hbefore_crystal.symm.trans (hsame .crystal).symm).le _
    have hleft : (leftOver db p row : ℚ) ≤
        (left claimed p (ofRow id row) .ore + left claimed p (ofRow id row) .crystal : ℤ) :=
      Int.cast_le.mpr (add_le_add hback_ore hback_crystal)
    rw [hlands.overloaded_iff hcargo, not_lt] at htrim
    exact .inl (hleft.trans htrim)

end Lands

/-- Colonising creates nothing if what stays aboard has room, or hardly anything has; where the first buildings are
free, only then. -/
theorem colonize_creates_nothing_iff (w : World) {db : Db} {id : FleetId} {row : FleetRow} {p : PlanetId}
    (hget : db.fleets.get id = some row) (hfree : (db.planets p).user = none)
    (henough : enoughShips? row.shipfleets (.single colonyShip 1) = true) (hvalid : Valid row.shipfleets)
    (hcargo : ∀ type, 0 ≤ (ofRow id row).amount type)
    (hbound : (unmanned w db p id row).getCapacity.value < 2 ^ 53) :
    ∃ next after, ((ofRow id row).colonize w p).run db = .ok ⟨⟩ next ∧ next.fleets.get id = some after ∧
      (SettlesWithin w db p id row → CreatesNothing db next p (ofRow id row) (ofRow id after)) ∧
      (Bare w db p → CreatesNothing db next p (ofRow id row) (ofRow id after) → SettlesWithin w db p id row) := by
  obtain ⟨claimed, next, after, whole, hrun, hafter, hlands⟩ := colonize_lands w hget hfree henough
  have hcapacity : 0 ≤ (unmanned w db p id row).getCapacity.value := unmanned_capacity_nonneg hvalid henough
  exact ⟨next, after, hrun, hafter, hlands.creates_of_within hcargo hcapacity hbound,
    hlands.within_of_creates hcargo hcapacity hbound⟩

end Settling

/-- A fighter and a colony ship of user 1 with this much ore, on their way to planet 5. -/
def settlerRow (ore : ℤ) : FleetRow :=
  ⟨{ Seeds.scout with missionId := 2, targetPlanet := 5, ore := ore, ressourceCapacity := 1010 },
    [⟨3, 1⟩, ⟨10, 1⟩]⟩

def settlerDb (ore : ℤ) : Db := Seeds.start.setFleets (Table.empty.create (settlerRow ore))

theorem colonize_creates_nothing_iff_empty :
    ∃ next after, ((ofRow 1 (settlerRow 0)).colonize Seeds.world 5).run (settlerDb 0) = .ok ⟨⟩ next ∧
      next.fleets.get 1 = some after ∧ CreatesNothing (settlerDb 0) next 5 (ofRow 1 (settlerRow 0)) (ofRow 1 after) := by
  obtain ⟨next, after, hrun, hafter, hwithin, -⟩ := colonize_creates_nothing_iff (p := 5) Seeds.world
    (show (settlerDb 0).fleets.get 1 = some (settlerRow 0) from rfl) rfl (by decide) (show _ = true by decide)
    (fun type => by cases type <;> decide) (by decide +kernel)
  exact ⟨next, after, hrun, hafter, hwithin (.inl (by decide +kernel))⟩

/-- A thousand units of ore find no room anywhere, and three units of crystal and credit come into being. -/
theorem colonize_creates_credit :
    ¬∀ (w : World) (db : Db) (id : FleetId) (row : FleetRow) (p : PlanetId), db.fleets.get id = some row →
      (db.planets p).user = none → enoughShips? row.shipfleets (.single colonyShip 1) = true → Valid row.shipfleets →
        (∀ type, 0 ≤ (ofRow id row).amount type) →
          ((ofRow id row).getAmountOfRessources : ℚ) ≤ (ofRow id row).getCapacity.value →
            ∀ next after, ((ofRow id row).colonize w p).run db = .ok ⟨⟩ next → next.fleets.get id = some after →
              CreatesNothing db next p (ofRow id row) (ofRow id after) := by
  intro hall
  have hget : (settlerDb 1000).fleets.get 1 = some (settlerRow 1000) := rfl
  obtain ⟨-, next, settler, -, hrun, hsettler, -⟩ := colonize_lands (p := 5) Seeds.world hget rfl (by decide)
  have hnothing := hall Seeds.world (settlerDb 1000) 1 (settlerRow 1000) 5 hget rfl (by decide) (show _ = true by decide)
    (fun type => by cases type <;> decide) (by decide +kernel) next settler hrun hsettler
  have hnext : next = after (((ofRow 1 (settlerRow 1000)).colonize Seeds.world 5).run (settlerDb 1000)) := by
    rw [hrun]
    rfl
  have hcredit : ((after (((ofRow 1 (settlerRow 1000)).colonize Seeds.world 5).run (settlerDb 1000))).fleets.get 1).map
      (fun row => row.attributes.credit) = some 3 := by decide +kernel
  have hmoney : ((after (((ofRow 1 (settlerRow 1000)).colonize Seeds.world 5).run (settlerDb 1000))).users 1).money =
      20000 := by decide +kernel
  rw [← hnext] at hcredit hmoney
  rw [hsettler, Option.map_some, Option.some.injEq] at hcredit
  have hmore := hnothing.credit
  change (next.users 1).money + settler.attributes.credit ≤ 20000 + 0 at hmore
  omega

end Fleet

end Mmog
