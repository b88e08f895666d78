import Mmog.Ruby.Inventory
import Mmog.Model.Seeds
import Mmog.Ships.Split

/-!
# A fleet is an inventory of ships

The shipfleet rows of a fleet stand for an inventory: the ship types with a row
and so many ships of each.  Over every sequence of the four methods that move
ships, on objects that may hold any attributes, the methods compute on the rows
what they should on the inventories, and the cached values keep up with them.
-/

namespace Mmog

open Ruby Action

/-- The inventory the rows of a fleet stand for. -/
def FleetRow.inventory (row : FleetRow) : Inventory ShipId :=
  .ofHash (Fleet.shipsOf row.shipfleets)

/-- The inventory of every fleet there is. -/
def Db.inventories (db : Db) (id : FleetId) : Option (Inventory ShipId) :=
  (db.fleets.get id).map FleetRow.inventory

/-- The sum of a number over all ships of an inventory. -/
def sumOverShips (number : ShipId → ℕ) (inventory : Inventory ShipId) : ℤ :=
  (inventory.items.map fun ship => (number ship : ℤ)).sum

/-- A row whose shipfleet rows are in order and whose cached values fit them. -/
structure FleetRow.Kept (w : World) (db : Db) (row : FleetRow) : Prop where
  one_row : (Fleet.typesOf row.shipfleets).Nodup
  nonneg : ∀ shipfleet ∈ row.shipfleets, 0 ≤ shipfleet.amount
  capacity : row.attributes.ressourceCapacity =
    sumOverShips (fun ship => (w.ship ship).ressourceCapacity) row.inventory
  offense : row.attributes.offense =
    ((sumOverShips (fun ship => (w.ship ship).offense) row.inventory : Numeric) *
      .float (db.users row.attributes.user).userSetting.increasedPower).toI
  defense : row.attributes.defense =
    ((sumOverShips (fun ship => (w.ship ship).defense) row.inventory : Numeric) *
      .float (db.users row.attributes.user).userSetting.increasedDefense).toI

/-- All rows of the fleet table are kept. -/
def Db.FleetsKept (w : World) (db : Db) : Prop :=
  ∀ id row, db.fleets.get id = some row → row.Kept w db

namespace Fleet

/-! ## Rows with one row for each type -/

theorem amountOf?_of_mem {rows : List Shipfleet} (hone : (typesOf rows).Nodup)
    {shipfleet : Shipfleet} (hmem : shipfleet ∈ rows) :
    amountOf? rows shipfleet.shipId = some shipfleet.amount := by
  induction rows with
  | nil => cases hmem
  | cons row rows ih =>
      rw [typesOf, List.map_cons, List.nodup_cons] at hone
      rw [amountOf?_cons]
      rcases List.mem_cons.mp hmem with rfl | htail
      · rw [if_pos rfl]
      · have hne : row.shipId ≠ shipfleet.shipId := fun heq =>
          hone.1 (heq ▸ List.mem_map_of_mem (f := Shipfleet.shipId) htail)
        rw [if_neg hne, ih hone.2 htail]

theorem mem_of_amountOf? {rows : List Shipfleet} {ship : ShipId} {amount : ℤ}
    (hamount : amountOf? rows ship = some amount) : ⟨ship, amount⟩ ∈ rows := by
  induction rows with
  | nil => cases hamount
  | cons row rows ih =>
      rw [amountOf?_cons] at hamount
      split at hamount
      · rename_i heq
        cases hamount
        rw [← heq]
        exact List.mem_cons_self ..
      · exact List.mem_cons_of_mem _ (ih hamount)

theorem amountOf_nonneg {rows : List Shipfleet} (hnonneg : ∀ shipfleet ∈ rows, 0 ≤ shipfleet.amount)
    (ship : ShipId) : 0 ≤ amountOf rows ship := by
  rw [amountOf]
  cases hamount : amountOf? rows ship with
  | none => exact le_refl 0
  | some amount => exact hnonneg _ (mem_of_amountOf? hamount)

theorem rows_nonneg {rows : List Shipfleet} (hone : (typesOf rows).Nodup)
    (hnonneg : ∀ ship, 0 ≤ amountOf rows ship) : ∀ shipfleet ∈ rows, 0 ≤ shipfleet.amount := by
  intro shipfleet hmem
  simpa [amountOf, amountOf?_of_mem hone hmem] using hnonneg shipfleet.shipId

theorem hashIsValid?_shipsOf {rows : List Shipfleet}
    (hnonneg : ∀ shipfleet ∈ rows, 0 ≤ shipfleet.amount) : hashIsValid? (shipsOf rows) = true := by
  refine hashIsValid?_iff.mpr fun key value hget => ?_
  rw [get?_shipsOf] at hget
  exact hnonneg _ (mem_of_amountOf? hget)

theorem getD_nonneg_of_valid {shipHash : Hash ShipId ℤ} (hvalid : hashIsValid? shipHash = true)
    (key : ShipId) : 0 ≤ shipHash.getD key 0 := by
  rw [Hash.getD]
  cases hget : shipHash.get? key with
  | none => exact le_refl 0
  | some value => exact hashIsValid?_iff.mp hvalid key value hget

theorem added_one_row {rows : List Shipfleet} (hone : (typesOf rows).Nodup)
    (shipHash : Hash ShipId ℤ) : (typesOf (added shipHash rows)).Nodup := by
  rw [typesOf_added]
  refine List.nodup_append.mpr ⟨hone, Hash.keys_nodup _, fun ship hship key hkey heq => ?_⟩
  obtain ⟨entry, hentry, rfl⟩ := List.mem_map.mp hkey
  have hnew : entry.1 ∉ typesOf rows := by simpa using (List.mem_filter.mp hentry).2
  exact hnew (heq ▸ hship)

theorem one_row_added_nil (shipHash : Hash ShipId ℤ) : (typesOf (added shipHash [])).Nodup :=
  added_one_row (show (typesOf []).Nodup from List.nodup_nil) shipHash

theorem mem_typesOf_added {shipHash : Hash ShipId ℤ} {rows : List Shipfleet} {ship : ShipId} :
    ship ∈ typesOf (added shipHash rows) ↔ ship ∈ typesOf rows ∨ ship ∈ shipHash.keys := by
  rw [mem_typesOf_iff, amountOf?_added, mem_typesOf_iff, Hash.mem_keys_iff]
  cases amountOf? rows ship <;> cases shipHash.get? ship <;> simp

/-! ## The inventories of changed rows -/

theorem inventory_added {rows : List Shipfleet}
    (hnonneg : ∀ shipfleet ∈ rows, 0 ≤ shipfleet.amount) {shipHash : Hash ShipId ℤ}
    (hvalid : hashIsValid? shipHash = true) :
    Inventory.ofHash (shipsOf (added shipHash rows)) =
      Inventory.ofHash (shipsOf rows) + Inventory.ofHash shipHash := by
  refine Inventory.ofHash_add (fun ship => ?_) (fun ship => ?_) (fun ship => ?_)
    (getD_nonneg_of_valid hvalid)
  · rw [mem_keys_shipsOf, mem_keys_shipsOf, mem_typesOf_added]
  · rw [getD_shipsOf, getD_shipsOf, amountOf_added]
  · rw [getD_shipsOf]
    exact amountOf_nonneg hnonneg ship

theorem inventory_removed {rows : List Shipfleet} {shipHash : Hash ShipId ℤ}
    (henough : enoughShips? rows shipHash = true) :
    Inventory.ofHash (shipsOf (removed shipHash rows)) =
      Inventory.ofHash (shipsOf rows) - Inventory.ofHash shipHash := by
  refine Inventory.ofHash_sub (fun ship => ?_) (fun ship => ?_)
    (getD_nonneg_of_valid (hashIsValid?_of_enough henough))
  · rw [mem_keys_shipsOf, mem_keys_shipsOf, typesOf_removed]
  · rw [getD_shipsOf, getD_shipsOf, amountOf_removed_of_enough henough]

theorem removed_nonneg {rows : List Shipfleet}
    (hnonneg : ∀ shipfleet ∈ rows, 0 ≤ shipfleet.amount) {shipHash : Hash ShipId ℤ}
    (henough : enoughShips? rows shipHash = true) (ship : ShipId) :
    0 ≤ amountOf (removed shipHash rows) ship := by
  rw [amountOf_removed_of_enough henough]
  cases hget : shipHash.get? ship with
  | none => simpa [Hash.getD, hget] using amountOf_nonneg hnonneg ship
  | some value =>
      obtain ⟨_, amount, hamount, hle⟩ := enoughShips?_iff.mp henough ship value hget
      rw [Hash.getD, hget, amountOf, hamount]
      exact Int.sub_nonneg.mpr hle

/-- The inventory has what the hash asks for exactly when `enough_ships?` says so. -/
theorem enoughShips?_iff_le {rows : List Shipfleet}
    (hnonneg : ∀ shipfleet ∈ rows, 0 ≤ shipfleet.amount) (shipHash : Hash ShipId ℤ) :
    enoughShips? rows shipHash = true ↔
      hashIsValid? shipHash = true ∧
        Inventory.ofHash shipHash ≤ Inventory.ofHash (shipsOf rows) := by
  rw [Inventory.ofHash_le_iff fun ship => by
      rw [getD_shipsOf]
      exact amountOf_nonneg hnonneg ship]
  constructor
  · intro henough
    refine ⟨hashIsValid?_of_enough henough, fun key value hget => ?_⟩
    rw [get?_shipsOf]
    exact (enoughShips?_iff.mp henough key value hget).2
  · rintro ⟨hvalid, hle⟩
    refine enoughShips?_iff.mpr fun key value hget => ⟨hashIsValid?_iff.mp hvalid key value hget, ?_⟩
    simpa only [get?_shipsOf] using hle key value hget

/-- Rows that are in order are kept once their values have been computed. -/
theorem kept_valued (w : World) (db : Db) {rows : List Shipfleet} (attributes : Attributes)
    (hone : (typesOf rows).Nodup) (hnonneg : ∀ ship, 0 ≤ amountOf rows ship) :
    FleetRow.Kept w db ⟨valued w db rows attributes, rows⟩ := by
  have hrows := rows_nonneg hone hnonneg
  have huser : (valued w db rows attributes).user = attributes.user :=
    congrArg Route.user (valued_toRoute w db rows attributes)
  have hsum : ∀ number : ShipId → ℕ,
      sumOverShips number (Inventory.ofHash (shipsOf rows)) =
        (shipsOf rows).sum fun ship amount => (number ship : ℤ) * amount := fun number =>
    Inventory.sum_map_items_ofHash (fun ship => (number ship : ℤ))
      (hashIsValid?_iff.mp (hashIsValid?_shipsOf hrows))
  constructor
  case one_row => exact hone
  case nonneg => exact hrows
  all_goals
    simp only [FleetRow.inventory, hsum, huser]
    unfold valued withValues
    dsimp only
    split <;> rfl

end Fleet

/-! ## Sequences of method calls -/

/-- A call of one of the methods that move ships, on an object with any attributes. -/
inductive FleetCall where
  | new (planet : PlanetId)
  | addShips (self : Fleet) (shipHash : Hash ShipId ℤ)
  | destroyShips (self : Fleet) (shipHash : Hash ShipId ℤ)
  | splitFleet (self : Fleet) (shipHash : Hash ShipId ℤ)
  | mergeFleet (self fleet : Fleet)

namespace FleetCall

/-- The objects have their rows, and a fleet is only merged with another one. -/
def Live (db : Db) : FleetCall → Prop
  | .new _ => True
  | .addShips self _ => (db.fleets.get self.id).isSome
  | .destroyShips self _ => (db.fleets.get self.id).isSome
  | .splitFleet self _ => (db.fleets.get self.id).isSome
  | .mergeFleet self fleet =>
      (db.fleets.get self.id).isSome ∧ (db.fleets.get fleet.id).isSome ∧ self.id ≠ fleet.id

instance (db : Db) (call : FleetCall) : Decidable (call.Live db) := by
  cases call <;> unfold Live <;> infer_instance

def perform (w : World) : FleetCall → Act Unit
  | .new planet => do let _ ← Fleet.new planet
  | .addShips self shipHash => do let _ ← self.addShips w shipHash
  | .destroyShips self shipHash => do let _ ← self.destroyShips w shipHash
  | .splitFleet self shipHash => do let _ ← self.splitFleet w shipHash
  | .mergeFleet self fleet => do let _ ← self.mergeFleet w (some fleet)

/-- What a call leaves behind, whether it returns or raises. -/
def step (w : World) (db : Db) (call : FleetCall) : Option Db :=
  if call.Live db then some (after ((call.perform w).run db)) else none

end FleetCall

/-! ## Every call keeps the rows -/

namespace Db

variable {w : World} {db : Db}

theorem kept_setFleets {t : Table FleetRow} {row : FleetRow} (hkept : row.Kept w db) :
    row.Kept w (db.setFleets t) :=
  ⟨hkept.one_row, hkept.nonneg, hkept.capacity, hkept.offense, hkept.defense⟩

theorem FleetsKept.put (hall : db.FleetsKept w) (id : FleetId) {row : FleetRow}
    (hkept : row.Kept w db) : (db.setFleets (db.fleets.put id row)).FleetsKept w := by
  intro other found hget
  rw [fleets_setFleets, Table.put, Table.get_modify] at hget
  split at hget
  · obtain ⟨_, _, rfl⟩ := Option.map_eq_some_iff.mp hget
    exact kept_setFleets hkept
  · exact kept_setFleets (hall other found hget)

theorem FleetsKept.create (hall : db.FleetsKept w) {row : FleetRow} (hkept : row.Kept w db) :
    (db.setFleets (db.fleets.create row)).FleetsKept w := by
  intro other found hget
  rw [fleets_setFleets, Table.get_create] at hget
  split at hget
  · cases hget
    exact kept_setFleets hkept
  · exact kept_setFleets (hall other found hget)

theorem FleetsKept.destroy (hall : db.FleetsKept w) (id : FleetId) :
    (db.setFleets (db.fleets.destroy id)).FleetsKept w := by
  intro other found hget
  rw [fleets_setFleets, Table.get_destroy] at hget
  split at hget
  · cases hget
  · exact kept_setFleets (hall other found hget)

end Db

namespace Fleet

variable {w : World} {db : Db} {self fleet : Fleet} {row fleetRow : FleetRow}
  {shipHash : Hash ShipId ℤ}

theorem valued_newAttributes (w : World) (db : Db) (planet : PlanetId) (user : UserId) :
    valued w db [] (newAttributes db planet user) = newAttributes db planet user := by
  have hhome : atHome (newAttributes db planet user) = true := by simp [atHome, newAttributes]
  have hzero := Numeric.toI_zero_mul_float
  have hsum : ∀ number : ShipId → ℤ → ℤ, (shipsOf []).sum number = 0 := fun _ => rfl
  unfold valued withValues
  simp only [hsum, hzero, if_pos hhome]
  rfl

theorem kept_new (w : World) (db : Db) (planet : PlanetId) (user : UserId) :
    FleetRow.Kept w db ⟨newAttributes db planet user, []⟩ := by
  rw [← valued_newAttributes w]
  exact kept_valued w db _ List.nodup_nil fun _ => le_refl 0

theorem kept_added (attributes : Attributes) (hkept : row.Kept w db)
    (hvalid : hashIsValid? shipHash = true) :
    FleetRow.Kept w db ⟨valued w db (added shipHash row.shipfleets) attributes,
      added shipHash row.shipfleets⟩ := by
  refine kept_valued w db _ (added_one_row hkept.one_row shipHash) fun ship => ?_
  rw [amountOf_added]
  exact add_nonneg (amountOf_nonneg hkept.nonneg ship) (getD_nonneg_of_valid hvalid ship)

theorem kept_removed (attributes : Attributes) (hkept : row.Kept w db)
    (henough : enoughShips? row.shipfleets shipHash = true) :
    FleetRow.Kept w db ⟨valued w db (removed shipHash row.shipfleets) attributes,
      removed shipHash row.shipfleets⟩ :=
  kept_valued w db _ (by rw [typesOf_removed]; exact hkept.one_row)
    (removed_nonneg hkept.nonneg henough)

theorem kept_split (hall : db.FleetsKept w) (hget : db.fleets.get self.id = some row)
    (henough : enoughShips? row.shipfleets shipHash = true) (user : UserId) :
    (db.setFleets (splitTable w db shipHash user row.shipfleets self)).FleetsKept w := by
  have hstays := hall.put self.id (kept_removed self.toAttributes (hall _ _ hget) henough)
  have hleaves := kept_added (newAttributes db self.originPlanet user)
    (kept_new w db self.originPlanet user) (hashIsValid?_of_enough henough)
  exact hstays.create (Db.kept_setFleets hleaves)

end Fleet

namespace FleetCall

open Fleet

variable {w : World} {db : Db}

theorem after_discard {α : Type} (action : Act α) (db : Db) :
    after ((do let _ ← action : Act Unit).run db) = after (action.run db) := by
  show after ((action >>= fun _ => pure ()).run db) = _
  rw [run_bind]
  cases action.run db <;> rfl

/-- Every call keeps the rows of all fleets, also when it raises. -/
theorem step_keeps (hall : db.FleetsKept w) {call : FleetCall} {next : Db}
    (hstep : call.step w db = some next) : next.FleetsKept w := by
  unfold step at hstep
  split at hstep
  case isFalse => cases hstep
  rename_i hlive
  cases hstep
  cases call with
  | new planet =>
      rw [perform, after_discard]
      cases howner : (db.planets planet).user with
      | none =>
          rw [new_of_unowned howner]
          exact hall
      | some user =>
          rw [new_apply howner]
          exact hall.create (kept_new w db planet user)
  | addShips self shipHash =>
      obtain ⟨row, hget⟩ := Option.isSome_iff_exists.mp hlive
      rw [perform, after_discard]
      by_cases hvalid : hashIsValid? shipHash = true
      · rw [addShips_apply w hget hvalid]
        exact hall.put _ (kept_added self.toAttributes (hall _ _ hget) hvalid)
      · rw [addShips_invalid w hvalid]
        exact hall
  | destroyShips self shipHash =>
      obtain ⟨row, hget⟩ := Option.isSome_iff_exists.mp hlive
      rw [perform, after_discard]
      by_cases henough : enoughShips? row.shipfleets shipHash = true
      · rw [destroyShips_apply w hget henough]
        exact hall.put _ (kept_removed self.toAttributes (hall _ _ hget) henough)
      · rw [destroyShips_not_enough w hget henough]
        exact hall
  | splitFleet self shipHash =>
      obtain ⟨row, hget⟩ := Option.isSome_iff_exists.mp hlive
      rw [perform, after_discard]
      by_cases henough : enoughShips? row.shipfleets shipHash = true
      · cases howner : (db.planets self.originPlanet).user with
        | none =>
            rw [splitFleet_of_unowned w hget henough howner]
            exact hall.put _ (kept_valued w db _ (hall _ _ hget).one_row
              (amountOf_nonneg (hall _ _ hget).nonneg))
        | some user =>
            have hsplit := kept_split hall hget henough user
            rw [splitFleet_apply w hget henough howner]
            cases splitFleets w db shipHash user row.shipfleets self <;> exact hsplit
      · rw [splitFleet_not_enough w hget henough]
        exact hall
  | mergeFleet self fleet =>
      obtain ⟨hself, hfleet, hne⟩ := hlive
      obtain ⟨row, hget⟩ := Option.isSome_iff_exists.mp hself
      obtain ⟨fleetRow, hfleet⟩ := Option.isSome_iff_exists.mp hfleet
      have hvalid := hashIsValid?_shipsOf (hall _ _ hfleet).nonneg
      rw [perform, after_discard, mergeFleet_apply w hget hfleet hne hvalid]
      have hmerged := kept_added (withCargoOf self fleet).toAttributes (hall _ _ hget) hvalid
      exact (hall.put _ hmerged).destroy fleet.id

/-- Rows are kept in every state reached from a universe without fleets. -/
theorem run_keeps_fleets {start : Db} {calls : List FleetCall}
    (hstart : start.fleets = Table.empty) (hrun : run (step w) start calls = some db) :
    db.FleetsKept w := by
  refine run_invariant (fun _ _ _ hall hstep => step_keeps hall hstep) ?_ hrun
  intro id row hget
  rw [hstart] at hget
  cases hget

end FleetCall

/-! ## The methods on inventories -/

section Methods

variable (w : World) (db : Db) (self : Fleet) (row : FleetRow) (shipHash : Hash ShipId ℤ)

/-- `add_ships` adds an inventory, and a hash with a negative amount changes nothing. -/
def AddsInventory : Prop :=
  if Fleet.hashIsValid? shipHash then
    ∃ fleet next, (self.addShips w shipHash).run db = .ok fleet next ∧
      next.inventories =
        Function.update db.inventories self.id (some (row.inventory + .ofHash shipHash)) ∧
      next.FleetsKept w
  else ∃ err, (self.addShips w shipHash).run db = .error err db

/-- `destroy_ships` takes an inventory away if the fleet has it, and else changes nothing. -/
def DestroysInventory : Prop :=
  (Fleet.hashIsValid? shipHash ∧ .ofHash shipHash ≤ row.inventory →
    ∃ fleet next, (self.destroyShips w shipHash).run db = .ok fleet next ∧
      next.inventories =
        Function.update db.inventories self.id (some (row.inventory - .ofHash shipHash)) ∧
      next.FleetsKept w) ∧
  (¬ (Fleet.hashIsValid? shipHash ∧ .ofHash shipHash ≤ row.inventory) →
    ∃ err, (self.destroyShips w shipHash).run db = .error err db)

/-- A `split_fleet` that returns moves an inventory to a fleet with a new id. -/
def SplitsInventory : Prop :=
  ∀ stays leaves next, (self.splitFleet w shipHash).run db = .ok (stays, leaves) next →
    stays.id = self.id ∧ db.inventories leaves.id = none ∧
    .ofHash shipHash ≤ row.inventory ∧
    next.inventories = Function.update
      (Function.update db.inventories self.id (some (row.inventory - .ofHash shipHash)))
      leaves.id (some (.ofHash shipHash)) ∧
    next.FleetsKept w

/-- `merge_fleet` adds the other fleet's inventory, and the other fleet is gone. -/
def MergesInventory (fleet : Fleet) (fleetRow : FleetRow) : Prop :=
  ∃ merged next, (self.mergeFleet w (some fleet)).run db = .ok merged next ∧
    next.inventories = Function.update
      (Function.update db.inventories self.id (some (row.inventory + fleetRow.inventory)))
      fleet.id none ∧
    next.FleetsKept w

end Methods

namespace Db

variable {db : Db}

theorem inventories_put {id : FleetId} {old : FleetRow} (hget : db.fleets.get id = some old)
    (row : FleetRow) :
    (db.setFleets (db.fleets.put id row)).inventories =
      Function.update db.inventories id (some row.inventory) := by
  funext other
  rw [inventories, fleets_setFleets, Table.get_put row hget, Function.update_apply]
  split <;> rfl

theorem inventories_create (db : Db) (row : FleetRow) :
    (db.setFleets (db.fleets.create row)).inventories =
      Function.update db.inventories db.fleets.nextId (some row.inventory) := by
  funext other
  rw [inventories, fleets_setFleets, Table.get_create, Function.update_apply]
  split <;> rfl

theorem inventories_destroy (db : Db) (id : FleetId) :
    (db.setFleets (db.fleets.destroy id)).inventories = Function.update db.inventories id none := by
  funext other
  rw [inventories, fleets_setFleets, Table.get_destroy, Function.update_apply]
  split <;> rfl

end Db

namespace Fleet

variable {w : World} {db : Db} {self fleet : Fleet} {row fleetRow : FleetRow}
  {shipHash : Hash ShipId ℤ}

theorem adds_inventory (hall : db.FleetsKept w) (hget : db.fleets.get self.id = some row)
    (shipHash : Hash ShipId ℤ) : AddsInventory w db self row shipHash := by
  unfold AddsInventory
  split
  · rename_i hvalid
    have hkept := hall _ _ hget
    refine ⟨_, _, addShips_apply w hget hvalid, ?_, hall.put _ (kept_added _ hkept hvalid)⟩
    rw [Db.inventories_put hget, FleetRow.inventory, inventory_added hkept.nonneg hvalid]
    rfl
  · rename_i hvalid
    exact ⟨_, addShips_invalid w hvalid⟩

theorem destroys_inventory (hall : db.FleetsKept w) (hget : db.fleets.get self.id = some row)
    (shipHash : Hash ShipId ℤ) : DestroysInventory w db self row shipHash := by
  have hkept := hall _ _ hget
  have hiff := enoughShips?_iff_le hkept.nonneg shipHash
  constructor
  · intro hle
    have henough := hiff.mpr hle
    refine ⟨_, _, destroyShips_apply w hget henough, ?_, hall.put _ (kept_removed _ hkept henough)⟩
    rw [Db.inventories_put hget, FleetRow.inventory, inventory_removed henough]
    rfl
  · intro hle
    exact ⟨_, destroyShips_not_enough w hget (mt hiff.mp hle)⟩

theorem inventory_added_nil (shipHash : Hash ShipId ℤ) :
    Inventory.ofHash (shipsOf (added shipHash [])) = .ofHash shipHash := by
  refine Inventory.ext_count ?_ fun kind => ?_
  · ext kind
    rw [Inventory.mem_kinds_ofHash, Inventory.mem_kinds_ofHash, mem_keys_shipsOf, mem_typesOf_added]
    exact or_iff_right List.not_mem_nil
  · rw [Inventory.count_ofHash, Inventory.count_ofHash, Hash.getD, get?_shipsOf_added_nil, Hash.getD]

theorem splits_inventory (hall : db.FleetsKept w) (hget : db.fleets.get self.id = some row)
    (shipHash : Hash ShipId ℤ) : SplitsInventory w db self row shipHash := by
  intro stays leaves next hrun
  by_cases henough : enoughShips? row.shipfleets shipHash = true
  case neg =>
    rw [splitFleet_not_enough w hget henough] at hrun
    cases hrun
  cases howner : (db.planets self.originPlanet).user with
  | none =>
      rw [splitFleet_of_unowned w hget henough howner] at hrun
      cases hrun
  | some user =>
      rw [splitFleet_apply w hget henough howner] at hrun
      cases hfleets : splitFleets w db shipHash user row.shipfleets self with
      | error err =>
          rw [hfleets] at hrun
          cases hrun
      | ok fleets =>
          rw [hfleets] at hrun
          cases hrun
          obtain ⟨hstays, hleaves⟩ := splitFleets_ids w hfleets
          have hkept := hall _ _ hget
          refine ⟨hstays, ?_, ((enoughShips?_iff_le hkept.nonneg shipHash).mp henough).2, ?_,
            kept_split hall hget henough user⟩
          · rw [hleaves, Db.inventories, db.fleets.fresh _ (le_refl _)]
            rfl
          · have hcreate := Db.inventories_create (db.setFleets (db.fleets.put self.id
              ⟨(staying w db shipHash row.shipfleets self).toAttributes,
                removed shipHash row.shipfleets⟩))
              ⟨(leaving w db shipHash user self).toAttributes, added shipHash []⟩
            refine hcreate.trans ?_
            rw [Db.inventories_put hget, FleetRow.inventory, FleetRow.inventory,
              inventory_removed henough, inventory_added_nil, hleaves]
            rfl

theorem merges_inventory (hall : db.FleetsKept w) (hget : db.fleets.get self.id = some row)
    (hfleet : db.fleets.get fleet.id = some fleetRow) (hne : self.id ≠ fleet.id) :
    MergesInventory w db self row fleet fleetRow := by
  have hkept := hall _ _ hget
  have hvalid := hashIsValid?_shipsOf (hall _ _ hfleet).nonneg
  have hmerged := kept_added (withCargoOf self fleet).toAttributes hkept hvalid
  refine ⟨_, _, mergeFleet_apply w hget hfleet hne hvalid, ?_,
    (hall.put _ hmerged).destroy fleet.id⟩
  refine (Db.inventories_destroy (db.setFleets (db.fleets.put self.id
    ⟨_, added (shipsOf fleetRow.shipfleets) row.shipfleets⟩)) fleet.id).trans ?_
  rw [Db.inventories_put hget, FleetRow.inventory, inventory_added hkept.nonneg hvalid]
  rfl

/-- A fleet reached by the four methods is an inventory with up-to-date values, and each of the
methods does on it what it should do on inventories. -/
theorem fleet_refines_inventory (w : World) {start db : Db} {calls : List FleetCall}
    (hstart : start.fleets = Table.empty)
    (hrun : run (FleetCall.step w) start calls = some db) {self : Fleet} {row : FleetRow}
    (hget : db.fleets.get self.id = some row) :
    row.Kept w db ∧
    (∃ ships, self.getShips.run db = .ok ships db ∧ Inventory.ofHash ships = row.inventory ∧
      ∀ ship amount, ships.get? ship = some amount ↔ ⟨ship, amount⟩ ∈ row.shipfleets) ∧
    (∀ shipHash, AddsInventory w db self row shipHash) ∧
    (∀ shipHash, DestroysInventory w db self row shipHash) ∧
    (∀ shipHash, SplitsInventory w db self row shipHash) ∧
    ∀ fleet fleetRow, db.fleets.get fleet.id = some fleetRow → self.id ≠ fleet.id →
      MergesInventory w db self row fleet fleetRow := by
  have hall := FleetCall.run_keeps_fleets hstart hrun
  have hkept := hall _ _ hget
  refine ⟨hkept, ⟨_, getShips_apply hget, rfl, fun ship amount => ?_⟩, adds_inventory hall hget,
    destroys_inventory hall hget, splits_inventory hall hget, fun fleet fleetRow hfleet hne =>
      merges_inventory hall hget hfleet hne⟩
  rw [get?_shipsOf]
  exact ⟨mem_of_amountOf?, amountOf?_of_mem hkept.one_row⟩

/-- A fleet of three small cargo ships and a fighter, of which one cargo ship was split off. -/
def sampleCalls : List FleetCall :=
  let fleet : Fleet := { newAttributes Seeds.start 1 1 with id := 1 }
  [.new 1, .addShips fleet (.single 1 3), .addShips fleet (.single 3 1),
    .splitFleet fleet (.single 1 1)]

def sampleDb : Db := (run (FleetCall.step Seeds.world) Seeds.start sampleCalls).get (by decide)

def sampleRow : FleetRow := (sampleDb.fleets.get 1).get (by decide +kernel)

theorem fleet_refines_inventory_sample :
    sampleRow.Kept Seeds.world sampleDb ∧
    (∀ shipHash, AddsInventory Seeds.world sampleDb (ofRow 1 sampleRow) sampleRow shipHash) ∧
    ∀ shipHash, SplitsInventory Seeds.world sampleDb (ofRow 1 sampleRow) sampleRow shipHash := by
  have hrefines := fleet_refines_inventory Seeds.world
    rfl (Option.some_get _).symm
    (show sampleDb.fleets.get (ofRow 1 sampleRow).id = some sampleRow from (Option.some_get _).symm)
  exact ⟨hrefines.1, hrefines.2.2.1, hrefines.2.2.2.2.1⟩

end Fleet

end Mmog
