import Mmog.Ships.Rows

/-!
# What the fleet methods do

One equation for each method that touches the rows of a fleet: which object it
gives back and which table it leaves, or what it raises.
-/

namespace Mmog

open Ruby Action

namespace Db

@[simp] theorem fleets_setFleets (db : Db) (t : Table FleetRow) : (db.setFleets t).fleets = t := rfl
@[simp] theorem planets_setFleets (db : Db) (t : Table FleetRow) :
    (db.setFleets t).planets = db.planets := rfl
@[simp] theorem users_setFleets (db : Db) (t : Table FleetRow) :
    (db.setFleets t).users = db.users := rfl
@[simp] theorem now_setFleets (db : Db) (t : Table FleetRow) : (db.setFleets t).now = db.now := rfl
@[simp] theorem delayed_setFleets (db : Db) (t : Table FleetRow) :
    (db.setFleets t).delayed = db.delayed := rfl
@[simp] theorem ready_setFleets (db : Db) (t : Table FleetRow) :
    (db.setFleets t).ready = db.ready := rfl
@[simp] theorem setFleets_setFleets (db : Db) (s t : Table FleetRow) :
    (db.setFleets s).setFleets t = db.setFleets t := rfl
@[simp] theorem setFleets_self (db : Db) : db.setFleets db.fleets = db := rfl

end Db

@[simp] theorem run_raise {α : Type} (message : String) (db : Db) :
    (raise message : Act α).run db = .error (.runtimeError message) db := rfl

@[simp] theorem run_bind_raise {α β : Type} (message : String) (next : α → Act β) (db : Db) :
    ((raise message : Act α) >>= next).run db = .error (.runtimeError message) db := rfl

namespace Fleet

/-- The object that `find` makes of a row. -/
def ofRow (id : FleetId) (row : FleetRow) : Fleet := { row.attributes with id }

@[simp] theorem ofRow_id (id : FleetId) (row : FleetRow) : (ofRow id row).id = id := rfl
@[simp] theorem ofRow_toAttributes (id : FleetId) (row : FleetRow) :
    (ofRow id row).toAttributes = row.attributes := rfl

theorem find_of_some {db : Db} {id : FleetId} {row : FleetRow} (hget : db.fleets.get id = some row) :
    (find id).run db = .ok (ofRow id row) db := by
  rw [find, run_bind_get, hget]
  rfl

theorem find_of_none {db : Db} {id : FleetId} (hget : db.fleets.get id = none) :
    (find id).run db = .error .recordNotFound db := by
  rw [find, run_bind_get, hget]
  rfl

section Row

variable {db : Db} {self : Fleet} {row : FleetRow}

theorem save_apply (hget : db.fleets.get self.id = some row) :
    self.save.run db =
      .ok ⟨⟩ (db.setFleets (db.fleets.put self.id ⟨self.toAttributes, row.shipfleets⟩)) := by
  rw [save, run_modify, Table.modify_eq_put _ hget]

theorem save_of_none (hget : db.fleets.get self.id = none) : self.save.run db = .ok ⟨⟩ db := by
  rw [save, run_modify, Table.modify_of_none _ hget, Db.setFleets_self]

theorem destroy_apply (db : Db) (self : Fleet) :
    self.destroy.run db = .ok ⟨⟩ (db.setFleets (db.fleets.destroy self.id)) := rfl

theorem shipfleets_apply (hget : db.fleets.get self.id = some row) :
    self.shipfleets.run db = .ok row.shipfleets db := by
  rw [shipfleets, run_bind_get, hget]
  rfl

theorem ships_apply (hget : db.fleets.get self.id = some row) :
    self.ships.run db = .ok (typesOf row.shipfleets) db := by
  rw [ships, run_bind_of_ok (shipfleets_apply hget)]
  rfl

theorem getShipsOf_apply (hget : db.fleets.get self.id = some row) :
    (getShipsOf (typesOf row.shipfleets) self).run db = .ok (shipsOf row.shipfleets) db := by
  rw [getShipsOf, run_bind_of_ok (shipfleets_apply hget), collectShips_types]
  rfl

theorem getShips_apply (hget : db.fleets.get self.id = some row) :
    self.getShips.run db = .ok (shipsOf row.shipfleets) db := by
  rw [getShips, run_bind_of_ok (ships_apply hget), getShipsOf_apply hget]

theorem writeShipfleets_apply (hget : db.fleets.get self.id = some row)
    (change : List Shipfleet → List Shipfleet) :
    (self.writeShipfleets change).run db =
      .ok ⟨⟩ (db.setFleets (db.fleets.put self.id ⟨row.attributes, change row.shipfleets⟩)) := by
  rw [writeShipfleets, run_modify, Table.modify_eq_put _ hget]

/-! ## Values -/

variable (w : World)

/-- The attributes after `update_values` with these rows. -/
def valued (db : Db) (rows : List Shipfleet) (attributes : Attributes) : Attributes :=
  withValues w (db.users attributes.user).userSetting (shipsOf rows) attributes

/-- The object after `update_values`. -/
def revalued (db : Db) (rows : List Shipfleet) (self : Fleet) : Fleet :=
  { valued w db rows self.toAttributes with id := self.id }

@[simp] theorem revalued_id (db : Db) (rows : List Shipfleet) (self : Fleet) :
    (revalued w db rows self).id = self.id := rfl
@[simp] theorem revalued_toAttributes (db : Db) (rows : List Shipfleet) (self : Fleet) :
    (revalued w db rows self).toAttributes = valued w db rows self.toAttributes := rfl

theorem valued_setFleets (db : Db) (t : Table FleetRow) (rows : List Shipfleet)
    (attributes : Attributes) : valued w (db.setFleets t) rows attributes = valued w db rows attributes :=
  rfl

@[simp] theorem valued_toRoute (db : Db) (rows : List Shipfleet) (attributes : Attributes) :
    (valued w db rows attributes).toRoute = attributes.toRoute := by
  unfold valued withValues
  dsimp only
  split <;> rfl

@[simp] theorem valued_toCargo (db : Db) (rows : List Shipfleet) (attributes : Attributes) :
    (valued w db rows attributes).toCargo = attributes.toCargo := by
  unfold valued withValues
  dsimp only
  split <;> rfl

theorem updateValues_apply (hget : db.fleets.get self.id = some row) :
    (self.updateValues w).run db = .ok (revalued w db row.shipfleets self)
      (db.setFleets (db.fleets.put self.id
        ⟨valued w db row.shipfleets self.toAttributes, row.shipfleets⟩)) := by
  rw [updateValues, run_bind_of_ok (ships_apply hget), updateValuesOf,
    run_bind_of_ok (getShipsOf_apply hget), run_bind_get]
  have hsave := save_apply
    (show db.fleets.get (revalued w db row.shipfleets self).id = some row from hget)
  exact run_bind_of_ok hsave _

/-! ## Adding and destroying ships -/

theorem addToRows_apply (hget : db.fleets.get self.id = some row) (entries : List (ShipId × ℤ))
    (newShips : Hash ShipId ℤ) :
    (self.addToRows entries newShips).run db =
      .ok (entries.foldl (fun newShips entry =>
          if entry.1 ∈ typesOf row.shipfleets then newShips
          else newShips.insert entry.1 entry.2) newShips)
        (db.setFleets (db.fleets.put self.id
          ⟨row.attributes, changeAll (· + ·) entries row.shipfleets⟩)) := by
  induction entries generalizing db row newShips with
  | nil =>
      rw [addToRows, run_pure, List.foldl_nil, changeAll, Table.put_self hget, Db.setFleets_self]
  | cons entry entries ih =>
      rw [addToRows, run_bind_of_ok (ships_apply hget), List.foldl_cons]
      by_cases hmem : entry.1 ∈ typesOf row.shipfleets
      · rw [if_pos hmem, if_pos hmem, run_bind_of_ok (writeShipfleets_apply hget _),
          ih (Table.get_put _ hget _ ▸ if_pos rfl), typesOf_changeAmount]
        simp only [Db.fleets_setFleets, Db.setFleets_setFleets, Table.put_put]
        rfl
      · rw [if_neg hmem, if_neg hmem, ih hget, changeAll, changeAmount_of_not_mem _ hmem]

theorem foldl_insert_new (types : List ShipId) {entries : List (ShipId × ℤ)}
    (hnodup : (entries.map Prod.fst).Nodup) {newShips : Hash ShipId ℤ}
    (hnew : ∀ key ∈ entries.map Prod.fst, key ∉ newShips.keys) :
    (entries.foldl (fun newShips entry =>
        if entry.1 ∈ types then newShips else newShips.insert entry.1 entry.2) newShips).entries =
      newShips.entries ++ entries.filter fun entry => entry.1 ∉ types := by
  induction entries generalizing newShips with
  | nil => simp
  | cons entry entries ih =>
      rw [List.map_cons, List.nodup_cons] at hnodup
      have hhead : entry.1 ∉ newShips.keys := hnew _ (List.mem_cons_self ..)
      have htail : ∀ key ∈ entries.map Prod.fst, key ∉ newShips.keys :=
        fun key hkey => hnew key (List.mem_cons_of_mem _ hkey)
      rw [List.foldl_cons]
      by_cases hmem : entry.1 ∈ types
      · rw [if_pos hmem, ih hnodup.2 htail, List.filter_cons_of_neg (by simpa using hmem)]
      · have hentries : (newShips.insert entry.1 entry.2).entries = newShips.entries ++ [entry] :=
          if_neg hhead
        rw [if_neg hmem, ih hnodup.2, hentries, List.filter_cons_of_pos (by simpa using hmem),
          List.append_assoc, List.singleton_append]
        intro key hkey hin
        rw [Hash.keys_insert, if_neg hhead, List.mem_append, List.mem_singleton] at hin
        rcases hin with hin | rfl
        · exact htail key hkey hin
        · exact hnodup.1 hkey

theorem addRows_apply (hget : db.fleets.get self.id = some row) {entries : List (ShipId × ℤ)}
    (hnodup : (entries.map Prod.fst).Nodup)
    (hnew : ∀ key ∈ entries.map Prod.fst, key ∉ typesOf row.shipfleets) :
    (self.addRows entries).run db =
      .ok ⟨⟩ (db.setFleets (db.fleets.put self.id
        ⟨row.attributes, row.shipfleets ++ entries.map fun (key, value) => ⟨key, value⟩⟩)) := by
  induction entries generalizing db row with
  | nil =>
      rw [addRows, run_pure, List.map_nil, List.append_nil, Table.put_self hget,
        Db.setFleets_self]
  | cons entry entries ih =>
      rw [List.map_cons, List.nodup_cons] at hnodup
      have hhead : entry.1 ∉ typesOf row.shipfleets := hnew _ (List.mem_cons_self ..)
      rw [addRows, run_bind_of_ok (writeShipfleets_apply hget _),
        run_bind_of_ok (writeShipfleets_apply (Table.get_put _ hget _ ▸ if_pos rfl) _),
        changeAmount_append_new _ hhead]
      simp only [Db.fleets_setFleets, Db.setFleets_setFleets, Table.put_put]
      rw [ih
        (Table.get_put _ hget _ ▸ if_pos rfl) hnodup.2]
      · simp only [Db.fleets_setFleets, Db.setFleets_setFleets, Table.put_put, List.append_assoc,
          List.singleton_append, List.map_cons]
      · intro key hkey hin
        rw [typesOf, List.map_append, List.mem_append] at hin
        rcases hin with hin | hin
        · exact hnew key (List.mem_cons_of_mem _ hkey) hin
        · have heq : key = entry.1 := List.mem_singleton.mp hin
          exact hnodup.1 (heq ▸ hkey)

theorem addShips_apply {shipHash : Hash ShipId ℤ} (hget : db.fleets.get self.id = some row)
    (hvalid : hashIsValid? shipHash = true) :
    (self.addShips w shipHash).run db = .ok (revalued w db (added shipHash row.shipfleets) self)
      (db.setFleets (db.fleets.put self.id
        ⟨valued w db (added shipHash row.shipfleets) self.toAttributes,
          added shipHash row.shipfleets⟩)) := by
  have hempty : ∀ key ∈ shipHash.keys, key ∉ (Hash.empty : Hash ShipId ℤ).keys :=
    fun _ _ => List.not_mem_nil
  have hentries := foldl_insert_new (typesOf row.shipfleets) shipHash.nodup hempty
  have hfirst := Table.get_put ⟨row.attributes, changeAll (· + ·) shipHash.entries row.shipfleets⟩
    hget self.id
  have hrows : (db.setFleets (db.fleets.put self.id
      ⟨row.attributes, changeAll (· + ·) shipHash.entries row.shipfleets⟩)).fleets.get self.id =
        some ⟨row.attributes, changeAll (· + ·) shipHash.entries row.shipfleets⟩ :=
    hfirst.trans (if_pos rfl)
  rw [addShips, if_neg (by simp [hvalid]), run_bind_of_ok (addToRows_apply hget shipHash.entries Hash.empty), hentries]
  rw [Hash.entries_empty, List.nil_append]
  let newShips := shipHash.filterKeys fun key => key ∉ typesOf row.shipfleets
  have hnew : ∀ key ∈ newShips.entries.map Prod.fst,
      key ∉ typesOf (changeAll (· + ·) shipHash.entries row.shipfleets) := by
    intro key hkey
    obtain ⟨entry, hentry, rfl⟩ := List.mem_map.mp hkey
    simpa using (List.mem_filter.mp hentry).2
  have hadd := addRows_apply hrows newShips.nodup hnew
  refine (run_bind_of_ok hadd _).trans ?_
  simp only [Db.fleets_setFleets, Db.setFleets_setFleets, Table.put_put]
  rw [updateValues_apply w ((Table.get_put _ hget self.id).trans (if_pos rfl))]
  simp only [Db.fleets_setFleets, Db.setFleets_setFleets, Table.put_put]
  rfl

theorem addShips_invalid {shipHash : Hash ShipId ℤ} (hvalid : ¬ hashIsValid? shipHash = true) :
    (self.addShips w shipHash).run db = .error (.runtimeError invalidInput) db := by
  rw [addShips, if_pos (by simpa using hvalid), run_bind_raise]

theorem takeFromRows_apply (hget : db.fleets.get self.id = some row)
    (entries : List (ShipId × ℤ)) :
    (self.takeFromRows entries).run db =
      .ok ⟨⟩ (db.setFleets (db.fleets.put self.id
        ⟨row.attributes, changeAll (· - ·) entries row.shipfleets⟩)) := by
  induction entries generalizing db row with
  | nil => rw [takeFromRows, run_pure, changeAll, Table.put_self hget, Db.setFleets_self]
  | cons entry entries ih =>
      rw [takeFromRows, run_bind_of_ok (writeShipfleets_apply hget _),
        ih (Table.get_put _ hget _ ▸ if_pos rfl)]
      simp only [Db.fleets_setFleets, Db.setFleets_setFleets, Table.put_put]
      rfl

theorem destroyShips_apply {shipHash : Hash ShipId ℤ} (hget : db.fleets.get self.id = some row)
    (henough : enoughShips? row.shipfleets shipHash = true) :
    (self.destroyShips w shipHash).run db = .ok (revalued w db (removed shipHash row.shipfleets) self)
      (db.setFleets (db.fleets.put self.id
        ⟨valued w db (removed shipHash row.shipfleets) self.toAttributes,
          removed shipHash row.shipfleets⟩)) := by
  rw [destroyShips, run_bind_of_ok (shipfleets_apply hget), if_neg (by simp [henough])]
  refine (run_bind_of_ok (takeFromRows_apply hget shipHash.entries) _).trans ?_
  have hput : (db.setFleets (db.fleets.put self.id
      ⟨row.attributes, removed shipHash row.shipfleets⟩)).fleets.get self.id =
        some ⟨row.attributes, removed shipHash row.shipfleets⟩ :=
    (Table.get_put _ hget self.id).trans (if_pos rfl)
  refine (updateValues_apply w hput).trans ?_
  simp only [Db.fleets_setFleets, Db.setFleets_setFleets, Table.put_put]
  rfl

theorem destroyShips_not_enough {shipHash : Hash ShipId ℤ}
    (hget : db.fleets.get self.id = some row)
    (henough : ¬ enoughShips? row.shipfleets shipHash = true) :
    (self.destroyShips w shipHash).run db = .error (.runtimeError cannotDestroy) db := by
  rw [destroyShips, run_bind_of_ok (shipfleets_apply hget), if_pos (by simpa using henough),
    run_bind_raise]

end Row

end Fleet

end Mmog
