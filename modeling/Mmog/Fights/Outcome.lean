import Mmog.Fights.Losses
import Mmog.Missions.Arrival

/-!
# The outcomes of a fight

The loser's fleets are gone, the winner's fleets lose the ships that were
drawn.  A loss loop that raises leaves everything as it was.
-/

namespace Mmog

open Ruby Action

namespace Fight

/-! ## What can be lost -/

/-- A pool of a fleet from which some ships are gone. -/
structure Pool.From (ships : Hash ShipId ℤ) (pool : Pool) : Prop where
  without : ∃ gone, pool.Without ships gone
  keys : ∀ ship ∈ pool.lost.keys, ship ∈ ships.keys

theorem mem_keys_of_allships {ships : Hash ShipId ℤ} {ship : ShipId} (hship : ship ∈ (Pool.of ships).allships) :
    ship ∈ ships.keys := by
  obtain ⟨entry, hentry, hmem⟩ := List.mem_flatMap.mp hship
  rw [(List.mem_replicate.mp hmem).2]
  exact List.mem_map_of_mem hentry

namespace Pool.From

variable {ships : Hash ShipId ℤ} {pool : Pool}

theorem of (ships : Hash ShipId ℤ) : Pool.From ships (Pool.of ships) := by
  refine ⟨⟨[], Pool.without_of ships⟩, fun ship hship => ?_⟩
  rw [Pool.of, Hash.mem_keys_iff] at hship
  obtain ⟨value, hvalue⟩ := hship
  rw [Hash.get?_tabulate] at hvalue
  by_contra hnot
  rw [if_neg hnot] at hvalue
  cases hvalue

theorem drop (hpool : Pool.From ships pool) {index : ℕ} {ship : ShipId} (hget : pool.allships[index]? = some ship) :
    Pool.From ships (pool.drop index ship) := by
  obtain ⟨gone, hgone⟩ := hpool.without
  refine ⟨⟨ship :: gone, hgone.drop hget⟩, fun other hother => ?_⟩
  rw [Pool.drop, Hash.mem_keys_iff] at hother
  obtain ⟨value, hvalue⟩ := hother
  rw [Hash.get?_insert] at hvalue
  split at hvalue
  · rename_i heq
    have hmem : ship ∈ (Pool.of ships).allships :=
      hgone.perm.mem_iff.mpr (List.mem_append_left gone (List.mem_of_getElem? hget))
    exact heq ▸ mem_keys_of_allships hmem
  · exact hpool.keys other (Hash.mem_keys_iff.mpr ⟨value, hvalue⟩)

/-- A fleet without negative amounts has the ships that it loses. -/
theorem enough {rows : List Shipfleet} (hpool : Pool.From (Fleet.shipsOf rows) pool)
    (hvalid : Fleet.Valid rows) : Fleet.enoughShips? rows pool.lost = true := by
  obtain ⟨gone, hgone⟩ := hpool.without
  refine Fleet.enoughShips?_iff.mpr fun key value hget => ?_
  have hvalue : pool.lost.getD key 0 = value := by rw [Hash.getD, hget, Option.getD_some]
  have hkey := hpool.keys key (Hash.mem_keys_iff.mpr ⟨value, hget⟩)
  obtain ⟨amount, hamount⟩ := Hash.mem_keys_iff.mp hkey
  have hships : (Fleet.shipsOf rows).getD key 0 = amount := by rw [Hash.getD, hamount, Option.getD_some]
  have hle := hgone.lost_le key
  rw [hvalue, hships, Int.toNat_of_nonneg (Fleet.hashIsValid?_iff.mp hvalid key amount hamount)] at hle
  refine ⟨?_, amount, by rwa [Fleet.get?_shipsOf] at hamount, hle⟩
  rw [← hvalue, hgone.lost]
  exact Nat.cast_nonneg _

end Pool.From

theorem forall₂_set {α β : Type*} {R : α → β → Prop} {l : List α} {m : List β} (hall : List.Forall₂ R l m)
    {i : ℕ} {old new : β} (hget : m[i]? = some old) (hnew : ∀ a, R a old → R a new) :
    List.Forall₂ R l (m.set i new) := by
  induction hall generalizing i with
  | nil => exact .nil
  | @cons a b l m hab hall ih =>
      cases i with
      | zero =>
          obtain rfl := Option.some.inj hget
          exact .cons (hnew a hab) hall
      | succ i => exact .cons hab (ih hget)

/-- However the loop is drawn, what it leaves is left from the fleets. -/
theorem loseShips_from {strength : ShipId → ℤ} {shipamount : Hash ShipId ℤ} {target : Numeric}
    {fleets : List (Hash ShipId ℤ)} {picks : List (ℕ × ℕ)} {left : ℤ} {pools final : List Pool}
    (hpools : List.Forall₂ Pool.From fleets pools)
    (hlose : loseShips strength shipamount target picks left pools = .ok final) :
    List.Forall₂ Pool.From fleets final := by
  induction picks generalizing left pools with
  | nil =>
      unfold loseShips at hlose
      split at hlose
      · cases hlose
      · cases hlose
        exact hpools
  | cons pick picks ih =>
      unfold loseShips at hlose
      split at hlose
      · cases hround : round strength shipamount pick left pools with
        | error err =>
            rw [hround] at hlose
            cases hlose
        | ok next =>
            obtain ⟨left', pools'⟩ := next
            rw [hround] at hlose
            refine ih ?_ hlose
            obtain ⟨pool, hpool, ⟨-, rfl⟩ | ⟨ship, hship, -, -, rfl⟩⟩ := round_ok hround
            · exact hpools
            · exact forall₂_set hpools hpool fun ships hfrom => hfrom.drop hship
      · cases hlose
        exact hpools

theorem forall₂_of (fleets : List (Hash ShipId ℤ)) : List.Forall₂ Pool.From fleets (fleets.map Pool.of) := by
  rw [List.forall₂_map_right_iff]
  exact List.forall₂_same.mpr fun ships _ => Pool.From.of ships

/-! ## Both sides -/

/-- The fleets that a fight for the planet is against. -/
def defenders (db : Db) (planet : PlanetId) : List Fleet :=
  (db.fleets.select (Db.stationedAt planet)).filterMap fun id => (db.fleets.get id).map (Fleet.ofRow id)

/-- The shipfleet rows of a fleet. -/
def rowsIn (db : Db) (fleet : Fleet) : List Shipfleet := (db.fleets.get fleet.id).elim [] FleetRow.shipfleets

/-- By how much the attacker is stronger. -/
def fightFactor (db : Db) (self : Fleet) (planet : PlanetId) : ℤ :=
  self.offense - ((defenders db planet).map fun fleet => fleet.defense).sum

/-- The strength that the winner keeps. -/
def rest (draws : Draws) (db : Db) (self : Fleet) (planet : PlanetId) : Numeric :=
  ((|fightFactor db self planet| : ℤ) : Numeric) * .float draws.rate

section Sides

variable {db : Db} {planet : PlanetId}

theorem mem_defenders {fleet : Fleet} : fleet ∈ defenders db planet ↔
    ∃ row, db.fleets.get fleet.id = some row ∧ Db.stationedAt planet row = true ∧
      fleet = Fleet.ofRow fleet.id row := by
  rw [defenders, List.mem_filterMap]
  constructor
  · rintro ⟨id, hid, hfleet⟩
    obtain ⟨row, hget, rfl⟩ := Option.map_eq_some_iff.mp hfleet
    obtain ⟨found, hfound, hstationed⟩ := Table.mem_select.mp hid
    obtain rfl := Option.some.inj (hget.symm.trans hfound)
    exact ⟨row, hget, hstationed, rfl⟩
  · rintro ⟨row, hget, hstationed, hfleet⟩
    refine ⟨fleet.id, Table.mem_select.mpr ⟨row, hget, hstationed⟩, ?_⟩
    rw [hget, Option.map_some, ← hfleet]

theorem map_id_defenders (db : Db) (planet : PlanetId) :
    (defenders db planet).map (fun fleet => fleet.id) = db.fleets.select (Db.stationedAt planet) := by
  have hids : ∀ ids : List FleetId, (∀ id ∈ ids, ∃ row, db.fleets.get id = some row) →
      (ids.filterMap fun id => (db.fleets.get id).map (Fleet.ofRow id)).map (fun fleet => fleet.id) = ids := by
    intro ids hall
    induction ids with
    | nil => rfl
    | cons id ids ih =>
        obtain ⟨row, hget⟩ := hall id List.mem_cons_self
        rw [List.filterMap_cons_some (b := Fleet.ofRow id row) (by rw [hget]; rfl), List.map_cons,
          ih fun other hother => hall other (List.mem_cons_of_mem id hother)]
        rfl
  refine hids _ fun id hid => ?_
  obtain ⟨row, hget, -⟩ := Table.mem_select.mp hid
  exact ⟨row, hget⟩

theorem nodup_defenders (db : Db) (planet : PlanetId) :
    ((defenders db planet).map fun fleet => fleet.id).Nodup := by
  rw [map_id_defenders]
  exact Table.nodup_select _ _

theorem select_defenders (db : Db) (planet : PlanetId) :
    (Fleet.select (Db.stationedAt planet)).run db = .ok (defenders db planet) db := rfl

theorem mapM_getShips {fleets : List Fleet} (hall : ∀ fleet ∈ fleets, ∃ row, db.fleets.get fleet.id = some row) :
    (fleets.mapM Fleet.getShips).run db = .ok (fleets.map fun fleet => Fleet.shipsOf (rowsIn db fleet)) db := by
  induction fleets with
  | nil => rfl
  | cons fleet fleets ih =>
      obtain ⟨row, hget⟩ := hall fleet List.mem_cons_self
      have hships : fleet.getShips.run db = .ok (Fleet.shipsOf (rowsIn db fleet)) db := by
        rw [rowsIn, hget]
        exact Fleet.getShips_apply hget
      rw [List.mapM_cons, run_bind_of_ok hships,
        run_bind_of_ok (ih fun other hother => hall other (List.mem_cons_of_mem fleet hother))]
      rfl

theorem forM_destroy (db : Db) (fleets : List Fleet) : (fleets.forM Fleet.destroy).run db =
    .ok ⟨⟩ (db.setFleets ((fleets.map fun fleet => fleet.id).foldl Table.destroy db.fleets)) := by
  induction fleets generalizing db with
  | nil => rfl
  | cons fleet fleets ih =>
      refine (run_bind_of_ok (Fleet.destroy_apply db fleet) _).trans ?_
      rw [ih]
      rfl

end Sides

/-! ## Losses -/

section Losses

variable (w : World) (db : Db)

/-- The row of a fleet that lost ships. -/
def struckRow (lost : Hash ShipId ℤ) (row : FleetRow) : FleetRow :=
  ⟨Fleet.valued w db (Fleet.removed lost row.shipfleets) row.attributes, Fleet.removed lost row.shipfleets⟩

/-- The table after fleets lost ships, one fleet after another. -/
def struckTable (losses : List (Fleet × Hash ShipId ℤ)) (t : Table FleetRow) : Table FleetRow :=
  losses.foldl (fun t (fleet, lost) => t.modify fleet.id (struckRow w db lost)) t

/-- What is not among the values of a list is not the value of one of its elements. -/
theorem ne_of_not_mem_map {α β : Type*} {f : α → β} {b : β} {l : List α} (hnew : b ∉ l.map f) {a : α} (ha : a ∈ l) :
    f a ≠ b :=
  fun heq => hnew (heq ▸ List.mem_map_of_mem ha)

variable {db}

theorem forM_destroyShips {losses : List (Fleet × Hash ShipId ℤ)} {t : Table FleetRow}
    (hnodup : (losses.map fun loss => loss.1.id).Nodup)
    (hall : ∀ loss ∈ losses, ∃ row, t.get loss.1.id = some row ∧ loss.1 = Fleet.ofRow loss.1.id row ∧
      Fleet.enoughShips? row.shipfleets loss.2 = true) :
    (losses.forM fun (fleet, lost) => do let _ ← fleet.destroyShips w lost : Act Unit).run (db.setFleets t) =
      .ok ⟨⟩ (db.setFleets (struckTable w db losses t)) := by
  induction losses generalizing t with
  | nil => rfl
  | cons loss losses ih =>
      obtain ⟨fleet, lost⟩ := loss
      obtain ⟨hnew, hrest⟩ := List.nodup_cons.mp hnodup
      obtain ⟨row, hget, hfleet, henough⟩ := hall _ List.mem_cons_self
      have hattributes : fleet.toAttributes = row.attributes := congrArg Fleet.toAttributes hfleet
      have hdestroy := Fleet.destroyShips_apply w (show (db.setFleets t).fleets.get fleet.id = some row from hget) henough
      have hstruck : t.put fleet.id ⟨Fleet.valued w (db.setFleets t) (Fleet.removed lost row.shipfleets)
          fleet.toAttributes, Fleet.removed lost row.shipfleets⟩ = t.modify fleet.id (struckRow w db lost) := by
        rw [hattributes]
        exact (Table.modify_eq_put (struckRow w db lost) hget).symm
      have hone : (do let _ ← fleet.destroyShips w lost : Act Unit).run (db.setFleets t) =
          .ok ⟨⟩ (db.setFleets (t.modify fleet.id (struckRow w db lost))) := by
        rw [← hstruck]
        exact run_bind_of_ok hdestroy _
      refine (run_bind_of_ok hone _).trans (ih hrest fun other hother => ?_)
      have hne : other.1.id ≠ fleet.id := ne_of_not_mem_map hnew hother
      rw [Table.get_modify_of_ne t _ hne]
      exact hall other (List.mem_cons_of_mem _ hother)

theorem get_struckTable_of_not_mem {losses : List (Fleet × Hash ShipId ℤ)} {t : Table FleetRow} {id : FleetId}
    (hnot : id ∉ losses.map fun loss => loss.1.id) : (struckTable w db losses t).get id = t.get id := by
  induction losses generalizing t with
  | nil => rfl
  | cons loss losses ih =>
      rw [List.map_cons, List.mem_cons, not_or] at hnot
      exact (ih hnot.2).trans (Table.get_modify_of_ne t _ hnot.1)

theorem get_struckTable {losses : List (Fleet × Hash ShipId ℤ)} {t : Table FleetRow}
    (hnodup : (losses.map fun loss => loss.1.id).Nodup) {loss : Fleet × Hash ShipId ℤ} (hloss : loss ∈ losses)
    {row : FleetRow} (hget : t.get loss.1.id = some row) :
    (struckTable w db losses t).get loss.1.id = some (struckRow w db loss.2 row) := by
  induction losses generalizing t with
  | nil => cases hloss
  | cons first losses ih =>
      obtain ⟨hnew, hrest⟩ := List.nodup_cons.mp hnodup
      rcases List.mem_cons.mp hloss with rfl | hloss
      · exact (get_struckTable_of_not_mem w hnew).trans (Table.get_modify_self _ hget)
      · refine ih hrest hloss ?_
        rwa [Table.get_modify_of_ne t _ (ne_of_not_mem_map hnew hloss)]

end Losses

/-! ## Loot -/

theorem loot_board (draws : Draws) (self : Fleet) (planet : PlanetId) (db : Db) :
    ∃ cargo next, (loot draws self planet).run db = .ok (self.withCargo cargo) next ∧
      next.board = db.board.setFleets (db.fleets.modify self.id fun row =>
        { row with attributes := (self.withCargo cargo).toAttributes }) := by
  let wanted := wantedFor draws self.ressourceCapacity
  obtain ⟨crystal, db₁, hcrystal, took₁⟩ := Planet.take_took planet (.inr (.inl rfl)) wanted.crystal db
  let half := (wanted.crystal - crystal.toI) / 2
  obtain ⟨ore, db₂, hore, took₂⟩ := Planet.take_took planet (.inl rfl) (wanted.ore + half : ℤ) db₁
  obtain ⟨money, db₃, hmoney, took₃⟩ := Planet.take_took planet (.inr (.inr rfl))
    (wanted.money + half + (wanted.ore + half - ore.toI) : ℤ) db₂
  have hboard : db₃.board = db.board := took₃.board.trans (took₂.board.trans took₁.board)
  refine ⟨⟨ore.toI, crystal.toI, money.toI⟩, _,
    (run_bind_of_ok hcrystal _).trans ((run_bind_of_ok hore _).trans (run_bind_of_ok hmoney _)), ?_⟩
  rw [← Db.board_fleets db, ← hboard]
  rfl

/-! ## The fight -/

section Fought

variable (w : World) (draws : Draws) (db : Db) (self : Fleet) (planet : PlanetId)

/-- What the loss loop takes from the fleets of the winner, or what it raises. -/
def losses : Except Err (List (Hash ShipId ℤ)) :=
  if fightFactor db self planet < 0 then
    defenderLosses w ((defenders db planet).map fun fleet => Fleet.shipsOf (rowsIn db fleet))
      (rest draws db self planet) draws.picks ((defenders db planet).map fun fleet => fleet.defense).sum
  else if 0 < fightFactor db self planet then
    (attackerLosses w (Fleet.shipsOf (rowsIn db self)) (rest draws db self planet) draws.picks self.offense).map
      fun lost => [lost]
  else .ok []

/-- The table without the fleets that are stationed on the planet. -/
def cleared : Table FleetRow := (db.fleets.select (Db.stationedAt planet)).foldl Table.destroy db.fleets

end Fought

section Stationed

variable {db : Db} {planet : PlanetId} {id : FleetId} {row : FleetRow}

theorem not_mem_stationed (hget : db.fleets.get id = some row) (haway : Db.stationedAt planet row = false) :
    id ∉ db.fleets.select (Db.stationedAt planet) := by
  intro hmem
  obtain ⟨found, hfound, htest⟩ := Table.mem_select.mp hmem
  obtain rfl := Option.some.inj (hget.symm.trans hfound)
  exact Bool.false_ne_true (haway.symm.trans htest)

theorem get_cleared (hget : db.fleets.get id = some row) (haway : Db.stationedAt planet row = false) :
    (cleared db planet).get id = some row := by
  rw [cleared, Table.get_foldl_destroy, if_neg (not_mem_stationed hget haway), hget]

end Stationed

section Outcome

variable (w : World) (draws : Draws) (db : Db) (id : FleetId) (row : FleetRow) (planet : PlanetId)

/-- The attacker after it lost ships. -/
def winner (lost : Hash ShipId ℤ) : Fleet :=
  Fleet.revalued w db (Fleet.removed lost row.shipfleets) (Fleet.ofRow id row)

/-- The ways an attack can end. -/
inductive Attacks : Db → Prop
  | turned (next : Db) (hrelation : db.relation row.attributes.user planet ≠ .enemy)
      (hturns : Fleet.Turns w db (Fleet.ofRow id row) row.shipfleets planet next) : Attacks next
  | raised (err : Err) (hrelation : db.relation row.attributes.user planet = .enemy)
      (hlosses : losses w draws db (Fleet.ofRow id row) planet = .error err) : Attacks db
  | beaten (lost : List (Hash ShipId ℤ)) (hrelation : db.relation row.attributes.user planet = .enemy)
      (hfactor : fightFactor db (Fleet.ofRow id row) planet < 0)
      (hlosses : losses w draws db (Fleet.ofRow id row) planet = .ok lost)
      (henough : List.Forall₂ (fun fleet lost => Fleet.enoughShips? (rowsIn db fleet) lost = true)
        (defenders db planet) lost) :
      Attacks (db.setFleets ((struckTable w db ((defenders db planet).zip lost) db.fleets).destroy id))
  | drawn (hrelation : db.relation row.attributes.user planet = .enemy)
      (hfactor : fightFactor db (Fleet.ofRow id row) planet = 0) :
      Attacks (db.setFleets ((cleared db planet).destroy id))
  | won (lost : Hash ShipId ℤ) (cargo : Cargo) (middle next : Db)
      (hrelation : db.relation row.attributes.user planet = .enemy)
      (hfactor : 0 < fightFactor db (Fleet.ofRow id row) planet)
      (hlosses : losses w draws db (Fleet.ofRow id row) planet = .ok [lost])
      (henough : Fleet.enoughShips? row.shipfleets lost = true) (haway : Db.stationedAt planet row = false)
      (hboard : middle.board = db.board.setFleets ((cleared db planet).put id
        ⟨((winner w db id row lost).withCargo cargo).toAttributes, Fleet.removed lost row.shipfleets⟩))
      (hturns : Fleet.Turns w middle ((winner w db id row lost).withCargo cargo)
        (Fleet.removed lost row.shipfleets) planet next) : Attacks next
  | vanished (lost : Hash ShipId ℤ) (next : Db) (hrelation : db.relation row.attributes.user planet = .enemy)
      (hfactor : 0 < fightFactor db (Fleet.ofRow id row) planet)
      (hlosses : losses w draws db (Fleet.ofRow id row) planet = .ok [lost])
      (hthere : Db.stationedAt planet row = true) (hboard : next.board = db.board.setFleets (cleared db planet)) :
      Attacks next

end Outcome

section Run

variable (w : World) {draws : Draws} {db : Db} {planet : PlanetId}

theorem orRaise_ok {α : Type} (value : α) (db : Db) : (orRaise (.ok value)).run db = .ok value db := rfl

theorem orRaise_error {α : Type} (err : Err) (db : Db) : (orRaise (.error err : Except Err α)).run db = .error err db :=
  rfl

theorem valid_rowsIn (hvalid : db.fleets.All fun row => Fleet.Valid row.shipfleets) (fleet : Fleet) :
    Fleet.Valid (rowsIn db fleet) := by
  rw [rowsIn]
  cases hget : db.fleets.get fleet.id with
  | none => exact Fleet.valid_nil
  | some row => exact hvalid fleet.id row hget

theorem exists_of_map_ok {ε α β : Type} {f : α → β} {outcome : Except ε α} {b : β} (hmap : outcome.map f = .ok b) :
    ∃ a, outcome = .ok a ∧ f a = b := by
  cases outcome with
  | error err => cases hmap
  | ok a =>
      cases hmap
      exact ⟨a, rfl, rfl⟩

theorem defenderLosses_enough (hvalid : db.fleets.All fun row => Fleet.Valid row.shipfleets) {fleets : List Fleet} {target : Numeric} {picks : List (ℕ × ℕ)}
    {defense : ℤ} {lost : List (Hash ShipId ℤ)}
    (hlosses : defenderLosses w (fleets.map fun fleet => Fleet.shipsOf (rowsIn db fleet)) target picks defense =
      .ok lost) :
    List.Forall₂ (fun fleet lost => Fleet.enoughShips? (rowsIn db fleet) lost = true) fleets lost := by
  obtain ⟨pools, hpools, rfl⟩ := exists_of_map_ok hlosses
  have hfrom := loseShips_from (forall₂_of _) hpools
  rw [List.forall₂_map_left_iff] at hfrom
  rw [List.forall₂_map_right_iff]
  exact hfrom.imp fun fleet pool hpool => hpool.enough (valid_rowsIn hvalid fleet)

theorem attackerLosses_enough {rows : List Shipfleet} (hvalid : Fleet.Valid rows)
    {target : Numeric} {picks : List (ℕ × ℕ)} {offense : ℤ} {lost : Hash ShipId ℤ}
    (hlosses : attackerLosses w (Fleet.shipsOf rows) target picks offense = .ok lost) :
    Fleet.enoughShips? rows lost = true := by
  obtain ⟨pools, hpools, rfl⟩ := exists_of_map_ok hlosses
  have hfrom := loseShips_from (forall₂_of [Fleet.shipsOf rows]) hpools
  cases hfrom with
  | cons hpool hrest =>
      cases hrest
      exact hpool.enough hvalid

section Struck

variable {lost : List (Hash ShipId ℤ)} (henough : List.Forall₂ (fun fleet lost =>
  Fleet.enoughShips? (rowsIn db fleet) lost = true) (defenders db planet) lost)

include henough

theorem nodup_struck : (((defenders db planet).zip lost).map fun loss => loss.1.id).Nodup := by
  have hfleets := List.map_fst_zip henough.length_eq.le
  have hids := nodup_defenders db planet
  rw [← hfleets, List.map_map] at hids
  exact hids

/-- The defenders that won lose their ships one fleet after another. -/
theorem forM_defenders : (((defenders db planet).zip lost).forM fun (fleet, lost) => do
      let _ ← fleet.destroyShips w lost : Act Unit).run (db.setFleets db.fleets) =
    .ok ⟨⟩ (db.setFleets (struckTable w db ((defenders db planet).zip lost) db.fleets)) := by
  refine forM_destroyShips w (nodup_struck henough) fun loss hloss => ?_
  obtain ⟨row, hget, -, hfleet⟩ := mem_defenders.mp (List.of_mem_zip hloss).1
  have hhas := List.forall₂_zip henough hloss
  rw [rowsIn, hget] at hhas
  exact ⟨row, hget, hfleet, hhas⟩

/-- What is left of a defender. -/
theorem rowsIn_struck {loss : Fleet × Hash ShipId ℤ} (hloss : loss ∈ (defenders db planet).zip lost) :
    rowsIn (db.setFleets (struckTable w db ((defenders db planet).zip lost) db.fleets)) loss.1 =
      Fleet.removed loss.2 (rowsIn db loss.1) := by
  obtain ⟨row, hget, -, -⟩ := mem_defenders.mp (List.of_mem_zip hloss).1
  have hstruck : (struckTable w db _ db.fleets).get _ = _ := get_struckTable w (nodup_struck henough) hloss hget
  rw [rowsIn, Db.fleets_setFleets, hstruck, rowsIn, hget]
  rfl

end Struck

section Fight

variable (draws) {self : Fleet}

/-- The part of a fight in which the defenders lose ships. -/
theorem strike_run (hfactor : fightFactor db self planet < 0) (hvalid : db.fleets.All fun row => Fleet.Valid row.shipfleets)
    {α : Type} (next : Act α) : (do
      let ships ← (defenders db planet).mapM Fleet.getShips
      let lost ← orRaise (defenderLosses w ships (rest draws db self planet) draws.picks
        ((defenders db planet).map fun fleet => fleet.defense).sum)
      ((defenders db planet).zip lost).forM fun (fleet, lost) => do let _ ← fleet.destroyShips w lost
      next : Act α).run db = match losses w draws db self planet with
      | .error err => .error err db
      | .ok lost => next.run (db.setFleets (struckTable w db ((defenders db planet).zip lost) db.fleets)) := by
  have hrows : ∀ fleet ∈ defenders db planet, ∃ row, db.fleets.get fleet.id = some row := by
    intro fleet hfleet
    obtain ⟨row, hget, -⟩ := mem_defenders.mp hfleet
    exact ⟨row, hget⟩
  refine (run_bind_of_ok (mapM_getShips hrows) _).trans ?_
  have hlosses : losses w draws db self planet = defenderLosses w
      ((defenders db planet).map fun fleet => Fleet.shipsOf (rowsIn db fleet)) (rest draws db self planet) draws.picks
      ((defenders db planet).map fun fleet => fleet.defense).sum := if_pos hfactor
  rw [hlosses]
  cases hlost : defenderLosses w ((defenders db planet).map fun fleet => Fleet.shipsOf (rowsIn db fleet))
      (rest draws db self planet) draws.picks ((defenders db planet).map fun fleet => fleet.defense).sum with
  | error err => exact run_bind_of_error (orRaise_error err db) _
  | ok lost =>
      refine (run_bind_of_ok (orRaise_ok lost db) _).trans ?_
      exact run_bind_of_ok (forM_defenders w (defenderLosses_enough w hvalid hlost)) _

theorem fight_beaten (hfactor : fightFactor db self planet < 0) (hvalid : db.fleets.All fun row => Fleet.Valid row.shipfleets) :
    (self.fight w draws planet).run db = match losses w draws db self planet with
      | .error err => .error err db
      | .ok lost =>
          .ok none (db.setFleets ((struckTable w db ((defenders db planet).zip lost) db.fleets).destroy self.id)) := by
  rw [Fleet.fight, run_bind_of_ok (select_defenders db planet)]
  refine (congrArg (fun action : Act (Option Fleet) => action.run db) (if_pos hfactor)).trans ?_
  exact strike_run w draws hfactor hvalid (do self.destroy; return none)

theorem fight_drawn (hfactor : fightFactor db self planet = 0) :
    (self.fight w draws planet).run db = .ok none (db.setFleets ((cleared db planet).destroy self.id)) := by
  have hclear := forM_destroy db (defenders db planet)
  rw [map_id_defenders] at hclear
  rw [Fleet.fight, run_bind_of_ok (select_defenders db planet)]
  refine (congrArg (fun action : Act (Option Fleet) => action.run db) (if_neg hfactor.not_lt)).trans ?_
  refine (congrArg (fun action : Act (Option Fleet) => action.run db) (if_neg hfactor.not_gt)).trans ?_
  refine (run_bind_of_ok hclear _).trans ?_
  exact run_bind_of_ok (Fleet.destroy_apply _ self) _

section Winning

variable {row : FleetRow} (hget : db.fleets.get self.id = some row) (hfactor : 0 < fightFactor db self planet)

include hget hfactor

theorem losses_of_pos : losses w draws db self planet = (attackerLosses w (Fleet.shipsOf row.shipfleets)
    (rest draws db self planet) draws.picks self.offense).map fun lost => [lost] := by
  have hrows : rowsIn db self = row.shipfleets := by rw [rowsIn, hget, Option.elim_some]
  rw [losses, if_neg hfactor.not_gt, if_pos hfactor, hrows]

/-- The branch of an attacker who wins, after its fleet was read. -/
theorem fight_pos : (self.fight w draws planet).run db = (do
    let lost ← orRaise (attackerLosses w (Fleet.shipsOf row.shipfleets) (rest draws db self planet) draws.picks
      self.offense)
    let self ← self.destroyShips w lost
    (defenders db planet).forM Fleet.destroy
    self.save
    some <$> loot draws self planet : Act (Option Fleet)).run db := by
  rw [Fleet.fight, run_bind_of_ok (select_defenders db planet)]
  refine (congrArg (fun action : Act (Option Fleet) => action.run db) (if_neg hfactor.not_gt)).trans ?_
  refine (congrArg (fun action : Act (Option Fleet) => action.run db) (if_pos hfactor)).trans ?_
  exact run_bind_of_ok (Fleet.getShips_apply hget) _

/-- The table when the attacker starts to loot: its own row, if it is still there, is saved once more. -/
def struckTableOf (w : World) (db : Db) (self : Fleet) (row : FleetRow) (planet : PlanetId) (lost : Hash ShipId ℤ) :
    Table FleetRow :=
  ((db.fleets.select (Db.stationedAt planet)).foldl Table.destroy
    (db.fleets.put self.id ⟨Fleet.valued w db (Fleet.removed lost row.shipfleets) self.toAttributes,
      Fleet.removed lost row.shipfleets⟩)).modify self.id fun found =>
        { found with attributes := (Fleet.revalued w db (Fleet.removed lost row.shipfleets) self).toAttributes }

omit hfactor in
/-- The part of a fight in which the attacker loses ships and the defenders are destroyed. -/
theorem conquer_run {lost : Hash ShipId ℤ} (hlost : attackerLosses w (Fleet.shipsOf row.shipfleets)
      (rest draws db self planet) draws.picks self.offense = .ok lost)
    (henough : Fleet.enoughShips? row.shipfleets lost = true) {α : Type} (next : Fleet → Act α) : (do
      let lost ← orRaise (attackerLosses w (Fleet.shipsOf row.shipfleets) (rest draws db self planet) draws.picks
        self.offense)
      let self ← self.destroyShips w lost
      (defenders db planet).forM Fleet.destroy
      self.save
      next self : Act α).run db =
      (next (Fleet.revalued w db (Fleet.removed lost row.shipfleets) self)).run
        (db.setFleets (struckTableOf w db self row planet lost)) := by
  have hdestroy := Fleet.destroyShips_apply w hget henough
  let struck := Fleet.revalued w db (Fleet.removed lost row.shipfleets) self
  have hclear := forM_destroy (db.setFleets (db.fleets.put self.id
    ⟨struck.toAttributes, Fleet.removed lost row.shipfleets⟩)) (defenders db planet)
  rw [map_id_defenders] at hclear
  rw [hlost, run_bind_of_ok (orRaise_ok lost db)]
  exact (run_bind_of_ok hdestroy _).trans (run_bind_of_ok hclear _)

theorem fight_loots {lost : Hash ShipId ℤ} (hlost : attackerLosses w (Fleet.shipsOf row.shipfleets)
      (rest draws db self planet) draws.picks self.offense = .ok lost)
    (henough : Fleet.enoughShips? row.shipfleets lost = true) : (self.fight w draws planet).run db =
      (some <$> loot draws (Fleet.revalued w db (Fleet.removed lost row.shipfleets) self) planet).run
        (db.setFleets (struckTableOf w db self row planet lost)) := by
  rw [fight_pos w draws hget hfactor]
  exact conquer_run w draws hget hlost henough fun self => some <$> loot draws self planet

end Winning

/-- An attacker who wins goes on with what it looted, in its row if this is still there. -/
theorem fight_won {row : FleetRow} (hget : db.fleets.get self.id = some row)
    (hfactor : 0 < fightFactor db self planet) (hvalid : db.fleets.All fun row => Fleet.Valid row.shipfleets) :
    (∃ err, losses w draws db self planet = .error err ∧ (self.fight w draws planet).run db = .error err db) ∨
      ∃ lost cargo next, losses w draws db self planet = .ok [lost] ∧
        Fleet.enoughShips? row.shipfleets lost = true ∧
        (self.fight w draws planet).run db =
          .ok (some ((Fleet.revalued w db (Fleet.removed lost row.shipfleets) self).withCargo cargo)) next ∧
        next.board = db.board.setFleets (((db.fleets.select (Db.stationedAt planet)).foldl Table.destroy
          (db.fleets.put self.id ⟨Fleet.valued w db (Fleet.removed lost row.shipfleets) self.toAttributes,
            Fleet.removed lost row.shipfleets⟩)).modify self.id fun found => { found with attributes :=
              ((Fleet.revalued w db (Fleet.removed lost row.shipfleets) self).withCargo cargo).toAttributes }) := by
  have hlosses := losses_of_pos w draws hget hfactor
  cases hlost : attackerLosses w (Fleet.shipsOf row.shipfleets) (rest draws db self planet) draws.picks
      self.offense with
  | error err =>
      refine .inl ⟨err, by rw [hlosses, hlost]; rfl, ?_⟩
      rw [fight_pos w draws hget hfactor, hlost, run_bind_of_error (orRaise_error err db)]
  | ok lost =>
      have henough := attackerLosses_enough w (hvalid self.id row hget) hlost
      let struck := Fleet.revalued w db (Fleet.removed lost row.shipfleets) self
      obtain ⟨cargo, next, hloot, hboard⟩ := loot_board draws struck planet
        (db.setFleets (struckTableOf w db self row planet lost))
      refine .inr ⟨lost, cargo, next, by rw [hlosses, hlost]; rfl, henough, ?_, ?_⟩
      · rw [fight_loots w draws hget hfactor hlost henough]
        exact run_map_of_ok hloot some
      · rw [hboard]
        exact congrArg db.board.setFleets (Table.modify_modify _ self.id _ _)

end Fight

variable (draws) (planet) in
theorem attack_attacks (hvalid : db.fleets.All fun row => Fleet.Valid row.shipfleets) {id : FleetId} {row : FleetRow} (hget : db.fleets.get id = some row) :
    Attacks w draws db id row planet (after (((Fleet.ofRow id row).attack w draws planet).run db)) := by
  have hself : db.fleets.get (Fleet.ofRow id row).id = some row := hget
  have hrows : rowsIn db (Fleet.ofRow id row) = row.shipfleets := by rw [rowsIn, hself, Option.elim_some]
  have hturns := Fleet.returnToOrigin_turns w hself planet
  rw [Fleet.attack, run_bind_get]
  have hturned : db.relation (Fleet.ofRow id row).user planet ≠ .enemy →
      Attacks w draws db id row planet (after (((Fleet.ofRow id row).returnToOrigin w planet).run db)) :=
    fun hne => .turned _ hne hturns
  cases hrelation : db.relation (Fleet.ofRow id row).user planet with
  | unknown => exact hturned (by rw [hrelation]; nofun)
  | own => exact hturned (by rw [hrelation]; nofun)
  | allied => exact hturned (by rw [hrelation]; nofun)
  | enemy =>
      rcases lt_trichotomy (fightFactor db (Fleet.ofRow id row) planet) 0 with hfactor | hfactor | hfactor
      · have hfight := fight_beaten w draws hfactor hvalid
        cases hlosses : losses w draws db (Fleet.ofRow id row) planet with
        | error err =>
            rw [hlosses] at hfight
            refine (congrArg after (run_bind_of_error hfight _)).symm ▸ ?_
            exact .raised err hrelation hlosses
        | ok lost =>
            rw [hlosses] at hfight
            refine (congrArg after (run_bind_of_ok hfight _)).symm ▸ ?_
            exact .beaten lost hrelation hfactor hlosses
              (defenderLosses_enough w hvalid (hlosses.symm.trans (if_pos hfactor)).symm)
      · have hfight := fight_drawn w draws hfactor
        refine (congrArg after (run_bind_of_ok hfight _)).symm ▸ ?_
        exact .drawn hrelation hfactor
      · obtain ⟨err, hlosses, hfight⟩ | ⟨lost, cargo, middle, hlosses, henough, hfight, hboard⟩ :=
          fight_won w draws hself hfactor hvalid
        · refine (congrArg after (run_bind_of_error hfight _)).symm ▸ ?_
          exact .raised err hrelation hlosses
        · refine (congrArg after (run_bind_of_ok hfight _)).symm ▸ ?_
          cases hstationed : Db.stationedAt planet row with
          | true =>
              have hmem : id ∈ db.fleets.select (Db.stationedAt planet) := Table.mem_select.mpr ⟨row, hget, hstationed⟩
              have hgone : (cleared db planet).get id = none := by
                rw [cleared, Table.get_foldl_destroy, if_pos hmem]
              rw [Fleet.ofRow_id, Table.foldl_destroy_put_of_mem hmem] at hboard
              rw [show (db.fleets.select (Db.stationedAt planet)).foldl Table.destroy db.fleets = cleared db planet
                from rfl, Table.modify_of_none _ hgone] at hboard
              have hmiddle : middle.fleets.get ((winner w db id row lost).withCargo cargo).id = none := by
                rw [show middle.fleets = middle.board.fleets from rfl, hboard]
                exact hgone
              have hnext := Fleet.returnToOrigin_of_none w hmiddle planet
              refine hnext.symm ▸ ?_
              exact .vanished lost middle hrelation hfactor hlosses hstationed hboard
          | false =>
              have hnot : id ∉ db.fleets.select (Db.stationedAt planet) := by
                intro hmem
                obtain ⟨found, hfound, htest⟩ := Table.mem_select.mp hmem
                obtain rfl := Option.some.inj (hget.symm.trans hfound)
                rw [hstationed] at htest
                cases htest
              have hleft : (cleared db planet).get id = some row := by
                rw [cleared, Table.get_foldl_destroy, if_neg hnot, hget]
              have hput := Table.get_put (t := cleared db planet)
                ⟨(winner w db id row lost).toAttributes, Fleet.removed lost row.shipfleets⟩ hleft id
              rw [if_pos rfl] at hput
              rw [Fleet.ofRow_id, Table.foldl_destroy_put_of_not_mem hget hnot] at hboard
              have hnext : middle.board = db.board.setFleets ((cleared db planet).put id
                  ⟨((winner w db id row lost).withCargo cargo).toAttributes, Fleet.removed lost row.shipfleets⟩) := by
                refine hboard.trans (congrArg db.board.setFleets ((Table.modify_eq_put _ hput).trans ?_))
                exact Table.put_put _ _ _ _
              have hmiddle : middle.fleets.get ((winner w db id row lost).withCargo cargo).id =
                  some ⟨((winner w db id row lost).withCargo cargo).toAttributes, Fleet.removed lost row.shipfleets⟩ := by
                rw [show middle.fleets = middle.board.fleets from rfl, hnext]
                exact (Table.get_put _ hleft id).trans (if_pos rfl)
              exact .won lost cargo middle _ hrelation hfactor hlosses henough hstationed hnext
                (Fleet.returnToOrigin_turns w hmiddle planet)

end Run

end Fight

end Mmog
