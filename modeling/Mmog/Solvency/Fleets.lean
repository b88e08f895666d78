import Mmog.Game.Frame
import Mmog.Missions.Cargo
import Mmog.Solvency.Invariant

/-!
# Fleets and their cargo

Ships come and go, fleets split and merge, load and unload.  Only the object of
the fleet that stays behind after a split can have less than nothing aboard, and
it is never saved before the other fleet is merged into it again.
-/

namespace Mmog

open Ruby Action

namespace Fleet

/-- The object has no negative cargo. -/
def Solvent (self : Fleet) : Prop := self.toCargo.Solvent

/-- An object after `update_values`: its cargo is the same and its capacity is not negative. -/
structure Valued (before after : Fleet) : Prop where
  cargo : after.toCargo = before.toCargo
  capacity : 0 ≤ after.ressourceCapacity

theorem Valued.solvent {self valued : Fleet} (hvalued : Valued self valued) (hself : self.Solvent) :
    valued.Solvent := by
  unfold Solvent
  rw [hvalued.cargo]
  exact hself

/-! ## Rows -/

section Rows

variable {rows : List Shipfleet}

theorem Counted.amount (hrows : Counted rows) {ship : ShipId} {amount : ℤ}
    (hamount : amountOf? rows ship = some amount) : 0 ≤ amount := by
  have hnonneg := hrows ship
  rwa [amountOf, hamount, Option.getD_some] at hnonneg

theorem counted_of_amount (hrows : ∀ ship amount, amountOf? rows ship = some amount → 0 ≤ amount) :
    Counted rows := by
  intro ship
  rw [amountOf]
  cases hamount : amountOf? rows ship with
  | none => exact le_refl _
  | some amount => exact hrows ship amount hamount

theorem counted_nil : Counted [] := fun _ => le_refl _

theorem Counted.changeAmount (hrows : Counted rows) (ship : ShipId) {change : ℤ → ℤ}
    (hchange : ∀ amount, 0 ≤ amount → 0 ≤ change amount) :
    Counted (Fleet.changeAmount ship change rows) := by
  refine counted_of_amount fun other amount hamount => ?_
  rw [amountOf?_changeAmount] at hamount
  split at hamount
  · obtain ⟨old, hold, rfl⟩ := Option.map_eq_some_iff.mp hamount
    exact hchange old (hrows.amount hold)
  · exact hrows.amount hamount

theorem Counted.append (hrows : Counted rows) (ship : ShipId) : Counted (rows ++ [⟨ship, 0⟩]) := by
  refine counted_of_amount fun other amount hamount => ?_
  rw [amountOf?_append, amountOf?_cons, amountOf?_nil] at hamount
  cases hold : amountOf? rows other with
  | some old =>
      rw [hold] at hamount
      cases hamount
      exact hrows.amount hold
  | none =>
      rw [hold, Option.none_or] at hamount
      split at hamount
      · cases hamount
        exact le_refl _
      · cases hamount

/-- A fleet that has enough ships keeps no negative amount. -/
theorem Counted.removed (hrows : Counted rows) {shipHash : Hash ShipId ℤ}
    (henough : enoughShips? rows shipHash = true) : Counted (Fleet.removed shipHash rows) := by
  refine counted_of_amount fun ship amount hamount => ?_
  rw [amountOf?_removed] at hamount
  obtain ⟨old, hold, rfl⟩ := Option.map_eq_some_iff.mp hamount
  rw [Hash.getD]
  cases hget : shipHash.get? ship with
  | none =>
      rw [Option.getD_none, sub_zero]
      exact hrows.amount hold
  | some value =>
      obtain ⟨-, found, hfound, hle⟩ := enoughShips?_iff.mp henough ship value hget
      rw [hold, Option.some.injEq] at hfound
      rw [Option.getD_some]
      omega

theorem collectShips_nonneg (hrows : Counted rows) {types : List ShipId} {ships : Hash ShipId ℤ}
    (hcollect : collectShips rows types = some ships) (ship : ShipId) : 0 ≤ ships.getD ship 0 := by
  unfold collectShips at hcollect
  have hall : ∀ start : Hash ShipId ℤ, (∀ ship, 0 ≤ start.getD ship 0) →
      types.foldlM (fun ships ship => (amountOf? rows ship).map (ships.insert ship)) start = some ships →
        ∀ ship, 0 ≤ ships.getD ship 0 := by
    clear hcollect
    induction types with
    | nil =>
        intro start hstart hfold
        cases hfold
        exact hstart
    | cons type types ih =>
        intro start hstart hfold
        rw [List.foldlM_cons] at hfold
        obtain ⟨next, hnext, hrest⟩ := Option.bind_eq_some_iff.mp hfold
        obtain ⟨amount, hamount, rfl⟩ := Option.map_eq_some_iff.mp hnext
        refine ih _ (fun other => ?_) hrest
        rw [Hash.getD, Hash.get?_insert]
        split
        · exact hrows.amount hamount
        · exact hstart other
  exact hall Hash.empty (fun _ => le_refl _) hcollect ship

end Rows

/-! ## Reading and writing -/

theorem find_solvent (id : FleetId) : Safe Db.Solvent (find id) Solvent := by
  refine Safe.get.bind fun db hdb => ?_
  cases hget : db.fleets.get id with
  | none => exact Safe.throw _ _
  | some row => exact Safe.pure (hdb.fleets id row hget).cargo

theorem save_solvent {self : Fleet} (hself : self.Solvent) : Safe Db.Solvent self.save anything :=
  Safe.modify fun _ hdb => hdb.setFleets (hdb.fleets.modify fun row hrow =>
    ⟨hself, (hdb.fleets self.id row hrow).ships⟩)

theorem destroy_solvent (self : Fleet) : Safe Db.Solvent self.destroy anything :=
  Safe.modify fun _ hdb => hdb.setFleets (hdb.fleets.destroy self.id)

theorem shipfleets_solvent (self : Fleet) : Safe Db.Solvent self.shipfleets Counted := by
  refine Safe.get.bind fun db hdb => Safe.pure ?_
  cases hget : db.fleets.get self.id with
  | none => exact counted_nil
  | some row => exact (hdb.fleets self.id row hget).ships

theorem writeShipfleets_solvent (self : Fleet) {change : List Shipfleet → List Shipfleet}
    (hchange : ∀ rows, Counted rows → Counted (change rows)) :
    Safe Db.Solvent (self.writeShipfleets change) anything :=
  Safe.modify fun _ hdb => hdb.setFleets (hdb.fleets.modify fun row hrow =>
    ⟨(hdb.fleets self.id row hrow).cargo, hchange _ (hdb.fleets self.id row hrow).ships⟩)

theorem new_solvent (planet : PlanetId) : Safe Db.Solvent (new planet) Solvent := by
  have hempty : Cargo.Solvent ⟨0, 0, 0⟩ := ⟨le_refl _, le_refl _, le_refl _⟩
  refine Safe.get.bind fun db _ => ?_
  cases (db.planets planet).user with
  | none => exact Safe.throw _ _
  | some user =>
      refine (Safe.modify fun state hstate => ?_).bind fun _ _ => Safe.pure hempty
      exact hstate.setFleets (hstate.fleets.create ⟨hempty, counted_nil⟩)

theorem getHomeFleet_solvent (planet : PlanetId) :
    Safe Db.Solvent (getHomeFleet planet) fun found => ∀ fleet ∈ found, fleet.Solvent := by
  refine Safe.get.bind fun db _ => ?_
  cases db.fleets.first (Db.basedAt planet) with
  | none => exact Safe.pureNone
  | some id => exact (find_solvent id).mapSome

theorem ships_solvent (self : Fleet) : Safe Db.Solvent self.ships anything :=
  (shipfleets_solvent self).bind fun _ _ => Safe.pure trivial

theorem getShipsOf_solvent (types : List ShipId) (self : Fleet) :
    Safe Db.Solvent (getShipsOf types self) fun ships => ∀ ship, 0 ≤ ships.getD ship 0 := by
  refine (shipfleets_solvent self).bind fun rows hrows => ?_
  cases hcollect : collectShips rows types with
  | none => exact Safe.throw _ _
  | some ships => exact Safe.pure (collectShips_nonneg hrows hcollect)

theorem getShips_solvent (self : Fleet) :
    Safe Db.Solvent self.getShips fun ships => ∀ ship, 0 ≤ ships.getD ship 0 :=
  (ships_solvent self).bind fun types _ => getShipsOf_solvent types self

/-! ## Ships -/

theorem withValues_valued (w : World) (setting : UserSetting) {ships : Hash ShipId ℤ}
    (hships : ∀ ship, 0 ≤ ships.getD ship 0) (self : Fleet) :
    Valued self { withValues w setting ships self.toAttributes with id := self.id } := by
  have hcapacity : 0 ≤ ships.weight fun ship => (w.ship ship).ressourceCapacity :=
    Hash.weight_nonneg (fun _ => Int.natCast_nonneg _) hships
  unfold withValues
  dsimp only
  split
  · exact ⟨rfl, hcapacity⟩
  · exact ⟨rfl, hcapacity⟩

theorem updateValuesOf_solvent (w : World) (types : List ShipId) {self : Fleet}
    (hself : self.Solvent) : Safe Db.Solvent (updateValuesOf w types self) (Valued self) := by
  refine (getShipsOf_solvent types self).bind fun ships hships => ?_
  refine Safe.get.bind fun db _ => ?_
  have hvalued := withValues_valued w (db.users self.user).userSetting hships self
  exact (save_solvent (hvalued.solvent hself)).bind fun _ _ => Safe.pure hvalued

theorem updateValues_solvent (w : World) {self : Fleet} (hself : self.Solvent) :
    Safe Db.Solvent (self.updateValues w) (Valued self) :=
  (ships_solvent self).bind fun types _ => updateValuesOf_solvent w types hself

theorem addToRows_solvent (self : Fleet) {entries : List (ShipId × ℤ)}
    (hentries : ∀ entry ∈ entries, 0 ≤ entry.2) {newShips : Hash ShipId ℤ}
    (hnew : ∀ entry ∈ newShips.entries, 0 ≤ entry.2) :
    Safe Db.Solvent (self.addToRows entries newShips) fun ships => ∀ entry ∈ ships.entries, 0 ≤ entry.2 := by
  induction entries generalizing newShips with
  | nil => exact Safe.pure hnew
  | cons entry entries ih =>
      obtain ⟨hvalue, hrest⟩ := List.forall_mem_cons.mp hentries
      refine (ships_solvent self).bind fun types _ => Safe.ite (fun _ => ?_) fun _ => ?_
      · refine (writeShipfleets_solvent self fun rows hrows => ?_).bind fun _ _ => ih hrest hnew
        exact hrows.changeAmount _ fun amount hamount => add_nonneg hamount hvalue
      · refine ih hrest fun other hother => ?_
        rcases Hash.mem_entries_insert hother with hother | rfl
        · exact hnew other hother
        · exact hvalue

theorem addRows_solvent (self : Fleet) {entries : List (ShipId × ℤ)}
    (hentries : ∀ entry ∈ entries, 0 ≤ entry.2) :
    Safe Db.Solvent (self.addRows entries) anything := by
  induction entries with
  | nil => exact Safe.pure trivial
  | cons entry entries ih =>
      obtain ⟨hvalue, hrest⟩ := List.forall_mem_cons.mp hentries
      refine (writeShipfleets_solvent self fun rows hrows => hrows.append _).bind fun _ _ => ?_
      refine (writeShipfleets_solvent self fun rows hrows => ?_).bind fun _ _ => ih hrest
      exact hrows.changeAmount _ fun _ _ => hvalue

theorem addShips_solvent (w : World) {self : Fleet} (hself : self.Solvent)
    (shipHash : Hash ShipId ℤ) : Safe Db.Solvent (self.addShips w shipHash) (Valued self) := by
  unfold addShips
  refine Safe.ite (fun _ => Safe.throw_bind _ _ _) fun hvalid => ?_
  have hentries : ∀ entry ∈ shipHash.entries, 0 ≤ entry.2 := by
    simpa [hashIsValid?] using hvalid
  refine (addToRows_solvent self hentries (List.forall_mem_nil _)).bind fun newShips hnew => ?_
  exact (addRows_solvent self hnew).bind fun _ _ => updateValues_solvent w hself

theorem destroyShips_solvent (w : World) {self : Fleet} (hself : self.Solvent)
    (shipHash : Hash ShipId ℤ) : Safe Db.Solvent (self.destroyShips w shipHash) (Valued self) := by
  intro db hdb
  cases hget : db.fleets.get self.id with
  | some row =>
      by_cases henough : enoughShips? row.shipfleets shipHash = true
      · have hrows := (hdb.fleets self.id row hget).ships.removed henough
        have hvalued : Valued self (revalued w db (removed shipHash row.shipfleets) self) :=
          withValues_valued w _ (fun ship => by rw [getD_shipsOf]; exact hrows ship) self
        rw [destroyShips_apply w hget henough]
        refine ⟨hdb.setFleets (hdb.fleets.modify fun _ _ => ⟨hvalued.solvent hself, hrows⟩), ?_⟩
        intro found hfound
        cases hfound
        exact hvalued
      · rw [destroyShips_not_enough w hget henough]
        refine ⟨hdb, fun found hfound => ?_⟩
        cases hfound
  | none =>
      have hrows : self.shipfleets.run db = .ok [] db := by
        rw [shipfleets, run_bind_get, hget]
        rfl
      rw [destroyShips, run_bind_of_ok hrows]
      refine Safe.ite (fun _ => Safe.throw_bind _ _ _) (fun henough => ?_) db hdb
      -- without a row there are ships enough only for an empty hash
      have hnil : shipHash.entries = [] := by
        refine List.eq_nil_iff_forall_not_mem.mpr fun entry hentry => ?_
        obtain ⟨-, amount, hamount, -⟩ := enoughShips?_iff.mp (by simpa using henough) entry.1 entry.2
          (Hash.get?_eq_some_iff.mpr hentry)
        cases hamount
      rw [hnil]
      exact (Safe.pure (φ := anything) trivial).bind fun _ _ => updateValues_solvent w hself

/-! ## Splitting and merging -/

theorem getCapacity_nonneg {self : Fleet} (hcapacity : 0 ≤ self.ressourceCapacity) :
    0 ≤ self.getCapacity.value :=
  Numeric.value_mul_nonneg (Int.cast_nonneg hcapacity) (zero_le_one.trans self.storageFactor.2)

theorem share_nonneg {amount : ℤ} {factor : Numeric} (hamount : 0 ≤ amount)
    (hfactor : 0 ≤ factor.value) : 0 ≤ share amount factor :=
  Numeric.toI_nonneg (Numeric.value_mul_nonneg (Int.cast_nonneg hamount) hfactor)

/-- Even when one share is negative the other one makes up for it. -/
theorem share_add_share_nonneg {amount : ℤ} {factor : ℚ} (hamount : 0 ≤ amount)
    (hfactor : 0 ≤ factor) (hrounded : Binary64.round factor = factor) :
    0 ≤ share amount (1 - .float factor) + share amount (.float factor) := by
  have hone : (1 : Numeric) - .float factor = .float (Binary64.round (1 - factor)) := by
    change Numeric.float (Binary64.round (Binary64.round ((1 : ℤ) : ℚ) - factor)) = _
    rw [Binary64.round_intCast (by norm_num), Int.cast_one]
  rw [hone]
  rcases le_total factor 1 with hle | hge
  · have hleft : 0 ≤ Binary64.round (1 - factor) := Binary64.round_nonneg (sub_nonneg.mpr hle)
    exact add_nonneg (share_nonneg hamount hleft) (share_nonneg hamount hfactor)
  · -- what is missing on one side is rounded down to no more than what the other side has
    let excess := Binary64.round (factor - 1)
    have hexcess : 0 ≤ excess := Binary64.round_nonneg (sub_nonneg.mpr hge)
    have hle : excess ≤ factor := by
      calc excess ≤ Binary64.round factor := Binary64.round_mono (by linarith)
        _ = factor := hrounded
    have hamount' : 0 ≤ Binary64.round amount := Binary64.round_nonneg (Int.cast_nonneg hamount)
    have hmono : Binary64.round (Binary64.round amount * excess) ≤
        Binary64.round (Binary64.round amount * factor) :=
      Binary64.round_mono (mul_le_mul_of_nonneg_left hle hamount')
    have hstays : share amount (.float (Binary64.round (1 - factor))) =
        -⌊Binary64.round (Binary64.round amount * excess)⌋ := by
      have hneg : Binary64.round (1 - factor) = -excess := by
        rw [← neg_sub, Binary64.round_neg]
      have hproduct : Numeric.int amount * Numeric.float (-excess) =
          .float (-Binary64.round (Binary64.round amount * excess)) := by
        change Numeric.float (Binary64.round (Binary64.round amount * -excess)) = _
        rw [mul_neg, Binary64.round_neg]
      rw [share, hneg, hproduct]
      exact Numeric.toI_float_neg (Binary64.round_nonneg (mul_nonneg hamount' hexcess))
    have hleaves : share amount (.float factor) =
        ⌊Binary64.round (Binary64.round amount * factor)⌋ := by
      change (if 0 ≤ Binary64.round (Binary64.round amount * factor) then _ else _) = _
      exact if_pos (Binary64.round_nonneg (mul_nonneg hamount' hfactor))
    rw [hstays, hleaves]
    have hfloor := Int.floor_mono hmono
    omega

/-- What a split gives: a fleet to send and one that it can be merged into again. -/
structure Parted (staying leaving : Fleet) : Prop where
  merged : (staying.withCargoOf leaving).Solvent
  leaving : leaving.Solvent

theorem parted_of_solvent {self fleet : Fleet} (hself : self.Solvent) (hfleet : fleet.Solvent) :
    Parted self fleet :=
  ⟨⟨add_nonneg hself.ore hfleet.ore, add_nonneg hself.crystal hfleet.crystal,
    add_nonneg hself.credit hfleet.credit⟩, hfleet⟩

/-- Only the cargo of the fleet that leaves counts. -/
theorem Parted.of_eq {self fleet other : Fleet} (hparted : Parted self fleet)
    (hcargo : other.toCargo = fleet.toCargo) : Parted self other := by
  have hmerged : (self.withCargoOf other).toCargo = (self.withCargoOf fleet).toCargo := by
    simp only [withCargoOf, hcargo]
  constructor
  · unfold Solvent
    rw [hmerged]
    exact hparted.merged
  · unfold Solvent
    rw [hcargo]
    exact hparted.leaving

theorem parted_withShare {self fleet : Fleet} {factor : ℚ} (hself : self.Solvent)
    (hfactor : 0 ≤ factor) (hrounded : Binary64.round factor = factor) :
    Parted (self.withShare self (1 - .float factor)) (fleet.withShare self (.float factor)) := by
  have hvalue : 0 ≤ (Numeric.float factor).value := hfactor
  exact ⟨⟨share_add_share_nonneg hself.ore hfactor hrounded,
      share_add_share_nonneg hself.crystal hfactor hrounded,
      share_add_share_nonneg hself.credit hfactor hrounded⟩,
    ⟨share_nonneg hself.ore hvalue, share_nonneg hself.crystal hvalue,
      share_nonneg hself.credit hvalue⟩⟩

theorem splitFleet_solvent (w : World) {self : Fleet} (hself : self.Solvent)
    (shipHash : Hash ShipId ℤ) :
    Safe Db.Solvent (self.splitFleet w shipHash) fun fleets => Parted fleets.1 fleets.2 := by
  refine (shipfleets_solvent self).bind fun rows _ => ?_
  refine Safe.ite (fun _ => Safe.throw_bind _ _ _) fun _ => ?_
  refine (updateValues_solvent w hself).bind fun old hold => ?_
  refine (new_solvent _).bind fun created hcreated => ?_
  refine (save_solvent hcreated).bind fun _ _ => ?_
  refine (addShips_solvent w hcreated shipHash).bind fun leaving hleaving => ?_
  refine (destroyShips_solvent w (hold.solvent hself) shipHash).bind fun staying hstaying => ?_
  have hstays := hstaying.solvent (hold.solvent hself)
  refine Safe.ite (fun _ => ?_) fun _ =>
    Safe.pure (parted_of_solvent hstays (hleaving.solvent hcreated))
  refine Safe.ite (fun _ => Safe.throw_bind _ _ _) fun _ => Safe.pure ?_
  have hfactor : 0 ≤ (leaving.getCapacity / old.getCapacity).value :=
    Numeric.value_div_nonneg (getCapacity_nonneg hleaving.capacity) (getCapacity_nonneg hold.capacity)
  exact parted_withShare hstays hfactor (Binary64.round_round _)

theorem mergeFleet_solvent (w : World) {self fleet : Fleet} (hmerged : (self.withCargoOf fleet).Solvent) :
    Safe Db.Solvent (self.mergeFleet w (some fleet)) Solvent := by
  refine (getShips_solvent fleet).bind fun shipHash _ => ?_
  refine (addShips_solvent w hmerged shipHash).bind fun merged hvalued => ?_
  have hsolvent := hvalued.solvent hmerged
  refine (ships_solvent merged).bind fun types _ => ?_
  refine (destroy_solvent fleet).bind fun _ _ => ?_
  exact (updateValuesOf_solvent w types hsolvent).weaken fun _ h => h.solvent hsolvent

theorem addShipToPlanet_solvent (w : World) (ship : ShipId) (planet : PlanetId) :
    Safe Db.Solvent (addShipToPlanet w ship planet) anything := by
  refine (getHomeFleet_solvent planet).bind fun found hfound => ?_
  cases found with
  | some fleet =>
      exact (addShips_solvent w (hfound fleet rfl) _).bind fun _ _ => Safe.pure trivial
  | none =>
      refine (new_solvent planet).bind fun fleet hfleet => ?_
      refine (addShips_solvent w hfleet _).bind fun valued hvalued => ?_
      exact save_solvent (hvalued.solvent hfleet)

/-! ## Cargo -/

theorem loadRessources_solvent {self : Fleet} (hself : self.Solvent) (ore crystal credit : ℤ)
    (planet : PlanetId) :
    Safe Db.Solvent (self.loadRessources ore crystal credit planet) Solvent := by
  have htake : ∀ type amount, type ≠ Resource.energy → Safe Db.Solvent
      (Planet.take planet type (self.wanted (ore + crystal + credit) amount)) fun back => 0 ≤ back.value :=
    fun type amount htype => (Planet.take_solvent planet type fun _ =>
      self.rounded_wanted _ amount).weaken fun _ hback => hback htype
  have hgrow : ∀ {old : ℤ} {got : Numeric}, 0 ≤ old → 0 ≤ got.value → 0 ≤ ((old : Numeric) + got).toI :=
    fun hold hgot => Numeric.toI_nonneg (Numeric.value_add_nonneg (Int.cast_nonneg hold) hgot)
  refine Safe.ite (fun _ => Safe.throw_bind _ _ _) fun _ => ?_
  refine (htake .ore ore (by decide)).bind fun gotOre hore => ?_
  refine (htake .crystal crystal (by decide)).bind fun gotCrystal hcrystal => ?_
  refine (htake .money credit (by decide)).bind fun gotCredit hcredit => ?_
  have hloaded : Solvent { self with
      ore := ((self.ore : Numeric) + gotOre).toI
      crystal := ((self.crystal : Numeric) + gotCrystal).toI
      credit := ((self.credit : Numeric) + gotCredit).toI } :=
    ⟨hgrow hself.ore hore, hgrow hself.crystal hcrystal, hgrow hself.credit hcredit⟩
  exact (save_solvent hloaded).bind fun _ _ => Safe.pure hloaded

theorem unloadRessources_solvent (self : Fleet) (planet : PlanetId) :
    Safe Db.Solvent (self.unloadRessources planet) Solvent := by
  have hgive : ∀ type (amount : ℤ), Safe Db.Solvent (Planet.give planet type amount) fun back =>
      0 ≤ back.toI :=
    fun type amount => (Planet.give_solvent planet type amount).weaken fun _ hback =>
      Numeric.toI_nonneg (hback amount rfl)
  refine (hgive .ore self.ore).bind fun backOre hore => ?_
  refine (hgive .crystal self.crystal).bind fun backCrystal hcrystal => ?_
  refine (hgive .money self.credit).bind fun backCredit hcredit => ?_
  have hunloaded : Solvent { self with
      ore := backOre.toI, crystal := backCrystal.toI, credit := backCredit.toI } :=
    ⟨hore, hcrystal, hcredit⟩
  exact (save_solvent hunloaded).bind fun _ _ => Safe.pure hunloaded

end Fleet

end Mmog
