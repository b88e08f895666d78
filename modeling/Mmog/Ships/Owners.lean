import Mathlib.Algebra.Order.Pi
import Mmog.Ships.Conservation
import Mmog.Ships.Refinement

/-!
# Ships never change hands

Every fleet belongs to the owner of the planet it comes from, and a planet that
has an owner keeps him.  So a fleet only ever joins fleets of its own user, and
nobody gets a ship that was not delivered to a planet of his.
-/

namespace Mmog

open Ruby Action Fleet MissionsController Fight

/-- A fleet with valid rows, of the owner of the planet it comes from. -/
structure Loyal (who : PlanetId → Option UserId) (row : FleetRow) : Prop where
  valid : Valid row.shipfleets
  serves : who row.attributes.originPlanet = some row.attributes.user

/-- A planet without an owner may get one. -/
theorem Loyal.claimed {who : PlanetId → Option UserId} {row : FleetRow} (hrow : Loyal who row) {p : PlanetId}
    (hfree : who p = none) (user : Option UserId) : Loyal (Function.update who p user) row := by
  refine ⟨hrow.valid, ?_⟩
  have hne : row.attributes.originPlanet ≠ p := by
    rintro rfl
    rw [hrow.serves] at hfree
    cases hfree
  rw [Function.update_of_ne hne]
  exact hrow.serves

/-- Fleets on the same route are as loyal. -/
theorem Loyal.of_route {who : PlanetId → Option UserId} {row new : FleetRow} (hrow : Loyal who row)
    (hroute : new.attributes.toRoute = row.attributes.toRoute) (hvalid : Valid new.shipfleets) : Loyal who new := by
  refine ⟨hvalid, ?_⟩
  have horigin : new.attributes.originPlanet = row.attributes.originPlanet := congrArg Route.originPlanet hroute
  have huser : new.attributes.user = row.attributes.user := congrArg Route.user hroute
  rw [horigin, huser]
  exact hrow.serves

/-! ## Armies -/

/-- The ships of a fleet, as those of its user. -/
def armyOf (row : FleetRow) : UserId → ShipId → ℤ := Pi.single row.attributes.user (amountOf row.shipfleets)

/-- How many ships of each type the fleets of each user have together. -/
def armies (t : Table FleetRow) : UserId → ShipId → ℤ := t.total armyOf

theorem armyOf_nonneg {row : FleetRow} (hvalid : Valid row.shipfleets) : 0 ≤ armyOf row := by
  rw [armyOf, Pi.single_nonneg]
  exact valid_iff.mp hvalid

/-- Loyal fleets stay loyal, and no user gains more ships than that. -/
def Musters (who : PlanetId → Option UserId) (t next : Table FleetRow) (gain : UserId → ShipId → ℤ) : Prop :=
  t.All (Loyal who) → next.All (Loyal who) ∧ armies next ≤ armies t + gain

namespace Musters

variable {who : PlanetId → Option UserId} {t next final : Table FleetRow} {gain more : UserId → ShipId → ℤ}
  {id : FleetId} {row new : FleetRow}

variable (who) in
theorem refl (t : Table FleetRow) : Musters who t t 0 := fun hall => ⟨hall, (add_zero _).ge⟩

theorem trans (hfirst : Musters who t next gain) (hsecond : Musters who next final more) :
    Musters who t final (gain + more) := by
  intro hall
  obtain ⟨hnext, hgain⟩ := hfirst hall
  obtain ⟨hfinal, hmore⟩ := hsecond hnext
  refine ⟨hfinal, hmore.trans ?_⟩
  rw [← add_assoc]
  exact add_le_add_left hgain more

theorem trans_zero (hfirst : Musters who t next 0) (hsecond : Musters who next final 0) : Musters who t final 0 :=
  zero_add (0 : UserId → ShipId → ℤ) ▸ hfirst.trans hsecond

theorem put (hget : t.get id = some row) (new : FleetRow) (hnew : Loyal who row → Loyal who new) :
    Musters who t (t.put id new) (armyOf new - armyOf row) := by
  intro hall
  refine ⟨hall.modify fun found hfound => ?_, ?_⟩
  · obtain rfl := Option.some.inj (hget.symm.trans hfound)
    exact hnew (hall id row hget)
  · rw [armies, armies, Table.put, Table.total_modify (fun _ => new) armyOf hget]
    exact le_of_eq (by abel)

/-- A fleet of the same user that has no more ships than before. -/
theorem put_less (hget : t.get id = some row) (hnew : Loyal who row → Loyal who new)
    (huser : new.attributes.user = row.attributes.user) (hle : amountOf new.shipfleets ≤ amountOf row.shipfleets) :
    Musters who t (t.put id new) 0 := by
  intro hall
  obtain ⟨hnext, harmies⟩ := put hget new hnew hall
  refine ⟨hnext, harmies.trans (add_le_add_right ?_ _)⟩
  rw [armyOf, armyOf, huser, ← Pi.single_sub, Pi.single_nonpos]
  exact sub_nonpos.mpr hle

/-- A fleet of the same user from the same planet with the same ships. -/
theorem put_same (hget : t.get id = some row) {attributes : Attributes}
    (huser : attributes.user = row.attributes.user)
    (horigin : attributes.originPlanet = row.attributes.originPlanet) :
    Musters who t (t.put id ⟨attributes, row.shipfleets⟩) 0 := by
  have hput : Musters who t (t.put id ⟨attributes, row.shipfleets⟩) _ := put hget _ fun hrow => by
    refine ⟨hrow.valid, ?_⟩
    rw [horigin, huser]
    exact hrow.serves
  have harmy : armyOf ⟨attributes, row.shipfleets⟩ = armyOf row := by
    rw [armyOf, armyOf, huser]
  rwa [harmy, sub_self] at hput

theorem create (t : Table FleetRow) {new : FleetRow} (hnew : Loyal who new) : Musters who t (t.create new) (armyOf new) := by
  refine fun hall => ⟨hall.create hnew, ?_⟩
  rw [armies, Table.total_create]
  exact le_refl _

theorem destroy (t : Table FleetRow) (id : FleetId) : Musters who t (t.destroy id) 0 := by
  refine fun hall => ⟨hall.destroy id, ?_⟩
  rw [add_zero]
  cases hget : t.get id with
  | none =>
      have hsame : t.destroy id = t := by
        refine Table.ext rfl fun other => ?_
        rw [Table.get_destroy]
        split
        · rename_i heq
          rw [heq, hget]
        · rfl
      rw [hsame]
  | some row =>
      rw [armies, Table.total_destroy armyOf hget]
      exact sub_le_self _ (armyOf_nonneg (hall id row hget).valid)

theorem skip (t : Table FleetRow) : Musters who t t.skip 0 := by
  refine fun hall => ⟨hall, ?_⟩
  rw [add_zero, armies, Table.total_skip]
  exact le_refl _

theorem clear (t : Table FleetRow) (ids : List FleetId) : Musters who t (ids.foldl Table.destroy t) 0 := by
  induction ids generalizing t with
  | nil => exact refl who t
  | cons id ids ih => exact (destroy t id).trans_zero (ih (t.destroy id))

/-! ### Fleets -/

variable {w : World} {db dbNext : Db}

/-- A ship that is delivered to a fleet. -/
theorem deliver (hget : t.get id = some row) (ship : ShipId) {attributes : Attributes}
    (hroute : attributes.toRoute = row.attributes.toRoute) :
    Musters who t (t.put id ⟨attributes, added (.single ship 1) row.shipfleets⟩)
      (Pi.single row.attributes.user (Pi.single ship 1)) := by
  have hput : Musters who t (t.put id ⟨attributes, added (.single ship 1) row.shipfleets⟩) _ :=
    put hget _ fun hrow => hrow.of_route hroute (hrow.valid.added rfl)
  have huser : attributes.user = row.attributes.user := congrArg Route.user hroute
  rwa [armyOf, armyOf, huser, amountOf_added_eq, Pi.single_add, add_sub_cancel_left, Changes.getD_single] at hput

/-- A new fleet takes ships over from one of the same user. -/
theorem split {self : Fleet} {shipHash : Hash ShipId ℤ} (hget : db.fleets.get self.id = some row)
    (hself : self.toAttributes = row.attributes) (henough : enoughShips? row.shipfleets shipHash = true)
    {user : UserId} (howner : who self.originPlanet = some user) :
    Musters who db.fleets (splitTable w db shipHash user row.shipfleets self) 0 := by
  intro hall
  have horigin : self.originPlanet = row.attributes.originPlanet := congrArg (fun a => a.originPlanet) hself
  have huser : row.attributes.user = user := by
    have hserves := (hall self.id row hget).serves
    rw [← horigin, howner] at hserves
    exact (Option.some.inj hserves).symm
  have hroute : (staying w db shipHash row.shipfleets self).toRoute = row.attributes.toRoute :=
    (staying_toRoute w db shipHash row.shipfleets self).trans (congrArg Attributes.toRoute hself)
  have hleaving := leaving_toRoute w db shipHash user self
  let stays : FleetRow := ⟨(staying w db shipHash row.shipfleets self).toAttributes, removed shipHash row.shipfleets⟩
  let leaves : FleetRow := ⟨(leaving w db shipHash user self).toAttributes, added shipHash []⟩
  have hleaves : Loyal who leaves := by
    refine ⟨valid_nil.added (hashIsValid?_of_enough henough), ?_⟩
    have hnew : leaves.attributes.toRoute = (newAttributes db self.originPlanet user).toRoute := hleaving
    have horigin : leaves.attributes.originPlanet = (newAttributes db self.originPlanet user).originPlanet :=
      congrArg Route.originPlanet hnew
    rw [horigin]
    exact howner.trans (congrArg some (congrArg Route.user hnew).symm)
  have hstays : Musters who db.fleets (db.fleets.put self.id stays) (armyOf stays - armyOf row) :=
    put hget stays fun hrow => hrow.of_route hroute (hrow.valid.removed henough)
  obtain ⟨hnext, harmies⟩ := hstays.trans (create _ hleaves) hall
  refine ⟨hnext, harmies.trans (add_le_add_right (le_of_eq ?_) _)⟩
  have hstayer : stays.attributes.user = user := (congrArg Route.user hroute).trans huser
  have hleaver : leaves.attributes.user = user := congrArg Route.user hleaving
  rw [armyOf, armyOf, armyOf, hstayer, hleaver, huser]
  rw [← Pi.single_sub, ← Pi.single_add, amountOf_removed_eq henough, amountOf_added_eq, amountOf_nil,
    zero_add, sub_sub_cancel_left, neg_add_cancel, Pi.single_zero]

/-- A fleet joins the home fleet of a planet of its own user. -/
theorem joins {planet : PlanetId} (hget : db.fleets.get id = some row)
    (howner : Loyal who row → who planet = some row.attributes.user) (hjoins : Joins w db planet id row dbNext) :
    Musters who db.fleets dbNext.fleets 0 := by
  cases hjoins with
  | homeless hfirst => exact refl who _
  | itself hfirst => exact destroy _ _
  | joined home homeRow hfirst hhome hne =>
      intro hall
      have hroute : (merged w db homeRow.shipfleets row.shipfleets (ofRow home homeRow) (ofRow id row)).toRoute =
          homeRow.attributes.toRoute := valued_toRoute w db _ _
      have hsame : homeRow.attributes.user = row.attributes.user := by
        obtain ⟨found, hfound, hbased⟩ := Table.first_eq_some hfirst
        obtain rfl := Option.some.inj (hhome.symm.trans hfound)
        have hserves := (hall home homeRow hhome).serves
        rw [(of_decide_eq_true hbased).2, howner (hall id row hget)] at hserves
        exact (Option.some.inj hserves).symm
      let joined : FleetRow :=
        ⟨(merged w db homeRow.shipfleets row.shipfleets (ofRow home homeRow) (ofRow id row)).toAttributes,
          added (shipsOf row.shipfleets) homeRow.shipfleets⟩
      obtain ⟨hput, harmies⟩ := put hhome joined
        (fun hrow => hrow.of_route hroute (hrow.valid.added (hall id row hget).valid)) hall
      refine ⟨hput.destroy id, ?_⟩
      have hleft : (db.fleets.put home joined).get id = some row :=
        (Table.get_put _ hhome id).trans ((if_neg hne.symm).trans hget)
      have hgone := Table.total_destroy armyOf hleft
      have huser : joined.attributes.user = row.attributes.user := (congrArg Route.user hroute).trans hsame
      have harmy : armyOf joined - armyOf homeRow = armyOf row := by
        simp only [armyOf, huser, hsame]
        rw [← Pi.single_sub, amountOf_added_eq, add_sub_cancel_left]
        simp only [getD_shipsOf]
      rw [harmy] at harmies
      rw [add_zero]
      refine hgone.le.trans (sub_le_iff_le_add.mpr harmies)

theorem turns {self : Fleet} {planet : PlanetId} (hget : db.fleets.get self.id = some row)
    (huser : self.user = row.attributes.user) (horigin : self.originPlanet = row.attributes.originPlanet)
    (hturns : Turns w db self row.shipfleets planet dbNext) : Musters who db.fleets dbNext.fleets 0 := by
  cases hturns with
  | stuck hrows => exact refl who _
  | turned velocity _ hrows hboard =>
      rw [show dbNext.fleets = dbNext.board.fleets from rfl, hboard]
      exact put_same hget huser horigin

/-- Fleets that have the ships lose them. -/
theorem strike (db : Db) {losses : List (Fleet × Hash ShipId ℤ)} {t : Table FleetRow}
    (hnodup : (losses.map fun loss => loss.1.id).Nodup)
    (hall : ∀ loss ∈ losses, ∃ row, t.get loss.1.id = some row ∧ enoughShips? row.shipfleets loss.2 = true) :
    Musters who t (struckTable w db losses t) 0 := by
  induction losses generalizing t with
  | nil => exact refl who t
  | cons loss losses ih =>
      obtain ⟨hnew, hrest⟩ := List.nodup_cons.mp hnodup
      obtain ⟨row, hget, henough⟩ := hall loss List.mem_cons_self
      have hstruck : Musters who t (t.modify loss.1.id (struckRow w db loss.2)) 0 := by
        rw [Table.modify_eq_put _ hget]
        have hroute : (struckRow w db loss.2 row).attributes.toRoute = row.attributes.toRoute :=
          valued_toRoute w db _ row.attributes
        refine put_less hget (fun hrow => hrow.of_route hroute (hrow.valid.removed henough))
          (congrArg Route.user hroute) ?_
        rw [struckRow, amountOf_removed_eq henough, sub_le_self_iff]
        exact fun ship => getD_nonneg_of_valid (hashIsValid?_of_enough henough) ship
      refine hstruck.trans_zero (ih hrest fun other hmem => ?_)
      have hne : other.1.id ≠ loss.1.id := ne_of_not_mem_map hnew hmem
      rw [Table.get_modify_of_ne t _ hne]
      exact hall other (List.mem_cons_of_mem loss hmem)

/-! ### Requests -/

section Requests

variable {params : Params} {user : UserId}

theorem checkedDb (hget : db.fleets.get params.fleet = some row) :
    Musters who db.fleets (checkedDb w db params row user).fleets 0 := by
  have hroute := checkedRow_toRoute w db params row user
  exact (put_same hget (congrArg Route.user hroute) (congrArg Route.originPlanet hroute)).trans_zero (skip _)

theorem check {result : EStateM.Result Err Db (List String)} (hcheck : CheckOutcome w db params result) :
    Musters db.board.owner db.fleets (after result).fleets 0 := by
  cases hcheck with
  | missing hget => exact refl _ _
  | early row fehler hget hfehler hearly => exact refl _ _
  | unowned row hget hships henough howner =>
      have hroute : (valued w db row.shipfleets row.attributes).toRoute = row.attributes.toRoute := valued_toRoute w db _ _
      exact put_same hget (congrArg Route.user hroute) (congrArg Route.originPlanet hroute)
  | leftSplit row user hget hships henough howner hfails =>
      exact split (show db.fleets.get (ofRow params.fleet row).id = some row from hget) rfl henough howner
  | undone row user hget hships henough howner hfails => exact checkedDb hget

variable (w db params) in
theorem send : Musters db.board.owner db.fleets (after ((sendFleet w params).run db)).fleets 0 := by
  have hsend := send_outcome w db params
  generalize (sendFleet w params).run db = result at hsend
  cases hsend with
  | raised err next hrun hcheck => exact check hcheck
  | complained fehler next hrun hcheck hfehler => exact check hcheck
  | away row user message hpassed haway => exact checkedDb hpassed.get
  | based row user err hpassed hhome hmission =>
      exact (checkedDb hpassed.get).trans_zero (checkedDb (get_checkedDb w user hpassed.get))
  | left row user planet next hpassed hhome hmission hplanet hmove =>
      have hget := get_checkedDb w user hpassed.get
      cases hmove with
      | left user' time energy cargo next hhome' henough howner hfails hships hneeds hpaid hready hboard hcargo
          hstocked =>
          let self := ofRow params.fleet (checkedRow w db params row user)
          let mid := MissionsController.checkedDb w db params row user
          let flies := mover w mid self (checkedRow w db params row user) planet (params.shipHash w) user' time
          have hself : mid.fleets.get self.id = some (checkedRow w db params row user) := hget
          have hsplit : Musters db.board.owner mid.fleets
              (splitTable w mid (params.shipHash w) user' (checkedRow w db params row user).shipfleets self) 0 :=
            split hself rfl henough howner
          have hnew := get_splitTable_new w mid self (checkedRow w db params row user) (params.shipHash w) user'
          have hsent : Musters db.board.owner _
              (Table.put _ mid.fleets.nextId ⟨(flies.sent params.mission cargo).toAttributes, _⟩) 0 :=
            put_same hnew rfl rfl
          have hfleets := congrArg Board.fleets hboard
          rw [after_ok, show next.fleets = next.board.fleets from rfl, hfleets]
          exact (checkedDb hpassed.get).trans_zero (hsplit.trans_zero hsent)

end Requests

theorem breakup (id : FleetId) :
    Musters db.board.owner db.fleets (after ((FleetsController.breakup id).run db)).fleets 0 := by
  have hbreaks := breakup_breaksUp db id
  generalize after ((FleetsController.breakup id).run db) = next at hbreaks
  cases hbreaks with
  | missing hget => exact refl _ _
  | based row hget hmission => exact refl _ _
  | back row next hget hmission hboard =>
      rw [show next.fleets = next.board.fleets from rfl, hboard]
      exact put_same hget rfl rfl

theorem unload (id : FleetId) (planet : PlanetId) :
    Musters db.board.owner db.fleets (after ((FleetsController.unload id planet).run db)).fleets 0 := by
  cases hget : db.fleets.get id with
  | none =>
      rw [FleetsController.unload, run_bind_of_error (find_of_none hget)]
      exact refl _ _
  | some row =>
      rw [FleetsController.unload, run_bind_of_ok (find_of_some hget)]
      split
      · obtain ⟨cargo, next, hunload, hboard, -, -⟩ :=
          unloadRessources_board (show db.fleets.get (ofRow id row).id = some row from hget) planet
        rw [run_bind_of_ok hunload]
        refine (congrArg (Musters db.board.owner db.fleets · 0) (congrArg Board.fleets hboard)).mpr ?_
        exact put_same hget rfl rfl
      · exact refl _ _

/-! ### Jobs -/

theorem user_of_own {user : UserId} {planet : PlanetId} (hown : db.relation user planet = .own) :
    db.board.owner planet = some user := by
  unfold Db.relation at hown
  split at hown
  · cases hown
  · rename_i other howner
    split_ifs at hown with heq
    exact howner.trans (congrArg some heq)

theorem travels {planet : PlanetId} (hget : db.fleets.get id = some row) (htravels : Travels w db id row planet dbNext) :
    Musters db.board.owner db.fleets dbNext.fleets 0 := by
  cases htravels with
  | turned next hrelation hturns =>
      exact turns (show db.fleets.get (ofRow id row).id = some row from hget) rfl rfl hturns
  | joined next hrelation hjoins => exact joins hget (fun _ => user_of_own hrelation) hjoins
  | landed hrelation => exact put_same hget rfl rfl

theorem transports {planet : PlanetId} (hget : db.fleets.get id = some row)
    (htransports : Transports w db id row planet dbNext) : Musters who db.fleets dbNext.fleets 0 := by
  cases htransports with
  | turned next hrelation hturns =>
      exact turns (show db.fleets.get (ofRow id row).id = some row from hget) rfl rfl hturns
  | unloaded cargo middle next hrelation hboard hcargo hturns =>
      have hfleets : middle.fleets = db.fleets.put id ⟨((ofRow id row).withCargo cargo).toAttributes, row.shipfleets⟩ :=
        congrArg Board.fleets hboard
      have hmiddle : middle.fleets.get ((ofRow id row).withCargo cargo).id =
          some ⟨((ofRow id row).withCargo cargo).toAttributes, row.shipfleets⟩ := by
        rw [hfleets]
        exact (Table.get_put _ hget id).trans (if_pos rfl)
      have hunloaded : Musters who db.fleets middle.fleets 0 := by
        rw [hfleets]
        exact put_same hget rfl rfl
      exact hunloaded.trans_zero (turns hmiddle rfl rfl hturns)

theorem spies {planet : PlanetId} (hget : db.fleets.get id = some row) {r : ℚ} {ownSpyFactor : Factor}
    (hspies : Spies w db id row planet r ownSpyFactor dbNext) : Musters who db.fleets dbNext.fleets 0 := by
  cases hspies with
  | turned next hsafe hturns =>
      exact turns (show db.fleets.get (ofRow id row).id = some row from hget) rfl rfl hturns
  | destroyed hfound => exact destroy _ _

theorem attacks {planet : PlanetId} {draws : Draws} (hget : db.fleets.get id = some row)
    (hattacks : Attacks w draws db id row planet dbNext) : Musters who db.fleets dbNext.fleets 0 := by
  cases hattacks with
  | turned next hrelation hturns =>
      exact turns (show db.fleets.get (ofRow id row).id = some row from hget) rfl rfl hturns
  | raised err hrelation hlosses => exact refl _ _
  | beaten lost hrelation hfactor hlosses henough =>
      have hstrike : Musters who db.fleets (struckTable w db ((defenders db planet).zip lost) db.fleets) 0 := by
        refine strike db (nodup_struck henough) fun loss hloss => ?_
        obtain ⟨found, hfound, -, -⟩ := mem_defenders.mp (List.of_mem_zip hloss).1
        have hhas := List.forall₂_zip henough hloss
        rw [rowsIn, hfound] at hhas
        exact ⟨found, hfound, hhas⟩
      exact hstrike.trans_zero (destroy _ id)
  | drawn hrelation hfactor => exact (clear _ _).trans_zero (destroy _ id)
  | won lost cargo middle next hrelation hfactor hlosses henough haway hboard hturns =>
      let left := ((winner w db id row lost).withCargo cargo).toAttributes
      have hroute : left.toRoute = row.attributes.toRoute := valued_toRoute w db _ row.attributes
      have hleft : (cleared db planet).get id = some row := get_cleared hget haway
      have hfleets : middle.fleets = (cleared db planet).put id ⟨left, removed lost row.shipfleets⟩ :=
        congrArg Board.fleets hboard
      have hmiddle : middle.fleets.get ((winner w db id row lost).withCargo cargo).id =
          some ⟨left, removed lost row.shipfleets⟩ := by
        rw [hfleets]
        exact (Table.get_put _ hleft id).trans (if_pos rfl)
      have hloses : Musters who (cleared db planet) middle.fleets 0 := by
        rw [hfleets]
        refine put_less hleft (fun hrow => hrow.of_route hroute (hrow.valid.removed henough))
          (congrArg Route.user hroute) ?_
        rw [amountOf_removed_eq henough, sub_le_self_iff]
        exact fun ship => getD_nonneg_of_valid (hashIsValid?_of_enough henough) ship
      exact (clear _ _).trans_zero (hloses.trans_zero (turns hmiddle rfl rfl hturns))
  | vanished lost next hrelation hfactor hlosses hthere hboard =>
      rw [show dbNext.fleets = cleared db planet from congrArg Board.fleets hboard]
      exact clear _ _

end Musters

/-! ## Steps -/

/-- The ship that is delivered goes to the owner of the planet. -/
def supplies (db : Db) : Event → UserId → ShipId → ℤ
  | .addShip ship planet => (db.planets planet).user.elim 0 fun user => Pi.single user (Pi.single ship 1)
  | _ => 0

/-- Fleets are loyal to the owners of their planets, before and after. -/
def Db.Musters (db next : Db) (gain : UserId → ShipId → ℤ) : Prop :=
  db.fleets.All (Loyal db.board.owner) →
    next.fleets.All (Loyal next.board.owner) ∧ armies next.fleets ≤ armies db.fleets + gain

namespace Db.Musters

variable {w : World} {db next : Db}

theorem of_owner {gain : UserId → ShipId → ℤ} (howner : next.board.owner = db.board.owner)
    (hmusters : Mmog.Musters db.board.owner db.fleets next.fleets gain) : db.Musters next gain := by
  intro hall
  rw [howner]
  exact hmusters hall

/-- A fleet that settles on a free planet makes its user the owner. -/
theorem settles {id : FleetId} {row : FleetRow} {planet : PlanetId} (hget : db.fleets.get id = some row)
    (new : FleetRow) (hfree : db.board.owner planet = none) (huser : new.attributes.user = row.attributes.user)
    (horigin : new.attributes.originPlanet = planet) (hvalid : Valid row.shipfleets → Valid new.shipfleets)
    (hle : amountOf new.shipfleets ≤ amountOf row.shipfleets) (hfleets : next.fleets = db.fleets.put id new)
    (howner : next.board.owner = Function.update db.board.owner planet (some row.attributes.user)) :
    db.Musters next 0 := by
  intro hall
  rw [howner, hfleets]
  refine Mmog.Musters.put_less hget (fun hrow => ⟨hvalid hrow.valid, ?_⟩) huser hle fun other found hfound =>
    (hall other found hfound).claimed hfree _
  rw [horigin, huser, Function.update_self]

/-- A fleet that settles is that of the owner of the colony. -/
theorem colonizes {id : FleetId} {row : FleetRow} {planet : PlanetId} (hget : db.fleets.get id = some row)
    (hcolonizes : Colonizes w db id row planet next) : db.Musters next 0 := by
  cases hcolonizes with
  | turned _ hrelation hturns =>
      refine of_owner ?_ (.turns (show db.fleets.get (ofRow id row).id = some row from hget) rfl rfl hturns)
      cases hturns with
      | stuck hrows => rfl
      | turned velocity _ hrows hboard => rw [hboard]; rfl
  | settled cargo jobs _ hrelation hjobs henough hboard =>
      let settled : FleetRow := ⟨valued w db (removed (.single colonyShip 1) row.shipfleets)
        ((Fleet.settled planet db.now (ofRow id row)).withCargo cargo).toAttributes,
        removed (.single colonyShip 1) row.shipfleets⟩
      have hroute : settled.attributes.toRoute = (Fleet.settled planet db.now (ofRow id row)).toRoute :=
        valued_toRoute w db _ _
      have huser : settled.attributes.user = (Fleet.settled planet db.now (ofRow id row)).user :=
        congrArg Route.user hroute
      have horigin : settled.attributes.originPlanet = (Fleet.settled planet db.now (ofRow id row)).originPlanet :=
        congrArg Route.originPlanet hroute
      refine settles hget settled (Planet.user_of_unknown hrelation) huser horigin
        (fun hvalid => hvalid.removed henough) ?_ (congrArg Board.fleets hboard) (congrArg Board.owner hboard)
      rw [amountOf_removed_eq henough, sub_le_self_iff]
      exact fun ship => getD_nonneg_of_valid (hashIsValid?_of_enough henough) ship
  | unmanned cargo jobs _ hrelation hjobs hlacks hboard =>
      exact settles hget ⟨((Fleet.settled planet db.now (ofRow id row)).withCargo cargo).toAttributes, row.shipfleets⟩
        (Planet.user_of_unknown hrelation) rfl rfl (fun hvalid => hvalid) (le_refl _)
        (congrArg Board.fleets hboard) (congrArg Board.owner hboard)

theorem addShipToPlanet (ship : ShipId) (planet : PlanetId) :
    Mmog.Musters db.board.owner db.fleets (after ((Fleet.addShipToPlanet w ship planet).run db)).fleets
      (supplies db (.addShip ship planet)) := by
  cases hfirst : db.fleets.first (Db.basedAt planet) with
  | some home =>
      obtain ⟨row, hget, hbased⟩ := Table.first_eq_some hfirst
      rw [addShipToPlanet_home w hfirst hget]
      intro hall
      have howner : (db.planets planet).user = some row.attributes.user :=
        (of_decide_eq_true hbased).2 ▸ (hall home row hget).serves
      rw [supplies, howner, Option.elim_some]
      exact Mmog.Musters.deliver hget ship (valued_toRoute w db _ row.attributes) hall
  | none =>
      cases howner : (db.planets planet).user with
      | some user =>
          let new : FleetRow :=
            ⟨valued w db (added (.single ship 1) []) (newAttributes db planet user), added (.single ship 1) []⟩
          have hroute : new.attributes.toRoute = (newAttributes db planet user).toRoute := valued_toRoute w db _ _
          have huser : new.attributes.user = (newAttributes db planet user).user := congrArg Route.user hroute
          have horigin : new.attributes.originPlanet = (newAttributes db planet user).originPlanet :=
            congrArg Route.originPlanet hroute
          have hnew : Loyal db.board.owner new := by
            refine ⟨valid_nil.added rfl, ?_⟩
            rw [horigin, huser]
            exact howner
          have harmy : armyOf new = Pi.single user (Pi.single ship 1) := by
            rw [armyOf, huser, amountOf_added_eq, amountOf_nil, zero_add, Changes.getD_single]
            rfl
          rw [addShipToPlanet_new w hfirst howner, supplies, howner, Option.elim_some, ← harmy]
          exact .create db.fleets hnew
      | none =>
          rw [addShipToPlanet_nobody w hfirst howner, supplies, howner, Option.elim_none]
          exact .refl _ _

end Db.Musters

/-! ### Owners -/

/-- Everything but settling leaves the owners alone. -/
theorem Db.ownerFrame (who : PlanetId → Option UserId) : FleetFrame fun db => db.board.owner = who := by
  have hset : ∀ {db : Db} (p : PlanetId) {planet : Planet}, planet.user = (db.planets p).user →
      db.board.owner = who → (db.setPlanet p planet).board.owner = who := by
    intro db p planet huser hdb
    rw [board_setPlanet, huser, ← hdb]
    exact Function.update_eq_self p db.board.owner
  exact
    { fleets := fun _ hdb => hdb
      stock := fun p type n _ hdb => hset p (Planet.user_setStock type n _) hdb
      spend := fun p _ _ _ hdb => hset p (Planet.user_setStock .energy _ _) hdb
      charge := fun p _ _ hdb => hset p (Planet.user_setStock .energy _ _) hdb
      money := fun _ _ hdb => hdb
      setting := fun _ _ hdb => hdb
      enqueue := fun _ _ _ _ hdb => hdb
      remove := fun _ hdb => hdb }

/-! ### Events -/

section Events

variable {w : World} {db next : Db}

theorem Job.perform_musters {draws : Draws} {job : Job} {action : Act Unit} (hperform : job.perform w draws = some action)
    (hvalid : db.fleets.All fun row => Valid row.shipfleets) : db.Musters (after (action.run db)) 0 := by
  obtain ⟨fleet, hfleet⟩ := Job.fleet?_of_perform hperform
  have hframe := Db.ownerFrame db.board.owner
  cases hget : db.fleets.get fleet with
  | none =>
      have hmissing : after (action.run db) = db := by
        have hfind := find_of_none hget
        cases job with
        | buildBuildings planet buildingtype => cases hperform
        | produceResources planet => cases hperform
        | _ =>
            cases hperform
            obtain rfl := Option.some.inj hfleet
            rw [run_bind_of_error hfind]
            rfl
      rw [hmissing]
      exact .of_owner rfl (.refl _ _)
  | some row =>
      have hfind := find_of_some hget
      have hrow := hvalid fleet row hget
      by_cases hcolonize : ∃ planet, job = .colonizePlanet fleet planet
      · obtain ⟨planet, rfl⟩ := hcolonize
        cases hperform
        rw [run_bind_of_ok hfind]
        exact .colonizes hget (colonize_colonizes w hget planet)
      · have hother : ∀ self planet, job ≠ .colonizePlanet self planet := by
          rintro self planet rfl
          obtain rfl := Option.some.inj hfleet
          exact hcolonize ⟨planet, rfl⟩
        refine .of_owner ((hframe.perform w draws hperform hother).after rfl) ?_
        cases job with
        | buildBuildings planet buildingtype => cases hperform
        | produceResources planet => cases hperform
        | colonizePlanet self planet => exact absurd rfl (hother self planet)
        | attackPlanet self planet =>
            cases hperform
            obtain rfl := Option.some.inj hfleet
            rw [run_bind_of_ok hfind]
            exact .attacks hget (Fight.attack_attacks w draws planet hvalid hget)
        | travelToPlanet self planet =>
            cases hperform
            obtain rfl := Option.some.inj hfleet
            rw [run_bind_of_ok hfind]
            exact .travels hget (travel_travels w hget hrow planet)
        | spyPlanet self planet factor =>
            cases hperform
            obtain rfl := Option.some.inj hfleet
            rw [run_bind_of_ok hfind]
            exact .spies hget (spy_spies w hget draws.spyRate factor planet)
        | transportToPlanet self planet =>
            cases hperform
            obtain rfl := Option.some.inj hfleet
            rw [run_bind_of_ok hfind]
            exact .transports hget (transport_transports w hget planet)
        | returnToOrigin self =>
            cases hperform
            obtain rfl := Option.some.inj hfleet
            rw [run_bind_of_ok hfind]
            exact .joins hget (fun hloyal => hloyal.serves) (arriveHome_joins w hget hrow)

/-- Loyal fleets stay loyal, and a user gains the ships that are delivered to his planets. -/
theorem step_musters {event : Event} (hloyal : db.fleets.All (Loyal db.board.owner))
    (hstep : step w db event = some next) : db.Musters next (supplies db event) := by
  have hframe := Db.ownerFrame db.board.owner
  have hvalid : db.fleets.All fun row => Valid row.shipfleets := fun id row hget => (hloyal id row hget).valid
  cases event with
  | wait seconds =>
      cases hstep
      exact .of_owner rfl (.refl _ _)
  | addShip ship planet =>
      rw [settled_eq_some hstep]
      exact .of_owner ((hframe.addShipToPlanet w ship planet).after rfl) (Db.Musters.addShipToPlanet ship planet)
  | check params =>
      rw [settled_eq_some hstep]
      exact .of_owner ((hframe.checkHelper w params).after rfl) (.check (check_outcome w db params))
  | send params =>
      rw [settled_eq_some hstep]
      exact .of_owner ((hframe.sendFleet w params).after rfl) (.send w db params)
  | breakup fleet =>
      rw [settled_eq_some hstep]
      exact .of_owner ((hframe.breakup fleet).after rfl) (.breakup fleet)
  | unload fleet planet =>
      rw [settled_eq_some hstep]
      exact .of_owner ((hframe.unload fleet planet).after rfl) (.unload fleet planet)
  | research user technology factor =>
      cases hstep
      exact .of_owner rfl (.refl _ _)
  | schedule index =>
      simp only [step] at hstep
      split at hstep
      · split at hstep
        · cases hstep
          exact .of_owner rfl (.refl _ _)
        · cases hstep
      · cases hstep
  | work index draws =>
      simp only [step] at hstep
      split at hstep
      · rename_i job hready
        split at hstep
        · rename_i action hperform
          let taken : Db := { db with ready := db.ready.eraseIdx index }
          have hmusters : taken.Musters (after (action.run taken)) 0 := Job.perform_musters hperform hvalid
          rw [settled_eq_some hstep]
          exact hmusters
        · cases hstep
      · cases hstep

end Events

/-- In every run from a universe without fleets, every fleet belongs to the owner of the planet it comes from,
and no user has more ships of a type than were delivered to planets while they were his. -/
theorem ships_never_change_hands (w : World) {start db : Db} {events : List Event} (hfresh : start.Fresh)
    (hrun : run (step w) start events = some db) :
    (∀ id row, db.fleets.get id = some row →
      (db.planets row.attributes.originPlanet).user = some row.attributes.user) ∧
    ∀ user ship, armies db.fleets user ship ≤ sumAlong (step w) supplies start events user ship := by
  have hempty : armies start.fleets = 0 := by
    rw [armies, hfresh.fleets]
    exact Table.total_empty _
  have hsteps : ∀ state event next, state.fleets.All (Loyal state.board.owner) → step w state event = some next →
      next.fleets.All (Loyal next.board.owner) ∧ armies next.fleets ≤ armies state.fleets + supplies state event :=
    fun state event next hstate hstep => step_musters hstate hstep hstate
  have hkeeps : ∀ state event next, state.fleets.All (Loyal state.board.owner) → step w state event = some next →
      next.fleets.All (Loyal next.board.owner) :=
    fun state event next hstate hstep => (hsteps state event next hstate hstep).1
  have hloyal := run_invariant hkeeps (hfresh.all _) hrun
  have harmies := run_sums_le hsteps (hfresh.all _) hrun
  rw [hempty, zero_add] at harmies
  exact ⟨fun id row hget => (hloyal id row hget).serves, fun user ship => harmies user ship⟩

/-- After the raid and the founding of the colony. -/
theorem ships_never_change_hands_raided :
    (armies raidedDb.fleets 1 3, armies raidedDb.fleets 2 1) = (2, 0) ∧
      ∀ user ship, armies raidedDb.fleets user ship ≤
        sumAlong (step Seeds.world) supplies Seeds.start raidAndColony user ship :=
  ⟨by decide +kernel, (ships_never_change_hands Seeds.world Seeds.start_fresh (Option.some_get _).symm).2⟩

end Mmog
