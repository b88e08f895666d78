import Mmog.Fights.Outcome
import Mmog.Requests.Sound

/-!
# Ships are conserved

Over a whole run the ships of each type change by what is delivered, shot, sunk
in a colony or lost with a spy drone, unless a fleet comes home to itself.
-/

namespace Mmog

open Ruby Action Fleet MissionsController Fight

/-! ## All ships of a table -/

/-- How many ships of each type the fleets of a table have together. -/
def shipsIn (t : Table FleetRow) : ShipId → ℤ := t.total fun row => amountOf row.shipfleets

/-- Valid rows stay valid, and the ships of all fleets change by so many. -/
def Changes (t next : Table FleetRow) (delta : ShipId → ℤ) : Prop :=
  (t.All fun row => Valid row.shipfleets) →
    (next.All fun row => Valid row.shipfleets) ∧ shipsIn next = shipsIn t + delta

theorem amountOf_added_eq (shipHash : Hash ShipId ℤ) (rows : List Shipfleet) :
    amountOf (added shipHash rows) = amountOf rows + fun ship => shipHash.getD ship 0 :=
  funext (amountOf_added shipHash rows)

theorem amountOf_removed_eq {rows : List Shipfleet} {shipHash : Hash ShipId ℤ}
    (henough : enoughShips? rows shipHash = true) :
    amountOf (removed shipHash rows) = amountOf rows - fun ship => shipHash.getD ship 0 :=
  funext (amountOf_removed_of_enough henough)

theorem amountOf_nil : amountOf [] = 0 := rfl

namespace Changes

variable {t next final : Table FleetRow} {delta more : ShipId → ℤ} {id : FleetId} {row new : FleetRow}

theorem refl (t : Table FleetRow) : Changes t t 0 := fun hvalid => ⟨hvalid, (add_zero _).symm⟩

theorem trans (hfirst : Changes t next delta) (hsecond : Changes next final more) :
    Changes t final (delta + more) := by
  intro hvalid
  obtain ⟨hnext, hdelta⟩ := hfirst hvalid
  obtain ⟨hfinal, hmore⟩ := hsecond hnext
  exact ⟨hfinal, by rw [hmore, hdelta, add_assoc]⟩

theorem of_eq (hchanges : Changes t next delta) (heq : delta = more) : Changes t next more := heq ▸ hchanges

theorem put (hget : t.get id = some row) (new : FleetRow) (hnew : Valid row.shipfleets → Valid new.shipfleets) :
    Changes t (t.put id new) (amountOf new.shipfleets - amountOf row.shipfleets) := by
  intro hvalid
  refine ⟨hvalid.modify fun found hfound => hnew ?_, ?_⟩
  · exact hvalid id row hget
  · have htotal := Table.total_modify (fun _ => new) (fun row : FleetRow => amountOf row.shipfleets) hget
    refine htotal.trans ?_
    unfold shipsIn
    abel

/-- A row with other attributes. -/
theorem put_same (hget : t.get id = some row) (attributes : Attributes) :
    Changes t (t.put id ⟨attributes, row.shipfleets⟩) 0 :=
  (put hget ⟨attributes, row.shipfleets⟩ fun hvalid => hvalid).of_eq (sub_self _)

theorem create (t : Table FleetRow) (new : FleetRow) (hnew : Valid new.shipfleets) :
    Changes t (t.create new) (amountOf new.shipfleets) :=
  fun hvalid => ⟨hvalid.create hnew, Table.total_create t new _⟩

theorem destroy (hget : t.get id = some row) : Changes t (t.destroy id) (-amountOf row.shipfleets) :=
  fun hvalid => ⟨hvalid.destroy id, (Table.total_destroy _ hget).trans (sub_eq_add_neg _ _)⟩

theorem skip (t : Table FleetRow) : Changes t t.skip 0 := by
  intro hvalid
  refine ⟨hvalid, ?_⟩
  rw [add_zero, shipsIn, shipsIn, Table.total_skip]

/-! ### Fleets -/

variable {w : World} {db : Db}

theorem getD_single (ship : ShipId) : (fun other => (Hash.single ship (1 : ℤ)).getD other 0) = Pi.single ship 1 := by
  funext other
  rw [Hash.getD, Hash.get?_single, Pi.single_apply]
  by_cases heq : ship = other
  · rw [if_pos heq, if_pos heq.symm, Option.getD_some]
  · rw [if_neg heq, if_neg (Ne.symm heq), Option.getD_none]

/-- A ship that is delivered to a fleet. -/
theorem deliver (hget : t.get id = some row) (ship : ShipId) (attributes : Attributes) :
    Changes t (t.put id ⟨attributes, added (.single ship 1) row.shipfleets⟩) (Pi.single ship 1) := by
  refine (put hget ⟨attributes, added (.single ship 1) row.shipfleets⟩ fun hvalid => hvalid.added rfl).of_eq ?_
  rw [amountOf_added_eq, add_sub_cancel_left, getD_single]

theorem split {self : Fleet} {shipHash : Hash ShipId ℤ} (hget : db.fleets.get self.id = some row)
    (henough : enoughShips? row.shipfleets shipHash = true) (user : UserId) :
    Changes db.fleets (splitTable w db shipHash user row.shipfleets self) 0 := by
  have hleft := put hget ⟨(staying w db shipHash row.shipfleets self).toAttributes, removed shipHash row.shipfleets⟩
    fun hvalid => hvalid.removed henough
  have hnew := create (db.fleets.put self.id
      ⟨(staying w db shipHash row.shipfleets self).toAttributes, removed shipHash row.shipfleets⟩)
    ⟨(leaving w db shipHash user self).toAttributes, added shipHash []⟩
    (valid_nil.added (hashIsValid?_of_enough henough))
  refine (hleft.trans hnew).of_eq ?_
  rw [amountOf_removed_eq henough, amountOf_added_eq, amountOf_nil]
  abel

/-- A fleet whose ships join another one. -/
theorem join {home : FleetId} {homeRow : FleetRow} (hhome : t.get home = some homeRow) (hget : t.get id = some row)
    (hne : home ≠ id) (attributes : Attributes) :
    Changes t ((t.put home ⟨attributes, added (shipsOf row.shipfleets) homeRow.shipfleets⟩).destroy id) 0 := by
  intro hvalid
  have hleft : (t.put home ⟨attributes, added (shipsOf row.shipfleets) homeRow.shipfleets⟩).get id = some row := by
    rw [Table.get_put _ hhome, if_neg hne.symm, hget]
  have hjoined := put hhome ⟨attributes, added (shipsOf row.shipfleets) homeRow.shipfleets⟩
    fun hrow => hrow.added (hvalid id row hget)
  refine (hjoined.trans (destroy hleft)).of_eq ?_ hvalid
  rw [amountOf_added_eq]
  simp only [getD_shipsOf]
  abel

theorem joins {planet : PlanetId} {next : Db} (hget : db.fleets.get id = some row)
    (hother : db.fleets.first (Db.basedAt planet) ≠ some id) (hjoins : Joins w db planet id row next) :
    Changes db.fleets next.fleets 0 := by
  cases hjoins with
  | homeless hfirst => exact refl _
  | itself hfirst => exact absurd hfirst hother
  | joined home homeRow hfirst hhome hne => exact join hhome hget hne _

theorem turns {self : Fleet} {planet : PlanetId} {next : Db} (hget : db.fleets.get self.id = some row)
    (hturns : Turns w db self row.shipfleets planet next) : Changes db.fleets next.fleets 0 := by
  cases hturns with
  | stuck hrows => exact refl _
  | turned velocity next hrows hboard =>
      rw [show next.fleets = next.board.fleets from rfl, hboard]
      exact put_same hget _

/-! ### Fights -/

/-- The fleets of a list of ids go. -/
theorem clear {ids : List FleetId} (hnodup : ids.Nodup) (hall : ∀ id ∈ ids, ∃ row, t.get id = some row) :
    Changes t (ids.foldl Table.destroy t)
      (-(ids.map fun id => amountOf ((t.get id).elim [] FleetRow.shipfleets)).sum) := by
  induction ids generalizing t with
  | nil => exact (refl t).of_eq neg_zero.symm
  | cons id ids ih =>
      obtain ⟨hnew, hrest⟩ := List.nodup_cons.mp hnodup
      obtain ⟨row, hget⟩ := hall id List.mem_cons_self
      have hother : ∀ other ∈ ids, (t.destroy id).get other = t.get other := fun other hmem =>
        Table.get_destroy_of_ne t fun heq => hnew (heq ▸ hmem)
      have hlater := ih (t := t.destroy id) hrest fun other hmem => by
        rw [hother other hmem]
        exact hall other (List.mem_cons_of_mem id hmem)
      refine ((destroy hget).trans hlater).of_eq ?_
      rw [List.map_congr_left fun other hmem => by rw [hother other hmem], List.map_cons, List.sum_cons, hget,
        Option.elim_some]
      abel

/-- Fleets that have the ships lose them. -/
theorem strike (db : Db) {losses : List (Fleet × Hash ShipId ℤ)} (hnodup : (losses.map fun loss => loss.1.id).Nodup)
    (hall : ∀ loss ∈ losses, ∃ row, t.get loss.1.id = some row ∧ enoughShips? row.shipfleets loss.2 = true) :
    Changes t (struckTable w db losses t) (-(losses.map fun loss ship => loss.2.getD ship 0).sum) := by
  induction losses generalizing t with
  | nil => exact (refl t).of_eq neg_zero.symm
  | cons loss losses ih =>
      obtain ⟨hnew, hrest⟩ := List.nodup_cons.mp hnodup
      obtain ⟨row, hget, henough⟩ := hall loss List.mem_cons_self
      have hstruck : Changes t (t.modify loss.1.id (struckRow w db loss.2)) (-fun ship => loss.2.getD ship 0) := by
        rw [Table.modify_eq_put _ hget]
        refine (put hget (struckRow w db loss.2 row) fun hvalid => hvalid.removed henough).of_eq ?_
        rw [struckRow, amountOf_removed_eq henough]
        abel
      have hlater := ih (t := t.modify loss.1.id (struckRow w db loss.2)) hrest fun other hmem => by
        have hne : other.1.id ≠ loss.1.id := ne_of_not_mem_map hnew hmem
        rw [Table.get_modify_of_ne t _ hne]
        exact hall other (List.mem_cons_of_mem loss hmem)
      refine (hstruck.trans hlater).of_eq ?_
      rw [List.map_cons, List.sum_cons]
      abel

end Changes

/-! ## What a fight costs -/

section Casualties

variable (w : World) (draws : Draws) (db : Db) (id : FleetId) (row : FleetRow) (planet : PlanetId)

/-- The ships that go in a fight, fleet by fleet: what the loss loop computed for the fleets of the
winner, and all ships of the others.  An attacker counts as one, were it stationed there itself. -/
def casualties : List (ShipId → ℤ) :=
  let others := (defenders db planet).filter fun fleet => fleet.id ≠ id
  match losses w draws db (ofRow id row) planet with
  | .error _ => []
  | .ok lost =>
      if fightFactor db (ofRow id row) planet < 0 then
        amountOf row.shipfleets ::
          (((defenders db planet).zip lost).filter fun loss => loss.1.id ≠ id).map fun loss ship => loss.2.getD ship 0
      else if 0 < fightFactor db (ofRow id row) planet ∧ Db.stationedAt planet row = false then
        (lost.map fun lost ship => lost.getD ship 0) ++ others.map fun fleet => amountOf (rowsIn db fleet)
      else amountOf row.shipfleets :: others.map fun fleet => amountOf (rowsIn db fleet)

end Casualties

theorem struckTable_destroy (w : World) (db : Db) (losses : List (Fleet × Hash ShipId ℤ)) (t : Table FleetRow)
    (id : FleetId) : (struckTable w db losses t).destroy id =
      struckTable w db (losses.filter fun loss => loss.1.id ≠ id) (t.destroy id) := by
  induction losses generalizing t with
  | nil => rfl
  | cons loss losses ih =>
      refine (ih (t.modify loss.1.id (struckRow w db loss.2))).trans ?_
      by_cases heq : loss.1.id = id
      · rw [List.filter_cons_of_neg (by simpa using heq), heq, Table.destroy_modify_self]
      · rw [List.filter_cons_of_pos (by simpa using heq), Table.destroy_modify_of_ne t _ heq]
        rfl

theorem foldl_destroy_destroy (t : Table FleetRow) (ids : List FleetId) (id : FleetId) :
    (ids.foldl Table.destroy t).destroy id =
      (ids.filter fun other => other ≠ id).foldl Table.destroy (t.destroy id) := by
  refine Table.ext (by simp) fun other => ?_
  rw [Table.get_destroy, Table.get_foldl_destroy, Table.get_foldl_destroy, Table.get_destroy]
  by_cases heq : other = id <;> simp [heq]

section Fought

variable {w : World} {draws : Draws} {db : Db} {id : FleetId} {row : FleetRow} {planet : PlanetId}

theorem map_others (db : Db) (id : FleetId) (planet : PlanetId) :
    ((defenders db planet).filter fun fleet => fleet.id ≠ id).map (fun fleet => amountOf (rowsIn db fleet)) =
      ((db.fleets.select (Db.stationedAt planet)).filter fun other => other ≠ id).map fun other =>
        amountOf ((db.fleets.get other).elim [] FleetRow.shipfleets) := by
  rw [← map_id_defenders, List.filter_map, List.map_map]
  rfl

/-- The fleets that are stationed on the planet go, and one more fleet. -/
theorem cleared_changes (hget : db.fleets.get id = some row) :
    Changes db.fleets ((cleared db planet).destroy id)
      (-(amountOf row.shipfleets :: ((defenders db planet).filter fun fleet => fleet.id ≠ id).map
        fun fleet => amountOf (rowsIn db fleet)).sum) := by
  have hother : ∀ other ∈ (db.fleets.select (Db.stationedAt planet)).filter (fun other => other ≠ id),
      (db.fleets.destroy id).get other = db.fleets.get other := by
    intro other hmem
    exact Table.get_destroy_of_ne _ (of_decide_eq_true (List.mem_filter.mp hmem).2)
  have hclear := Changes.clear (t := db.fleets.destroy id)
    ((Table.nodup_select db.fleets (Db.stationedAt planet)).filter fun other => other ≠ id) fun other hmem => by
      rw [hother other hmem]
      obtain ⟨found, hfound, -⟩ := Table.mem_select.mp (List.mem_filter.mp hmem).1
      exact ⟨found, hfound⟩
  rw [cleared, foldl_destroy_destroy]
  refine ((Changes.destroy hget).trans hclear).of_eq ?_
  rw [List.map_congr_left fun other hmem => by rw [hother other hmem], map_others, List.sum_cons]
  abel

/-- The attacker is gone, and the fleets on the planet lose ships. -/
theorem beaten_changes (w : World) (hget : db.fleets.get id = some row) {lost : List (Hash ShipId ℤ)}
    (henough : List.Forall₂ (fun fleet lost => enoughShips? (rowsIn db fleet) lost = true) (defenders db planet) lost) :
    Changes db.fleets ((struckTable w db ((defenders db planet).zip lost) db.fleets).destroy id)
      (-(amountOf row.shipfleets :: (((defenders db planet).zip lost).filter fun loss => loss.1.id ≠ id).map
        fun loss ship => loss.2.getD ship 0).sum) := by
  have hstrike := Changes.strike (w := w) (t := db.fleets.destroy id) db
    ((nodup_struck henough).sublist (List.filter_sublist.map _)) fun loss hloss => by
      obtain ⟨hmem, hne⟩ := List.mem_filter.mp hloss
      obtain ⟨found, hfound, -, -⟩ := mem_defenders.mp (List.of_mem_zip hmem).1
      have hhas := List.forall₂_zip henough hmem
      rw [rowsIn, hfound] at hhas
      rw [Table.get_destroy_of_ne _ (of_decide_eq_true hne)]
      exact ⟨found, hfound, hhas⟩
  rw [struckTable_destroy]
  refine ((Changes.destroy hget).trans hstrike).of_eq ?_
  rw [List.sum_cons]
  abel

theorem destroy_cleared (hmem : id ∈ db.fleets.select (Db.stationedAt planet)) :
    (cleared db planet).destroy id = cleared db planet := by
  refine Table.ext (by simp) fun other => ?_
  rw [Table.get_destroy, cleared, Table.get_foldl_destroy]
  by_cases heq : other = id <;> simp [heq, hmem]

/-- The fleets on the planet are gone, and the attacker loses ships. -/
theorem won_changes {lost : Hash ShipId ℤ} (attributes : Attributes) (hget : db.fleets.get id = some row)
    (haway : Db.stationedAt planet row = false) (henough : enoughShips? row.shipfleets lost = true) :
    Changes db.fleets ((cleared db planet).put id ⟨attributes, removed lost row.shipfleets⟩)
      (-(([lost].map fun lost ship => lost.getD ship 0) ++ ((defenders db planet).filter fun fleet =>
        fleet.id ≠ id).map fun fleet => amountOf (rowsIn db fleet)).sum) := by
  have hnot := not_mem_stationed hget haway
  let left : Table FleetRow := db.fleets.put id ⟨attributes, removed lost row.shipfleets⟩
  have hother : ∀ other ∈ db.fleets.select (Db.stationedAt planet), left.get other = db.fleets.get other := by
    intro other hmem
    exact (Table.get_put _ hget other).trans (if_neg fun heq : other = id => hnot (heq ▸ hmem))
  have hclear := Changes.clear (t := left) (Table.nodup_select db.fleets (Db.stationedAt planet)) fun other hmem => by
    rw [hother other hmem]
    obtain ⟨found, hfound, -⟩ := Table.mem_select.mp hmem
    exact ⟨found, hfound⟩
  have hstruck := Changes.put hget ⟨attributes, removed lost row.shipfleets⟩ fun hvalid => hvalid.removed henough
  have hfilter : (db.fleets.select (Db.stationedAt planet)).filter (fun other => other ≠ id) =
      db.fleets.select (Db.stationedAt planet) := by
    refine List.filter_eq_self.mpr fun other hmem => decide_eq_true ?_
    rintro rfl
    exact hnot hmem
  rw [cleared, ← Table.foldl_destroy_put_of_not_mem hget hnot]
  refine (hstruck.trans hclear).of_eq ?_
  rw [List.map_congr_left fun other hmem => by rw [hother other hmem], map_others, hfilter, List.map_singleton,
    List.singleton_append, List.sum_cons, amountOf_removed_eq henough]
  abel

theorem attack_changes (hget : db.fleets.get id = some row) {next : Db}
    (hattacks : Attacks w draws db id row planet next) :
    Changes db.fleets next.fleets (if db.relation row.attributes.user planet = .enemy then
      -(casualties w draws db id row planet).sum else 0) := by
  cases hattacks with
  | turned next hrelation hturns =>
      rw [if_neg hrelation]
      exact Changes.turns (show db.fleets.get (ofRow id row).id = some row from hget) hturns
  | raised err hrelation hlosses =>
      rw [if_pos hrelation, casualties, hlosses]
      exact (Changes.refl _).of_eq neg_zero.symm
  | beaten lost hrelation hfactor hlosses henough =>
      rw [if_pos hrelation, casualties, hlosses]
      dsimp only
      rw [if_pos hfactor]
      exact beaten_changes w hget henough
  | drawn hrelation hfactor =>
      have hlosses : losses w draws db (ofRow id row) planet = .ok [] := by
        rw [losses, if_neg hfactor.not_lt, if_neg hfactor.not_gt]
      rw [if_pos hrelation, casualties, hlosses]
      dsimp only
      rw [if_neg hfactor.not_lt, if_neg fun h => hfactor.not_gt h.1]
      exact cleared_changes hget
  | won lost cargo middle next hrelation hfactor hlosses henough haway hboard hturns =>
      rw [if_pos hrelation, casualties, hlosses]
      dsimp only
      rw [if_neg hfactor.not_gt, if_pos ⟨hfactor, haway⟩]
      have hwon := won_changes ((winner w db id row lost).withCargo cargo).toAttributes hget haway henough
      have hfleets : middle.fleets = (cleared db planet).put id
          ⟨((winner w db id row lost).withCargo cargo).toAttributes, removed lost row.shipfleets⟩ :=
        congrArg Board.fleets hboard
      have hleft : (cleared db planet).get id = some row := get_cleared hget haway
      have hmiddle : middle.fleets.get ((winner w db id row lost).withCargo cargo).id =
          some ⟨((winner w db id row lost).withCargo cargo).toAttributes, removed lost row.shipfleets⟩ := by
        rw [hfleets]
        exact (Table.get_put _ hleft id).trans (if_pos rfl)
      rw [← hfleets] at hwon
      exact (hwon.trans (Changes.turns hmiddle hturns)).of_eq (add_zero _)
  | vanished lost next hrelation hfactor hlosses hthere hboard =>
      rw [if_pos hrelation, casualties, hlosses]
      dsimp only
      rw [if_neg hfactor.not_gt, if_neg fun h => Bool.false_ne_true (h.2.symm.trans hthere)]
      have hmem : id ∈ db.fleets.select (Db.stationedAt planet) := Table.mem_select.mpr ⟨row, hget, hthere⟩
      have hgone : (cleared db planet).destroy id = cleared db planet := destroy_cleared hmem
      rw [show next.fleets = cleared db planet from congrArg Board.fleets hboard, ← hgone]
      exact cleared_changes hget

end Fought

/-! ## Events -/

section Worth

variable (w : World) (db : Db)

/-- All ships there are. -/
def Db.ships (db : Db) : ShipId → ℤ := shipsIn db.fleets

/-- What a job adds to the ships there are; losses count negatively. -/
def Job.gains (draws : Draws) : Job → ShipId → ℤ
  | .attackPlanet fleet planet => (db.fleets.get fleet).elim 0 fun row =>
      if db.relation row.attributes.user planet = .enemy then -(casualties w draws db fleet row planet).sum else 0
  | .spyPlanet fleet planet factor => (db.fleets.get fleet).elim 0 fun row =>
      if Found db row planet draws.spyRate factor then -amountOf row.shipfleets else 0
  | .colonizePlanet fleet planet => (db.fleets.get fleet).elim 0 fun row =>
      if db.relation row.attributes.user planet = .unknown ∧
          enoughShips? row.shipfleets (.single colonyShip 1) = true then -Pi.single colonyShip 1 else 0
  | .travelToPlanet _ _ | .transportToPlanet _ _ | .returnToOrigin _ => 0
  | .buildBuildings _ _ | .produceResources _ => 0

/-- What an event adds to the ships there are. -/
def gains : Event → ShipId → ℤ
  | .addShip ship planet => if db.Receives planet then Pi.single ship 1 else 0
  | .work index draws => (db.ready[index]?).elim 0 fun job => job.gains w db draws
  | _ => 0

/-- The fleet of the job is not itself the home fleet that it is to join. -/
def Job.JoinsOther : Job → Prop
  | .returnToOrigin fleet => ∀ row ∈ db.fleets.get fleet,
      db.fleets.first (Db.basedAt row.attributes.originPlanet) ≠ some fleet
  | .travelToPlanet fleet planet => ∀ row ∈ db.fleets.get fleet, db.relation row.attributes.user planet = .own →
      db.fleets.first (Db.basedAt planet) ≠ some fleet
  | _ => True

instance (job : Job) : Decidable (job.JoinsOther db) := by
  unfold Job.JoinsOther
  split <;> infer_instance

/-- A job that is run does not let a fleet join itself. -/
def JoinsOthers : Event → Prop
  | .work index _ => ∀ job ∈ db.ready[index]?, job.JoinsOther db
  | _ => True

instance (event : Event) : Decidable (JoinsOthers db event) := by
  unfold JoinsOthers
  split <;> infer_instance

end Worth

namespace Changes

variable {w : World} {db : Db}

theorem addShipToPlanet (ship : ShipId) (planet : PlanetId) :
    Changes db.fleets (after ((Fleet.addShipToPlanet w ship planet).run db)).fleets
      (if db.Receives planet then Pi.single ship 1 else 0) := by
  cases hfirst : db.fleets.first (Db.basedAt planet) with
  | some home =>
      obtain ⟨row, hget, -⟩ := Table.first_eq_some hfirst
      rw [if_pos (.inl (by rw [hfirst]; rfl)), addShipToPlanet_home w hfirst hget]
      exact deliver hget ship _
  | none =>
      cases howner : (db.planets planet).user with
      | some user =>
          rw [if_pos (.inr (by rw [howner]; rfl)), addShipToPlanet_new w hfirst howner]
          refine (create db.fleets _ (valid_nil.added rfl)).of_eq ?_
          rw [amountOf_added_eq, amountOf_nil, zero_add, getD_single]
      | none =>
          have hnobody : ¬db.Receives planet := by
            rw [Db.Receives, hfirst, howner]
            exact not_or.mpr ⟨Bool.false_ne_true, Bool.false_ne_true⟩
          rw [if_neg hnobody, addShipToPlanet_nobody w hfirst howner]
          exact refl _

section Requests

variable {params : Params} {row : FleetRow} {user : UserId}

theorem checkedDb (hget : db.fleets.get params.fleet = some row) :
    Changes db.fleets (checkedDb w db params row user).fleets 0 :=
  (put_same hget _).trans (skip _)

theorem check {result : EStateM.Result Err Db (List String)} (hcheck : CheckOutcome w db params result) :
    Changes db.fleets (after result).fleets 0 := by
  cases hcheck with
  | missing hget => exact refl _
  | early row fehler hget hfehler hearly => exact refl _
  | unowned row hget hships henough howner => exact put_same hget _
  | leftSplit row user hget hships henough howner hfails =>
      exact split (show db.fleets.get (ofRow params.fleet row).id = some row from hget) henough user
  | undone row user hget hships henough howner hfails => exact checkedDb hget

variable (w db params) in
theorem send : Changes db.fleets (after ((sendFleet w params).run db)).fleets 0 := by
  have hsend := send_outcome w db params
  generalize (sendFleet w params).run db = result at hsend
  cases hsend with
  | raised err next hrun hcheck => exact check hcheck
  | complained fehler next hrun hcheck hfehler => exact check hcheck
  | away row user message hpassed haway => exact checkedDb hpassed.get
  | based row user err hpassed hhome hmission =>
      exact (checkedDb hpassed.get).trans (checkedDb (get_checkedDb w user hpassed.get))
  | left row user planet next hpassed hhome hmission hplanet hmove =>
      have hget := get_checkedDb w user hpassed.get
      cases hmove with
      | left user' time energy cargo next hhome' henough howner hfails hships hneeds hpaid hready hboard hcargo
          hstocked =>
          let self := ofRow params.fleet (checkedRow w db params row user)
          have hself : (MissionsController.checkedDb w db params row user).fleets.get self.id =
              some (checkedRow w db params row user) := hget
          have hsplit := split (w := w) hself henough user'
          have hnew := get_splitTable_new w (MissionsController.checkedDb w db params row user) self
            (checkedRow w db params row user) (params.shipHash w) user'
          have hsent := put_same hnew ((mover w (MissionsController.checkedDb w db params row user) self
            (checkedRow w db params row user) planet (params.shipHash w) user' time).sent params.mission
              cargo).toAttributes
          have hfleets := congrArg Board.fleets hboard
          rw [after_ok, show next.fleets = next.board.fleets from rfl, hfleets]
          exact (checkedDb hpassed.get).trans (hsplit.trans hsent)

end Requests

theorem breakup (id : FleetId) : Changes db.fleets (after ((FleetsController.breakup id).run db)).fleets 0 := by
  have hbreaks := breakup_breaksUp db id
  generalize after ((FleetsController.breakup id).run db) = next at hbreaks
  cases hbreaks with
  | missing hget => exact refl _
  | based row hget hmission => exact refl _
  | back row next hget hmission hboard =>
      rw [show next.fleets = next.board.fleets from rfl, hboard]
      exact put_same hget _

theorem unload (id : FleetId) (planet : PlanetId) :
    Changes db.fleets (after ((FleetsController.unload id planet).run db)).fleets 0 := by
  cases hget : db.fleets.get id with
  | none =>
      rw [FleetsController.unload, run_bind_of_error (find_of_none hget)]
      exact refl _
  | some row =>
      rw [FleetsController.unload, run_bind_of_ok (find_of_some hget)]
      split
      · obtain ⟨cargo, next, hunload, hboard, -, -⟩ :=
          unloadRessources_board (show db.fleets.get (ofRow id row).id = some row from hget) planet
        rw [run_bind_of_ok hunload]
        refine (congrArg (Changes db.fleets · 0) (congrArg Board.fleets hboard)).mpr ?_
        exact put_same hget _
      · exact refl _

end Changes

/-! ## Jobs -/

section Jobs

variable {w : World} {draws : Draws} {db next : Db} {id : FleetId} {row : FleetRow} {planet : PlanetId}

theorem travel_changes (hget : db.fleets.get id = some row)
    (hother : db.relation row.attributes.user planet = .own → db.fleets.first (Db.basedAt planet) ≠ some id)
    (htravels : Travels w db id row planet next) : Changes db.fleets next.fleets 0 := by
  cases htravels with
  | turned next hrelation hturns => exact Changes.turns (show db.fleets.get (ofRow id row).id = some row from hget) hturns
  | joined next hrelation hjoins => exact Changes.joins hget (hother hrelation) hjoins
  | landed hrelation => exact Changes.put_same hget _

theorem transport_changes (hget : db.fleets.get id = some row) (htransports : Transports w db id row planet next) :
    Changes db.fleets next.fleets 0 := by
  cases htransports with
  | turned next hrelation hturns => exact Changes.turns (show db.fleets.get (ofRow id row).id = some row from hget) hturns
  | unloaded cargo middle next hrelation hboard hcargo hturns =>
      have hfleets : middle.fleets = db.fleets.put id ⟨((ofRow id row).withCargo cargo).toAttributes, row.shipfleets⟩ :=
        congrArg Board.fleets hboard
      have hmiddle : middle.fleets.get ((ofRow id row).withCargo cargo).id =
          some ⟨((ofRow id row).withCargo cargo).toAttributes, row.shipfleets⟩ := by
        rw [hfleets]
        exact (Table.get_put _ hget id).trans (if_pos rfl)
      have hunloaded := Changes.put_same hget ((ofRow id row).withCargo cargo).toAttributes
      rw [← hfleets] at hunloaded
      exact hunloaded.trans (Changes.turns hmiddle hturns)

theorem spy_changes (hget : db.fleets.get id = some row) {r : ℚ} {ownSpyFactor : Factor}
    (hspies : Spies w db id row planet r ownSpyFactor next) :
    Changes db.fleets next.fleets (if Found db row planet r ownSpyFactor then -amountOf row.shipfleets else 0) := by
  cases hspies with
  | turned next hsafe hturns =>
      rw [if_neg hsafe]
      exact Changes.turns (show db.fleets.get (ofRow id row).id = some row from hget) hturns
  | destroyed hfound =>
      rw [if_pos hfound]
      exact Changes.destroy hget

theorem colonize_changes (hget : db.fleets.get id = some row) (hcolonizes : Colonizes w db id row planet next) :
    Changes db.fleets next.fleets (if db.relation row.attributes.user planet = .unknown ∧
      enoughShips? row.shipfleets (.single colonyShip 1) = true then -Pi.single colonyShip 1 else 0) := by
  cases hcolonizes with
  | turned next hrelation hturns =>
      rw [if_neg fun h => hrelation h.1]
      exact Changes.turns (show db.fleets.get (ofRow id row).id = some row from hget) hturns
  | settled cargo jobs next hrelation hjobs henough hboard =>
      rw [if_pos ⟨hrelation, henough⟩, show next.fleets = _ from congrArg Board.fleets hboard]
      refine (Changes.put hget _ fun hvalid => hvalid.removed henough).of_eq ?_
      rw [amountOf_removed_eq henough, sub_sub_cancel_left, Changes.getD_single]
  | unmanned cargo jobs next hrelation hjobs hlacks hboard =>
      rw [if_neg fun h => hlacks h.2, show next.fleets = _ from congrArg Board.fleets hboard]
      exact Changes.put_same hget _

end Jobs

/-- A job changes the ships by what it gains. -/
theorem Job.perform_changes {w : World} {draws : Draws} {db : Db} {job : Job} {action : Act Unit}
    (hperform : job.perform w draws = some action) (hvalid : db.fleets.All fun row => Valid row.shipfleets)
    (hjoins : job.JoinsOther db) : Changes db.fleets (after (action.run db)).fleets (job.gains w db draws) := by
  obtain ⟨fleet, hfleet⟩ := Job.fleet?_of_perform hperform
  -- without its fleet no job does anything
  cases hget : db.fleets.get fleet with
  | none =>
      have hmissing : after (action.run db) = db ∧ job.gains w db draws = 0 := by
        have hfind := find_of_none hget
        cases job with
        | buildBuildings planet buildingtype => cases hperform
        | produceResources planet => cases hperform
        | _ =>
            cases hperform
            obtain rfl := Option.some.inj hfleet
            rw [run_bind_of_error hfind]
            exact ⟨rfl, by simp [Job.gains, hget]⟩
      rw [hmissing.1, hmissing.2]
      exact Changes.refl _
  | some row =>
      have hfind := find_of_some hget
      have hrow := hvalid fleet row hget
      cases job with
      | buildBuildings planet buildingtype => cases hperform
      | produceResources planet => cases hperform
      | attackPlanet self planet =>
          cases hperform
          obtain rfl := Option.some.inj hfleet
          rw [run_bind_of_ok hfind, Job.gains, hget]
          exact attack_changes hget (Fight.attack_attacks w draws planet hvalid hget)
      | colonizePlanet self planet =>
          cases hperform
          obtain rfl := Option.some.inj hfleet
          rw [run_bind_of_ok hfind, Job.gains, hget]
          exact colonize_changes hget (colonize_colonizes w hget planet)
      | travelToPlanet self planet =>
          cases hperform
          obtain rfl := Option.some.inj hfleet
          rw [run_bind_of_ok hfind]
          exact travel_changes hget (hjoins row hget) (travel_travels w hget hrow planet)
      | spyPlanet self planet factor =>
          cases hperform
          obtain rfl := Option.some.inj hfleet
          rw [run_bind_of_ok hfind, Job.gains, hget]
          exact spy_changes hget (spy_spies w hget draws.spyRate factor planet)
      | transportToPlanet self planet =>
          cases hperform
          obtain rfl := Option.some.inj hfleet
          rw [run_bind_of_ok hfind]
          exact transport_changes hget (transport_transports w hget planet)
      | returnToOrigin self =>
          cases hperform
          obtain rfl := Option.some.inj hfleet
          rw [run_bind_of_ok hfind]
          exact Changes.joins hget (hjoins row hget) (arriveHome_joins w hget hrow)

/-- An event changes the ships by what it gains. -/
theorem step_changes {w : World} {db next : Db} {event : Event}
    (hvalid : db.fleets.All fun row => Valid row.shipfleets) (hjoins : JoinsOthers db event)
    (hstep : step w db event = some next) : Changes db.fleets next.fleets (gains w db event) := by
  cases event with
  | wait seconds =>
      cases hstep
      exact Changes.refl _
  | addShip ship planet =>
      rw [settled_eq_some hstep]
      exact Changes.addShipToPlanet ship planet
  | check params =>
      rw [settled_eq_some hstep]
      exact Changes.check (check_outcome w db params)
  | send params =>
      rw [settled_eq_some hstep]
      exact Changes.send w db params
  | breakup fleet =>
      rw [settled_eq_some hstep]
      exact Changes.breakup fleet
  | unload fleet planet =>
      rw [settled_eq_some hstep]
      exact Changes.unload fleet planet
  | research user technology factor =>
      cases hstep
      exact Changes.refl _
  | schedule index =>
      simp only [step] at hstep
      split at hstep
      · split at hstep
        · cases hstep
          exact Changes.refl _
        · cases hstep
      · cases hstep
  | work index draws =>
      simp only [step] at hstep
      split at hstep
      · rename_i job hready
        split at hstep
        · rename_i action hperform
          let taken : Db := { db with ready := db.ready.eraseIdx index }
          have hchanges : Changes taken.fleets (after (action.run taken)).fleets (job.gains w taken draws) :=
            Job.perform_changes hperform hvalid (hjoins job hready)
          rw [settled_eq_some hstep, gains, hready]
          exact hchanges
        · cases hstep
      · cases hstep

/-- Over a run in which no fleet joins itself the ships of every type change by deliveries, fights, found drones
and colony ships that settled, and by nothing else. -/
theorem ships_conserved (w : World) {start db : Db} {events : List Event} (hfresh : start.Fresh)
    (hjoins : Along (step w) JoinsOthers start events) (hrun : run (step w) start events = some db) :
    db.ships = sumAlong (step w) (gains w) start events := by
  have hempty : start.ships = 0 := by
    rw [Db.ships, hfresh.fleets]
    exact Table.total_empty _
  have hsteps : ∀ state event next, (state.fleets.All fun row => Valid row.shipfleets) → JoinsOthers state event →
      step w state event = some next → (next.fleets.All fun row => Valid row.shipfleets) ∧
        next.ships = state.ships + gains w state event :=
    fun _ _ _ hvalid hgood hstep => step_changes hvalid hgood hstep hvalid
  rw [run_sums hsteps (hfresh.all _) hjoins hrun, hempty, zero_add]

/-- Three fighters attack planet 11. -/
def raid : Params where
  fleet := 1
  mission := 3
  planet := some 11
  ship ship := if ship = 3 then some 3 else none

/-- A colony ship and a cargo ship take planet 5. -/
def colonist : Params where
  fleet := 1
  mission := 2
  planet := some 5
  ship ship := if ship = colonyShip ∨ ship = 1 then some 1 else none

/-- The colony is founded, and the raid costs one ship on each side. -/
def raidAndColony : List Event :=
  [.addShip colonyShip 1, .addShip 1 1, .addShip 1 1, .addShip 3 1, .addShip 3 1, .addShip 3 1, .addShip 1 11,
    .send raid, .send colonist, .wait 100000, .schedule 0, .schedule 0, .work 1 {}, .work 0 { picks := [(0, 0)] },
    .wait 100000, .schedule 5, .work 0 {}]

def raidedDb : Db := (run (step Seeds.world) Seeds.start raidAndColony).get (by decide +kernel)

theorem ships_conserved_sample :
    raidedDb.ships = sumAlong (step Seeds.world) (gains Seeds.world) Seeds.start raidAndColony ∧
      (raidedDb.ships 1, raidedDb.ships 3, raidedDb.ships colonyShip) = (2, 2, 0) :=
  ⟨ships_conserved Seeds.world Seeds.start_fresh (by decide +kernel) (Option.some_get _).symm, by decide +kernel⟩

/-- The colonist is called back when its job is already in the ready queue. -/
def calledBack : List Event :=
  [.addShip colonyShip 1, .addShip 1 1, .addShip 1 1, .send colonist, .wait 100000, .schedule 0, .breakup 3,
    .work 0 {}, .wait 100000, .schedule 0, .work 0 {}]

def lostDb : Db := (run (step Seeds.world) Seeds.start calledBack).get (by decide +kernel)

/-- The settled fleet comes home to itself, and its cargo ship is gone. -/
theorem ships_lost_at_home :
    ¬∀ (w : World) (start db : Db) (events : List Event), start.Fresh →
      run (step w) start events = some db → db.ships = sumAlong (step w) (gains w) start events := by
  intro hall
  have hlost : lostDb.ships 1 = 1 := by decide +kernel
  have hsum : sumAlong (step Seeds.world) (gains Seeds.world) Seeds.start calledBack 1 = 2 := by decide +kernel
  rw [hall Seeds.world Seeds.start lostDb calledBack Seeds.start_fresh (Option.some_get _).symm, hsum] at hlost
  exact absurd hlost (by decide)

end Mmog
