import Mmog.Fights.Outcome
import Mmog.Requests.Sound
import Mmog.Ruby.Backlog
import Mmog.Ruby.Lineage
import Mmog.Ships.Refinement

/-!
# Flights

What an event can do to a fleet that is there: it turns it round, lets it stay
where it is, takes ships from it, and only a home fleet gets any.  No event lets
an old fleet set out again.
-/

namespace Mmog

open Ruby Action Fleet MissionsController Fight

/-! ## Where a fleet is -/

namespace Route

/-- It flies from its origin to another planet. -/
def Outward (route : Route) : Prop := route.startPlanet = route.originPlanet ∧ route.targetPlanet ≠ route.originPlanet

/-- It has arrived at another planet and stays there. -/
def Stationed (route : Route) : Prop := route.startPlanet = route.targetPlanet ∧ route.targetPlanet ≠ route.originPlanet

/-- It is on its way to its origin. -/
def Returning (route : Route) : Prop := route.targetPlanet = route.originPlanet

instance (route : Route) : Decidable route.Outward := inferInstanceAs (Decidable (_ ∧ _))
instance (route : Route) : Decidable route.Stationed := inferInstanceAs (Decidable (_ ∧ _))
instance (route : Route) : Decidable route.Returning := inferInstanceAs (Decidable (_ = _))

variable {route : Route}

theorem not_outward_of_returning (hreturning : route.Returning) : ¬route.Outward := fun houtward => houtward.2 hreturning

theorem not_outward_of_arrived (harrived : route.startPlanet = route.targetPlanet) : ¬route.Outward :=
  fun houtward => houtward.2 (harrived ▸ houtward.1)

end Route

/-! ## Rows -/

/-- What an event makes of a row it keeps; only the fleet that settles gets another mission. -/
structure Evolves (settler : Option FleetId) (id : FleetId) (row new : FleetRow) : Prop where
  user : new.attributes.user = row.attributes.user
  route : new.attributes.Outward → new.attributes.toRoute = row.attributes.toRoute
  manned : row.shipfleets ≠ [] → new.shipfleets ≠ []
  valid : Valid row.shipfleets → Valid new.shipfleets
  one_row : (typesOf row.shipfleets).Nodup → (typesOf new.shipfleets).Nodup
  mission : settler ≠ some id → new.attributes.missionId = row.attributes.missionId
  ships : settler ≠ some id → row.attributes.missionId ≠ 1 →
    ∀ ship, amountOf new.shipfleets ship ≤ amountOf row.shipfleets ship

/-- A row that was created at a time. -/
structure Departs (now : ℕ) (new : FleetRow) : Prop where
  valid : Valid new.shipfleets
  one_row : (typesOf new.shipfleets).Nodup
  time : new.attributes.Outward → new.attributes.departureTime = now

namespace Evolves

variable {settler : Option FleetId} {id : FleetId} {row mid new : FleetRow} {attributes : Attributes}
  {shipHash : Hash ShipId ℤ}

theorem refl (settler : Option FleetId) (id : FleetId) (row : FleetRow) : Evolves settler id row row :=
  ⟨rfl, fun _ => rfl, fun hrows => hrows, fun hvalid => hvalid, fun hone => hone, fun _ => rfl, fun _ _ _ => le_refl _⟩

theorem trans (hfirst : Evolves settler id row mid) (hsecond : Evolves settler id mid new) :
    Evolves settler id row new where
  user := hsecond.user.trans hfirst.user
  route houtward := by
    have hroute := hsecond.route houtward
    rw [hroute] at houtward
    exact hroute.trans (hfirst.route houtward)
  manned hrows := hsecond.manned (hfirst.manned hrows)
  valid hvalid := hsecond.valid (hfirst.valid hvalid)
  one_row hone := hsecond.one_row (hfirst.one_row hone)
  mission hne := (hsecond.mission hne).trans (hfirst.mission hne)
  ships hne haway ship := by
    have hmid : mid.attributes.missionId ≠ 1 := by
      rw [hfirst.mission hne]
      exact haway
    exact (hsecond.ships hne hmid ship).trans (hfirst.ships hne haway ship)

/-- The fleet does not set out, and its ships stay what they are. -/
theorem turned (huser : attributes.user = row.attributes.user) (hmission : attributes.missionId = row.attributes.missionId)
    (hinward : ¬attributes.Outward) : Evolves settler id row ⟨attributes, row.shipfleets⟩ where
  user := huser
  route houtward := absurd houtward hinward
  manned hrows := hrows
  valid hvalid := hvalid
  one_row hone := hone
  mission _ := hmission
  ships _ _ _ := le_refl _

/-- Its other attributes change. -/
theorem renewed (hroute : attributes.toRoute = row.attributes.toRoute) :
    Evolves settler id row ⟨attributes, row.shipfleets⟩ where
  user := congrArg Route.user hroute
  route _ := hroute
  manned hrows := hrows
  valid hvalid := hvalid
  one_row hone := hone
  mission _ := congrArg Route.missionId hroute
  ships _ _ _ := le_refl _

/-- It loses ships. -/
theorem weakened (hroute : attributes.toRoute = row.attributes.toRoute)
    (henough : enoughShips? row.shipfleets shipHash = true) :
    Evolves settler id row ⟨attributes, removed shipHash row.shipfleets⟩ where
  user := congrArg Route.user hroute
  route _ := hroute
  manned := ne_nil_of_typesOf fun ship hship => by rwa [typesOf_removed]
  valid hvalid := hvalid.removed henough
  one_row hone := by rwa [typesOf_removed]
  mission _ := congrArg Route.missionId hroute
  ships _ _ ship := by
    rw [amountOf_removed_of_enough henough]
    have hnonneg : 0 ≤ shipHash.getD ship 0 := by
      rw [Hash.getD]
      cases hget : shipHash.get? ship with
      | none => exact le_rfl
      | some value => exact hashIsValid?_iff.mp (hashIsValid?_of_enough henough) ship value hget
    omega

/-- A home fleet gets ships. -/
theorem joined (hroute : attributes.toRoute = row.attributes.toRoute) (hhome : row.attributes.missionId = 1)
    (hhash : hashIsValid? shipHash = true) : Evolves settler id row ⟨attributes, added shipHash row.shipfleets⟩ where
  user := congrArg Route.user hroute
  route _ := hroute
  manned := ne_nil_of_typesOf fun ship hship => by
    rw [typesOf_added]
    exact List.mem_append_left _ hship
  valid hvalid := hvalid.added hhash
  one_row hone := added_one_row hone shipHash
  mission _ := congrArg Route.missionId hroute
  ships _ haway := absurd hhome haway

/-- What the settler itself does does not matter, if it does not set out. -/
theorem settled (huser : attributes.user = row.attributes.user) (hinward : ¬attributes.Outward) {rows : List Shipfleet}
    (hmanned : row.shipfleets ≠ [] → rows ≠ []) (hvalid : Valid row.shipfleets → Valid rows)
    (hone : (typesOf row.shipfleets).Nodup → (typesOf rows).Nodup) : Evolves (some id) id row ⟨attributes, rows⟩ where
  user := huser
  route houtward := absurd houtward hinward
  manned := hmanned
  valid := hvalid
  one_row := hone
  mission hne := absurd rfl hne
  ships hne := absurd rfl hne

end Evolves

theorem Departs.evolves {now : ℕ} {settler : Option FleetId} {id : FleetId} {row new : FleetRow}
    (hdeparts : Departs now row) (hevolves : Evolves settler id row new) : Departs now new where
  valid := hevolves.valid hdeparts.valid
  one_row := hevolves.one_row hdeparts.one_row
  time houtward := by
    have hroute := hevolves.route houtward
    rw [hroute] at houtward ⊢
    exact hdeparts.time houtward

/-- What an event at a time does to the fleet table. -/
abbrev FleetsEvolve (now : ℕ) (settler : Option FleetId) : Table FleetRow → Table FleetRow → Prop :=
  Table.Descends (Evolves settler) (Departs now)

namespace FleetsEvolve

variable {now : ℕ} {settler : Option FleetId} {id : FleetId} {row new : FleetRow} {t u v : Table FleetRow}

variable (now settler) in
theorem refl (t : Table FleetRow) : FleetsEvolve now settler t t := Table.Descends.refl (Evolves.refl settler) t

theorem trans (hfirst : FleetsEvolve now settler t u) (hsecond : FleetsEvolve now settler u v) :
    FleetsEvolve now settler t v :=
  Table.Descends.trans (fun _ _ _ _ => Evolves.trans) (fun _ _ _ => Departs.evolves) hfirst hsecond

theorem put (hget : t.get id = some row) (hnew : Evolves settler id row new) :
    FleetsEvolve now settler t (t.put id new) :=
  Table.Descends.put (Evolves.refl settler) hget hnew

theorem create (t : Table FleetRow) (hnew : Departs now new) : FleetsEvolve now settler t (t.create new) :=
  Table.Descends.create (Evolves.refl settler) t hnew

theorem destroy (t : Table FleetRow) (id : FleetId) : FleetsEvolve now settler t (t.destroy id) :=
  Table.Descends.destroy (Evolves.refl settler) t id

theorem skip (t : Table FleetRow) : FleetsEvolve now settler t t.skip :=
  Table.Descends.skip (Evolves.refl settler) t

theorem clear (t : Table FleetRow) (ids : List FleetId) : FleetsEvolve now settler t (ids.foldl Table.destroy t) :=
  Table.Descends.foldl_destroy (Evolves.refl settler) t ids

/-- Fleets that have the ships lose them. -/
theorem strike (w : World) (db : Db) {losses : List (Fleet × Hash ShipId ℤ)}
    (hnodup : (losses.map fun loss => loss.1.id).Nodup)
    (henough : ∀ loss ∈ losses, ∀ row, t.get loss.1.id = some row → enoughShips? row.shipfleets loss.2 = true) :
    FleetsEvolve now settler t (struckTable w db losses t) := by
  induction losses generalizing t with
  | nil => exact refl now settler t
  | cons loss losses ih =>
      obtain ⟨hnew, hrest⟩ := List.nodup_cons.mp hnodup
      have hstruck : FleetsEvolve now settler t (t.modify loss.1.id (struckRow w db loss.2)) :=
        Table.Descends.modify (Evolves.refl settler) t fun row hget =>
          .weakened (valued_toRoute w db _ row.attributes) (henough loss List.mem_cons_self row hget)
      refine hstruck.trans (ih hrest fun other hmem row hget => ?_)
      rw [Table.get_modify_of_ne t _ (ne_of_not_mem_map hnew hmem)] at hget
      exact henough other (List.mem_cons_of_mem loss hmem) row hget

end FleetsEvolve

/-! ## Boards -/

/-- The fleet that the job lets found a colony. -/
def Job.settler? : Job → Option FleetId
  | .colonizePlanet fleet _ => some fleet
  | _ => none

theorem Job.settler?_of_fleet? {job : Job} (hnone : job.fleet? = none) : job.settler? = none := by
  cases job with
  | colonizePlanet fleet planet => cases hnone
  | _ => rfl

theorem Fleet.eq_of_settler? {self : Fleet} {spypower : Factor} {id : FleetId}
    (hsettler : (self.missionJob spypower).settler? = some id) : id = self.id := by
  unfold missionJob at hsettler
  split at hsettler
  · exact (Option.some.inj hsettler).symm
  all_goals cases hsettler

namespace Board

/-- How many jobs of a fleet to found a colony are still to be done. -/
def colonizations (board : Board) (id : FleetId) : ℕ :=
  board.delayed.countP (fun entry => entry.job.settler? = some id) + board.ready.countP fun job => job.settler? = some id

/-- What an event does to the fleets, and to the jobs of those that go to found a colony. -/
structure Flies (now : ℕ) (settler : Option FleetId) (board next : Board) : Prop where
  fleets : FleetsEvolve now settler board.fleets next.fleets
  colonizations : ∀ id, id < board.fleets.nextId → next.colonizations id ≤ board.colonizations id
  known : (∀ id, board.fleets.nextId ≤ id → board.colonizations id = 0) →
    ∀ id, next.fleets.nextId ≤ id → next.colonizations id = 0

namespace Flies

variable {now : ℕ} {settler : Option FleetId} {board mid next : Board} {t : Table FleetRow} {jobs : List Enqueued}

theorem trans (hfirst : Flies now settler board mid) (hsecond : Flies now settler mid next) :
    Flies now settler board next where
  fleets := FleetsEvolve.trans hfirst.fleets hsecond.fleets
  colonizations id hid :=
    (hsecond.colonizations id (hid.trans_le hfirst.fleets.nextId_le)).trans (hfirst.colonizations id hid)
  known hknown := hsecond.known (hfirst.known hknown)

/-- Only the fleets change. -/
theorem setFleets (hfleets : FleetsEvolve now settler board.fleets t) :
    Flies now settler board (board.setFleets t) where
  fleets := hfleets
  colonizations _ _ := le_refl _
  known hknown id hid := hknown id (hfleets.nextId_le.trans hid)

variable (now settler board) in
theorem refl : Flies now settler board board := setFleets (.refl now settler board.fleets)

theorem colonizations_addJobs (board : Board) (jobs : List Enqueued) (id : FleetId) :
    (board.addJobs jobs).colonizations id =
      board.colonizations id + jobs.countP fun entry => entry.job.settler? = some id := by
  rw [Board.colonizations, addJobs, List.countP_append, Board.colonizations]
  exact Nat.add_right_comm _ _ _

/-- More jobs come, and those that found a colony do so for a new fleet. -/
theorem addJobs (hflies : Flies now settler board next) (hjobs : ∀ entry ∈ jobs, ∀ id,
      entry.job.settler? = some id → board.fleets.nextId ≤ id ∧ id < next.fleets.nextId) :
    Flies now settler board (next.addJobs jobs) := by
  have hsame : ∀ id, id < board.fleets.nextId ∨ next.fleets.nextId ≤ id →
      (next.addJobs jobs).colonizations id = next.colonizations id := by
    intro id hid
    have hnone : jobs.countP (fun entry => entry.job.settler? = some id) = 0 := by
      refine List.countP_eq_zero.mpr fun entry hentry hsettler => ?_
      obtain ⟨hle, hlt⟩ := hjobs entry hentry id (of_decide_eq_true hsettler)
      exact hid.elim hle.not_gt hlt.not_ge
    rw [colonizations_addJobs, hnone, Nat.add_zero]
  exact ⟨hflies.fleets, fun id hid => (hsame id (.inl hid)).trans_le (hflies.colonizations id hid),
    fun hknown id hid => (hsame id (.inr hid)).trans (hflies.known hknown id hid)⟩

theorem removeDelayed (board : Board) (job : Job) : Flies now settler board (board.removeDelayed job) := by
  have hle : ∀ id, (board.removeDelayed job).colonizations id ≤ board.colonizations id := fun id =>
    Nat.add_le_add_right List.filter_sublist.countP_le _
  exact ⟨.refl now settler _, fun id _ => hle id, fun hknown id hid =>
    Nat.eq_zero_of_le_zero ((hle id).trans_eq (hknown id hid))⟩

theorem setOwner (hflies : Flies now settler board next) (p : PlanetId) (user : Option UserId) :
    Flies now settler board (next.setOwner p user) :=
  ⟨hflies.fleets, hflies.colonizations, hflies.known⟩

/-! ### Fleets -/

variable {w : World} {db dbNext : Db} {id : FleetId} {row : FleetRow} {planet : PlanetId}

theorem turns (self : Fleet) (hget : db.fleets.get self.id = some row) (huser : self.user = row.attributes.user)
    (hmission : self.missionId = row.attributes.missionId) (hturns : Turns w db self row.shipfleets planet dbNext) :
    Flies now settler db.board dbNext.board := by
  cases hturns with
  | stuck hrows => exact refl now settler _
  | turned velocity dbNext hrows hboard =>
      have hinward : ¬(Fleet.turned w db.now self velocity planet).toAttributes.Outward :=
        Route.not_outward_of_returning rfl
      have hput : Flies now settler db.board (db.board.putFleet self.id
          ⟨(Fleet.turned w db.now self velocity planet).toAttributes, row.shipfleets⟩) :=
        setFleets (.put hget (.turned huser hmission hinward))
      rw [hboard]
      refine hput.addJobs fun entry hentry id hsettler => ?_
      rw [List.mem_singleton.mp hentry] at hsettler
      cases hsettler

theorem joins (hvalid : db.fleets.All fun row => Valid row.shipfleets) (hget : db.fleets.get id = some row)
    (hjoins : Joins w db planet id row dbNext) : Flies now settler db.board dbNext.board := by
  cases hjoins with
  | homeless hfirst => exact refl now settler _
  | itself hfirst => exact setFleets (.destroy _ id)
  | joined home homeRow hfirst hhome hne =>
      obtain ⟨found, hfound, hbased⟩ := Table.first_eq_some hfirst
      obtain rfl := Option.some.inj (hhome.symm.trans hfound)
      have hmission : homeRow.attributes.missionId = 1 := (of_decide_eq_true hbased).1
      have hroute : (merged w db homeRow.shipfleets row.shipfleets (ofRow home homeRow) (ofRow id row)).toRoute =
          homeRow.attributes.toRoute := valued_toRoute w db _ _
      exact setFleets (.trans (.put hhome (.joined hroute hmission (hvalid id row hget))) (.destroy _ id))

/-! ### Requests -/

variable (w) in
theorem split (self new : Fleet) {shipHash : Hash ShipId ℤ} (hget : db.fleets.get self.id = some row)
    (hself : self.toAttributes = row.attributes) (henough : enoughShips? row.shipfleets shipHash = true)
    (hnew : new.toAttributes.Outward → new.departureTime = now) :
    FleetsEvolve now settler db.fleets ((db.fleets.put self.id
      ⟨(staying w db shipHash row.shipfleets self).toAttributes, removed shipHash row.shipfleets⟩).create
        ⟨new.toAttributes, added shipHash []⟩) := by
  have hroute : (staying w db shipHash row.shipfleets self).toRoute = row.attributes.toRoute := by
    rw [← hself]
    exact valued_toRoute w db _ _
  exact .trans (.put hget (.weakened hroute henough))
    (.create _ ⟨valid_nil.added (hashIsValid?_of_enough henough), one_row_added_nil shipHash, hnew⟩)

theorem checkedDb {params : Params} {user : UserId} (hget : db.fleets.get params.fleet = some row) :
    Flies now settler db.board (checkedDb w db params row user).board :=
  setFleets (.trans (.put hget (.renewed (checkedRow_toRoute w db params row user))) (.skip _))

theorem leftSplit {params : Params} {user : UserId} (hget : db.fleets.get params.fleet = some row)
    (henough : enoughShips? row.shipfleets (params.shipHash w) = true) : FleetsEvolve now settler db.fleets
      (splitTable w db (params.shipHash w) user row.shipfleets (ofRow params.fleet row)) := by
  refine split w (ofRow params.fleet row) _ hget rfl henough fun houtward => ?_
  have hroute : (leaving w db (params.shipHash w) user (ofRow params.fleet row)).toRoute = _ :=
    valued_toRoute w db (added (params.shipHash w) []) (newAttributes db row.attributes.originPlanet user)
  rw [hroute] at houtward
  exact absurd houtward (Route.not_outward_of_returning rfl)

theorem check {params : Params} {result : EStateM.Result Err Db (List String)} (hcheck : CheckOutcome w db params result) :
    Flies now settler db.board (after result).board := by
  cases hcheck with
  | missing hget => exact refl now settler _
  | early row fehler hget hfehler hearly => exact refl now settler _
  | unowned row hget hships henough howner =>
      exact setFleets (.put hget (.renewed (valued_toRoute w db _ row.attributes)))
  | leftSplit row user hget hships henough howner hfails => exact setFleets (leftSplit hget henough)
  | undone row user hget hships henough howner hfails => exact checkedDb hget

/-- The new fleet of a move sets out, and its job is the only new one. -/
theorem move {row : FleetRow} {mission : MissionId} {destination : PlanetId} {shipHash : Hash ShipId ℤ}
    {ore crystal credit : ℤ} (hget : db.fleets.get id = some row)
    (hmove : MoveOutcome w db (ofRow id row) row mission destination shipHash ore crystal credit (.ok ⟨⟩ dbNext)) :
    Flies db.now settler db.board dbNext.board := by
  cases hmove with
  | left user time energy cargo dbNext hhome henough howner hfails hships hneeds hpaid hready hboard hcargo hstocked =>
      let fleet := mover w db (ofRow id row) row destination shipHash user time
      let left := (paidBoard (db.setFleets (splitTable w db shipHash user row.shipfleets (ofRow id row))) fleet
        (doubled mission energy)).putFleet fleet.id ⟨(fleet.sent mission cargo).toAttributes, added shipHash []⟩
      have hfleets : left.fleets = _ := Table.put_create_self _ _ _
      have hevolve : FleetsEvolve db.now settler db.fleets left.fleets :=
        hfleets ▸ split w (ofRow id row) (fleet.sent mission cargo) hget rfl henough fun _ => rfl
      have hleft : Flies db.now settler db.board left :=
        ⟨hevolve, fun _ _ => le_refl _, fun hknown other hother => hknown other (hevolve.nextId_le.trans hother)⟩
      rw [hboard]
      refine hleft.addJobs fun entry hentry other hsettler => ?_
      rw [List.mem_singleton.mp hentry] at hsettler
      obtain rfl := Fleet.eq_of_settler? hsettler
      exact ⟨le_refl _, Nat.lt_succ_self _⟩

variable (w db) in
theorem send (params : Params) :
    Flies db.now settler db.board (after ((sendFleet w params).run db)).board := by
  have hsend := send_outcome w db params
  generalize (sendFleet w params).run db = result at hsend
  cases hsend with
  | raised err next hrun hcheck => exact check hcheck
  | complained fehler next hrun hcheck hfehler => exact check hcheck
  | away row user message hpassed haway => exact checkedDb hpassed.get
  | based row user err hpassed hhome hmission =>
      exact (checkedDb hpassed.get).trans (checkedDb (get_checkedDb w user hpassed.get))
  | left row user planet next hpassed hhome hmission hplanet hmove =>
      exact (checkedDb hpassed.get).trans (move (get_checkedDb w user hpassed.get) hmove)

variable (db) in
theorem breakup (id : FleetId) :
    Flies now settler db.board (after ((FleetsController.breakup id).run db)).board := by
  have hbreaks := breakup_breaksUp db id
  generalize after ((FleetsController.breakup id).run db) = next at hbreaks
  cases hbreaks with
  | missing hget => exact refl now settler _
  | based row hget hmission => exact refl now settler _
  | back row next hget hmission hboard =>
      let back := brokenUp db.now (ofRow id row)
      have hback : Evolves settler id row ⟨back.toAttributes, row.shipfleets⟩ :=
        .turned rfl rfl (Route.not_outward_of_returning rfl)
      let removed := db.board.removeDelayed
        ((ofRow id row).missionJob (db.board.userSetting (ofRow id row).user).increasedSpypower)
      have hput : Flies now settler removed (removed.putFleet id ⟨back.toAttributes, row.shipfleets⟩) :=
        setFleets (.put hget hback)
      rw [hboard]
      refine ((removeDelayed db.board _).trans hput).addJobs fun entry hentry other hsettler => ?_
      rw [List.mem_singleton.mp hentry] at hsettler
      cases hsettler

variable (db) in
theorem unload (id : FleetId) (planet : PlanetId) :
    Flies now settler db.board (after ((FleetsController.unload id planet).run db)).board := by
  cases hget : db.fleets.get id with
  | none =>
      rw [FleetsController.unload, run_bind_of_error (find_of_none hget)]
      exact refl now settler _
  | some row =>
      rw [FleetsController.unload, run_bind_of_ok (find_of_some hget)]
      split
      · obtain ⟨cargo, next, hunload, hboard, -, -⟩ :=
          unloadRessources_board (show db.fleets.get (ofRow id row).id = some row from hget) planet
        rw [run_bind_of_ok hunload]
        refine (congrArg (Flies now settler db.board) hboard).mpr ?_
        exact setFleets (.put hget (.renewed rfl))
      · exact refl now settler _

variable (w) in
theorem addShipToPlanet (ship : ShipId) (planet : PlanetId) :
    Flies db.now settler db.board (after ((Fleet.addShipToPlanet w ship planet).run db)).board := by
  cases hfirst : db.fleets.first (Db.basedAt planet) with
  | some home =>
      obtain ⟨homeRow, hhome, hbased⟩ := Table.first_eq_some hfirst
      have hmission : homeRow.attributes.missionId = 1 := (of_decide_eq_true hbased).1
      rw [addShipToPlanet_home w hfirst hhome]
      exact setFleets (.put hhome (.joined (valued_toRoute w db _ _) hmission rfl))
  | none =>
      cases howner : (db.planets planet).user with
      | some user =>
          have hroute := valued_toRoute w db (added (.single ship 1) []) (newAttributes db planet user)
          rw [addShipToPlanet_new w hfirst howner]
          refine setFleets (.create _ ⟨valid_nil.added rfl, one_row_added_nil _, fun houtward => ?_⟩)
          rw [hroute] at houtward
          exact absurd houtward (Route.not_outward_of_returning rfl)
      | none =>
          rw [addShipToPlanet_nobody w hfirst howner]
          exact refl db.now settler _

/-! ### Arrivals -/

section Arrivals

variable (hget : db.fleets.get id = some row)

include hget

theorem travels (hvalid : db.fleets.All fun row => Valid row.shipfleets) (htravels : Travels w db id row planet dbNext) :
    Flies now settler db.board dbNext.board := by
  cases htravels with
  | turned next hrelation hturns => exact turns (ofRow id row) hget rfl rfl hturns
  | joined next hrelation hjoins => exact joins hvalid hget hjoins
  | landed hrelation => exact setFleets (.put hget (.turned rfl rfl (Route.not_outward_of_arrived rfl)))

theorem transports (htransports : Transports w db id row planet dbNext) :
    Flies now settler db.board dbNext.board := by
  cases htransports with
  | turned next hrelation hturns => exact turns (ofRow id row) hget rfl rfl hturns
  | unloaded cargo middle next hrelation hboard hcargo hturns =>
      have hunloaded : Flies now settler db.board middle.board := hboard ▸ setFleets (.put hget (.renewed rfl))
      have hfleets : middle.fleets = db.fleets.put id ⟨((ofRow id row).withCargo cargo).toAttributes, row.shipfleets⟩ :=
        congrArg Board.fleets hboard
      have hmiddle : middle.fleets.get ((ofRow id row).withCargo cargo).id =
          some ⟨((ofRow id row).withCargo cargo).toAttributes, row.shipfleets⟩ := by
        rw [hfleets]
        exact (Table.get_put _ hget id).trans (if_pos rfl)
      exact hunloaded.trans (turns _ hmiddle rfl rfl hturns)

theorem spies {r : ℚ} {ownSpyFactor : Factor} (hspies : Spies w db id row planet r ownSpyFactor dbNext) :
    Flies now settler db.board dbNext.board := by
  cases hspies with
  | turned next hsafe hturns => exact turns (ofRow id row) hget rfl rfl hturns
  | destroyed hfound => exact setFleets (.destroy _ id)

/-- The settler comes to rest at the planet it claims. -/
theorem claimed {jobs : List Enqueued} {attributes : Attributes} {rows : List Shipfleet} (hjobs : Planet.PlanetJobs jobs)
    (hroute : attributes.toRoute = (Fleet.settled planet db.now (ofRow id row)).toRoute)
    (hmanned : row.shipfleets ≠ [] → rows ≠ []) (hrows : Valid row.shipfleets → Valid rows)
    (hone : (typesOf row.shipfleets).Nodup → (typesOf rows).Nodup) : Flies now (some id) db.board
      ((claimedBoard planet db.board row.attributes.user jobs).putFleet id ⟨attributes, rows⟩) := by
  have hinward : ¬attributes.Outward := by
    rw [hroute]
    exact Route.not_outward_of_returning rfl
  have howner : Flies now (some id) db.board (claimedBoard planet db.board row.attributes.user jobs) := by
    refine ((refl now (some id) db.board).setOwner planet _).addJobs fun entry hentry other hsettler => ?_
    rw [Job.settler?_of_fleet? (hjobs entry hentry)] at hsettler
    cases hsettler
  have huser : attributes.user = row.attributes.user := (congrArg Route.user hroute).trans rfl
  exact howner.trans (setFleets (.put hget (.settled huser hinward hmanned hrows hone)))

theorem colonizes (hcolonizes : Colonizes w db id row planet dbNext) : Flies now (some id) db.board dbNext.board := by
  cases hcolonizes with
  | turned next hrelation hturns => exact turns (ofRow id row) hget rfl rfl hturns
  | settled cargo jobs next hrelation hjobs henough hboard =>
      rw [hboard]
      refine claimed hget hjobs (valued_toRoute w db _ _) (ne_nil_of_typesOf fun ship hship => ?_)
        (fun hvalid => hvalid.removed henough) fun hone => ?_
      · rwa [typesOf_removed]
      · rwa [typesOf_removed]
  | unmanned cargo jobs next hrelation hjobs hlacks hboard =>
      rw [hboard]
      exact claimed hget hjobs rfl (fun hrows => hrows) (fun hvalid => hvalid) fun hone => hone

theorem attacks {draws : Draws} (hattacks : Attacks w draws db id row planet dbNext) :
    Flies now settler db.board dbNext.board := by
  cases hattacks with
  | turned next hrelation hturns => exact turns (ofRow id row) hget rfl rfl hturns
  | raised err hrelation hlosses => exact refl now settler _
  | beaten lost hrelation hfactor hlosses henough =>
      have hstruck : FleetsEvolve now settler db.fleets (struckTable w db ((defenders db planet).zip lost) db.fleets) := by
        refine .strike w db (nodup_struck henough) fun loss hloss found hfound => ?_
        have hhas := List.forall₂_zip henough hloss
        rw [rowsIn, hfound] at hhas
        exact hhas
      exact setFleets (hstruck.trans (.destroy _ id))
  | drawn hrelation hfactor => exact setFleets ((FleetsEvolve.clear _ _).trans (.destroy _ id))
  | won lost cargo middle next hrelation hfactor hlosses henough haway hboard hturns =>
      have hleft : (cleared db planet).get id = some row := get_cleared hget haway
      have hroute : ((winner w db id row lost).withCargo cargo).toRoute = row.attributes.toRoute :=
        valued_toRoute w db _ row.attributes
      have hwon : Flies now settler db.board middle.board := by
        rw [hboard]
        exact setFleets ((FleetsEvolve.clear _ _).trans (.put hleft (.weakened hroute henough)))
      have hfleets : middle.fleets = (cleared db planet).put id
          ⟨((winner w db id row lost).withCargo cargo).toAttributes, removed lost row.shipfleets⟩ :=
        congrArg Board.fleets hboard
      have hmiddle : middle.fleets.get ((winner w db id row lost).withCargo cargo).id =
          some ⟨((winner w db id row lost).withCargo cargo).toAttributes, removed lost row.shipfleets⟩ := by
        rw [hfleets]
        exact (Table.get_put _ hleft id).trans (if_pos rfl)
      exact hwon.trans (turns _ hmiddle rfl rfl hturns)
  | vanished lost next hrelation hfactor hlosses hthere hboard =>
      rw [hboard]
      exact setFleets (.clear _ _)

end Arrivals

end Flies

end Board

/-! ## Events -/

/-- What a job does to the fleets. -/
theorem Job.perform_flies {w : World} {draws : Draws} {db : Db} {job : Job} {action : Act Unit}
    (hperform : job.perform w draws = some action) (hvalid : db.fleets.All fun row => Valid row.shipfleets) :
    Board.Flies db.now job.settler? db.board (after (action.run db)).board := by
  obtain ⟨fleet, hfleet⟩ := Job.fleet?_of_perform hperform
  -- without its fleet no job does anything
  cases hget : db.fleets.get fleet with
  | none =>
      have hmissing : after (action.run db) = db := by
        have hfind := find_of_none hget
        cases job with
        | buildBuildings planet buildingtype => cases hperform
        | produceResources planet => cases hperform
        | _ =>
            cases hperform
            obtain rfl := Option.some.inj hfleet
            rw [run_bind_of_error hfind]
            rfl
      rw [hmissing]
      exact .refl _ _ _
  | some row =>
      have hfind := find_of_some hget
      have hrow := hvalid fleet row hget
      cases job with
      | buildBuildings planet buildingtype => cases hperform
      | produceResources planet => cases hperform
      | attackPlanet self planet =>
          cases hperform
          obtain rfl := Option.some.inj hfleet
          rw [run_bind_of_ok hfind]
          exact .attacks hget (Fight.attack_attacks w draws planet hvalid hget)
      | colonizePlanet self planet =>
          cases hperform
          obtain rfl := Option.some.inj hfleet
          rw [run_bind_of_ok hfind]
          exact .colonizes hget (colonize_colonizes w hget planet)
      | travelToPlanet self planet =>
          cases hperform
          obtain rfl := Option.some.inj hfleet
          rw [run_bind_of_ok hfind]
          exact .travels hget hvalid (travel_travels w hget hrow planet)
      | spyPlanet self planet factor =>
          cases hperform
          obtain rfl := Option.some.inj hfleet
          rw [run_bind_of_ok hfind]
          exact .spies hget (spy_spies w hget draws.spyRate factor planet)
      | transportToPlanet self planet =>
          cases hperform
          obtain rfl := Option.some.inj hfleet
          rw [run_bind_of_ok hfind]
          exact .transports hget (transport_transports w hget planet)
      | returnToOrigin self =>
          cases hperform
          obtain rfl := Option.some.inj hfleet
          rw [run_bind_of_ok hfind]
          exact .joins hvalid hget (arriveHome_joins w hget hrow)

/-- The fleet that an event lets found a colony. -/
def Event.settler? (db : Db) : Event → Option FleetId
  | .work index _ => db.ready[index]?.bind Job.settler?
  | _ => none

theorem countP_eraseIdx {α : Type*} {l : List α} {index : ℕ} {a : α} (hget : l[index]? = some a) (test : α → Bool) :
    l.countP test = (l.eraseIdx index).countP test + if test a then 1 else 0 := by
  rw [(Backlog.perm_cons_eraseIdx hget).countP_eq, List.countP_cons]

/-- A ready job that is taken no longer counts. -/
theorem Db.colonizations_taken {db : Db} {index : ℕ} {job : Job} (hready : db.ready[index]? = some job) (id : FleetId) :
    db.board.colonizations id =
      { db with ready := db.ready.eraseIdx index }.board.colonizations id + if job.settler? = some id then 1 else 0 := by
  have hcount := countP_eraseIdx hready fun job => job.settler? = some id
  simp only [decide_eq_true_eq] at hcount
  exact (congrArg (_ + ·) hcount).trans (Nat.add_assoc _ _ _).symm

/-- A job that gets ready counts as before. -/
theorem Db.colonizations_scheduled {db : Db} {index : ℕ} {entry : Enqueued} (hentry : db.delayed[index]? = some entry)
    (id : FleetId) : { db with delayed := db.delayed.eraseIdx index, ready := db.ready ++ [entry.job] }.board.colonizations id =
      db.board.colonizations id := by
  have hcount := countP_eraseIdx hentry fun entry => entry.job.settler? = some id
  simp only [decide_eq_true_eq] at hcount
  simp only [Board.colonizations, Db.board_delayed, Db.board_ready, hcount, List.countP_append, List.countP_singleton,
    decide_eq_true_eq]
  omega

/-- A ready job is taken and run. -/
theorem work_flies {w : World} {db next : Db} {index : ℕ} {draws : Draws}
    (hvalid : db.fleets.All fun row => Valid row.shipfleets) (hstep : step w db (.work index draws) = some next) :
    ∃ job, db.ready[index]? = some job ∧
      Board.Flies db.now job.settler? { db with ready := db.ready.eraseIdx index }.board next.board := by
  simp only [step] at hstep
  split at hstep
  · rename_i job hready
    split at hstep
    · rename_i action hperform
      let taken : Db := { db with ready := db.ready.eraseIdx index }
      have htaken : taken.fleets.All fun row => Valid row.shipfleets := hvalid
      rw [settled_eq_some hstep]
      exact ⟨job, hready, Job.perform_flies hperform htaken⟩
    · cases hstep
  · cases hstep

/-- What an event does to the fleets. -/
theorem step_flies {w : World} {db next : Db} {event : Event} (hvalid : db.fleets.All fun row => Valid row.shipfleets)
    (hstep : step w db event = some next) : Board.Flies db.now (event.settler? db) db.board next.board := by
  cases event with
  | wait seconds =>
      cases hstep
      exact ⟨.refl _ _ _, fun _ _ => le_refl _, fun hknown => hknown⟩
  | addShip ship planet =>
      rw [settled_eq_some hstep]
      exact .addShipToPlanet w ship planet
  | check params =>
      rw [settled_eq_some hstep]
      exact .check (check_outcome w db params)
  | send params =>
      rw [settled_eq_some hstep]
      exact .send w db params
  | breakup fleet =>
      rw [settled_eq_some hstep]
      exact .breakup db fleet
  | unload fleet planet =>
      rw [settled_eq_some hstep]
      exact .unload db fleet planet
  | research user technology factor =>
      cases hstep
      exact ⟨.refl _ _ _, fun _ _ => le_refl _, fun hknown => hknown⟩
  | schedule index =>
      simp only [step] at hstep
      split at hstep
      · rename_i entry hentry
        split at hstep
        · cases hstep
          have hsame := Db.colonizations_scheduled hentry
          exact ⟨.refl _ _ _, fun id _ => (hsame id).le, fun hknown id hid => (hsame id).trans (hknown id hid)⟩
        · cases hstep
      · cases hstep
  | work index draws =>
      obtain ⟨job, hready, hflies⟩ := work_flies hvalid hstep
      let taken : Db := { db with ready := db.ready.eraseIdx index }
      have hle : ∀ id, taken.board.colonizations id ≤ db.board.colonizations id := fun id =>
        (Nat.le_add_right _ _).trans_eq (Db.colonizations_taken hready id).symm
      have htaken : Board.Flies db.now job.settler? db.board taken.board :=
        ⟨.refl _ _ _, fun id _ => hle id, fun hknown id hid =>
          Nat.eq_zero_of_le_zero ((hle id).trans_eq (hknown id hid))⟩
      rw [Event.settler?, hready]
      exact htaken.trans hflies

/-- The event that lets a fleet found a colony takes the job for it. -/
theorem step_settles {w : World} {db next : Db} {event : Event} {id : FleetId}
    (hvalid : db.fleets.All fun row => Valid row.shipfleets) (hstep : step w db event = some next)
    (hsettler : event.settler? db = some id) (hid : id < db.fleets.nextId) :
    next.board.colonizations id + 1 ≤ db.board.colonizations id := by
  cases event with
  | work index draws =>
      obtain ⟨job, hready, hflies⟩ := work_flies hvalid hstep
      rw [Event.settler?, hready] at hsettler
      rw [Db.colonizations_taken hready, if_pos (show job.settler? = some id from hsettler)]
      exact Nat.succ_le_succ (hflies.colonizations id hid)
  | _ => cases hsettler

/-- The rows of all fleets stay valid. -/
theorem step_valid {w : World} {db next : Db} {event : Event} (hvalid : db.fleets.All fun row => Valid row.shipfleets)
    (hstep : step w db event = some next) : next.fleets.All fun row => Valid row.shipfleets :=
  (step_flies hvalid hstep).fleets.all hvalid (fun _ _ _ _ hrow hevolves => hevolves.valid hrow) fun _ hnew => hnew.valid

/-- No fleet gets a second row for a ship type. -/
theorem step_one_row {w : World} {db next : Db} {event : Event} (hvalid : db.fleets.All fun row => Valid row.shipfleets)
    (hone : db.fleets.All fun row => (typesOf row.shipfleets).Nodup) (hstep : step w db event = some next) :
    next.fleets.All fun row => (typesOf row.shipfleets).Nodup :=
  (step_flies hvalid hstep).fleets.all hone (fun _ _ _ _ hrow hevolves => hevolves.one_row hrow) fun _ hnew => hnew.one_row

end Mmog
