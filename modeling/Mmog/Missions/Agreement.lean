import Mmog.Missions.Errands
import Mmog.Model.Seeds

/-!
# Fleets and their jobs

A flying fleet has exactly one pending job, and a stationed fleet none, as long
as every breakup finds the job that it wants to remove, every fleet that joins a
home fleet finds one, and no fight raises.
-/

namespace Mmog

open Ruby Action Fleet MissionsController Fight

/-- The fleet is stationed, or the job that `breakup_mission` removes is delayed. -/
def MayBreakUp (db : Db) (id : FleetId) (row : FleetRow) : Prop :=
  row.attributes.missionId ≠ 1 → row.attributes.Stationed ∨ ∃ entry ∈ db.delayed,
    entry.job = (ofRow id row).missionJob (db.users row.attributes.user).userSetting.increasedSpypower

instance (db : Db) (id : FleetId) (row : FleetRow) : Decidable (MayBreakUp db id row) := by
  unfold MayBreakUp
  infer_instance

namespace Board.Agrees

variable {w : World} {db dbNext : Db} {busy : Option FleetId} {id : FleetId} {row : FleetRow} {planet : PlanetId}

/-! ## Fleets -/

theorem goesOn_joined {attributes : Attributes} {shipHash : Hash ShipId ℤ} (hroute : attributes.toRoute = row.attributes.toRoute) :
    GoesOn row ⟨attributes, added shipHash row.shipfleets⟩ :=
  ⟨hroute, ne_nil_of_typesOf fun ship hship => by
    rw [typesOf_added]
    exact List.mem_append_left _ hship⟩

theorem goesOn_weakened {attributes : Attributes} {shipHash : Hash ShipId ℤ} (hroute : attributes.toRoute = row.attributes.toRoute) :
    GoesOn row ⟨attributes, removed shipHash row.shipfleets⟩ :=
  ⟨hroute, ne_nil_of_typesOf fun ship hship => by rwa [typesOf_removed]⟩

theorem goesOn_renewed {attributes : Attributes} (hroute : attributes.toRoute = row.attributes.toRoute) :
    GoesOn row ⟨attributes, row.shipfleets⟩ :=
  ⟨hroute, fun hmanned => hmanned⟩

/-- Fleets that lose ships go on. -/
theorem strike (w : World) (db : Db) (losses : List (Fleet × Hash ShipId ℤ)) (t : Table FleetRow) :
    Table.Descends (fun _ row new => GoesOn row new) (fun _ => False) t (struckTable w db losses t) := by
  induction losses generalizing t with
  | nil => exact .refl (fun _ row => .refl row) t
  | cons loss losses ih =>
      have hstruck : Table.Descends (fun _ row new => GoesOn row new) (fun _ => False) t
          (t.modify loss.1.id (struckRow w db loss.2)) :=
        .modify (fun _ row => .refl row) t fun row _ => goesOn_weakened (valued_toRoute w db _ row.attributes)
      exact .trans (fun _ _ _ _ => GoesOn.trans) (fun _ _ _ hnone _ => hnone) hstruck (ih _)

/-- The fleet turns back from another planet than its origin. -/
theorem turns (self : Fleet) (hagrees : Agrees (some self.id) db.board) (hidle : db.board.jobsOf self.id = [])
    (hget : db.fleets.get self.id = some row) (hmanned : row.shipfleets ≠ []) (haway : planet ≠ self.originPlanet)
    (hmission : self.missionId ≠ 1) (hturns : Turns w db self row.shipfleets planet dbNext) :
    Agrees none dbNext.board := by
  cases hturns with
  | stuck hnil => exact absurd hnil hmanned
  | turned velocity dbNext _ hboard =>
      let back := Fleet.turned w db.now self velocity planet
      have hput : Agrees (some self.id) (db.board.putFleet self.id ⟨back.toAttributes, row.shipfleets⟩) :=
        hagrees.put hget (absurd rfl)
      have hback : (db.board.putFleet self.id ⟨back.toAttributes, row.shipfleets⟩).fleets.get self.id =
          some ⟨back.toAttributes, row.shipfleets⟩ := (Table.get_put _ hget self.id).trans (if_pos rfl)
      rw [hboard]
      exact hput.setOff hidle hback (.back haway rfl hmission) rfl

/-- The fleet joins a home fleet that there is, and is gone. -/
theorem joins (hagrees : Agrees (some id) db.board) (hfirst : (db.fleets.first (Db.basedAt planet)).isSome)
    (hjoins : Joins w db planet id row dbNext) : Agrees none dbNext.board := by
  cases hjoins with
  | homeless hnone =>
      rw [hnone] at hfirst
      cases hfirst
  | itself _ => exact (hagrees.destroy id).gone (Table.get_destroy_self _ id)
  | joined home homeRow _ hhome hne =>
      have hroute : (merged w db homeRow.shipfleets row.shipfleets (ofRow home homeRow) (ofRow id row)).toRoute =
          homeRow.attributes.toRoute := valued_toRoute w db _ _
      exact ((hagrees.put hhome fun _ => goesOn_joined hroute).destroy id).gone (Table.get_destroy_self _ id)

/-! ## Requests -/

variable (w) in
/-- The new fleet of a split is one more home fleet. -/
theorem split (hagrees : Agrees none db.board) (self : Fleet) (user : UserId) (shipHash : Hash ShipId ℤ)
    (hget : db.fleets.get self.id = some row) (hself : self.toAttributes = row.attributes) :
    Agrees none (db.setFleets (splitTable w db shipHash user row.shipfleets self)).board := by
  have hroute : (staying w db shipHash row.shipfleets self).toRoute = row.attributes.toRoute :=
    (staying_toRoute w db shipHash row.shipfleets self).trans (congrArg Attributes.toRoute hself)
  have hnew := leaving_toRoute w db shipHash user self
  refine (hagrees.put hget fun _ => goesOn_weakened hroute).setFleets (.create (fun _ row _ => .refl row) _ ?_)
  exact ⟨hnew ▸ rfl, hnew ▸ rfl, hnew ▸ rfl⟩

variable (w) in
theorem checkedDb (hagrees : Agrees none db.board) {params : Params} {user : UserId}
    (hget : db.fleets.get params.fleet = some row) : Agrees none (checkedDb w db params row user).board :=
  (hagrees.put hget fun _ => goesOn_renewed (checkedRow_toRoute w db params row user)).setFleets
    (.skip (fun _ row _ => .refl row) _)

theorem check (hagrees : Agrees none db.board) {params : Params} {result : EStateM.Result Err Db (List String)}
    (hcheck : CheckOutcome w db params result) : Agrees none (after result).board := by
  cases hcheck with
  | missing hget => exact hagrees
  | early row fehler hget hfehler hearly => exact hagrees
  | unowned row hget hships henough howner =>
      exact hagrees.put hget fun _ => goesOn_renewed (valued_toRoute w db _ row.attributes)
  | leftSplit row user hget hships henough howner hfails => exact hagrees.split w (ofRow params.fleet row) user (params.shipHash w) hget rfl
  | undone row user hget hships henough howner hfails => exact hagrees.checkedDb w hget

/-- The new fleet of a move sets off for another planet. -/
theorem move (hagrees : Agrees none db.board) {mission : MissionId} {destination : PlanetId} {shipHash : Hash ShipId ℤ}
    {ore crystal credit : ℤ} (hget : db.fleets.get id = some row) (haway : row.attributes.originPlanet ≠ destination)
    (hmove : MoveOutcome w db (ofRow id row) row mission destination shipHash ore crystal credit (.ok ⟨⟩ dbNext)) :
    Agrees none dbNext.board := by
  cases hmove with
  | left user time energy cargo next hhome henough howner hfails hships hneeds hpaid hready hboard hcargo hstocked =>
      let leaves := Fleet.leaving w db shipHash user (ofRow id row)
      let fleet := mover w db (ofRow id row) row destination shipHash user time
      let sent : FleetRow := ⟨(fleet.sent mission cargo).toAttributes, added shipHash []⟩
      have hsplit := hagrees.split w (ofRow id row) user shipHash hget rfl
      have hidle := hagrees.known fleet.id (le_refl db.fleets.nextId)
      have hnew := get_splitTable_new w db (ofRow id row) row shipHash user
      let paid := paidBoard (db.setFleets (splitTable w db shipHash user row.shipfleets (ofRow id row))) fleet
        (doubled mission energy)
      have hpaidBoard : Agrees (some fleet.id) paid := (hsplit.hold fleet.id).setEnergy fleet.originPlanet _
      have hput : Agrees (some fleet.id) (paid.putFleet fleet.id sent) := hpaidBoard.put hnew (absurd rfl)
      have hsent : Table.get _ fleet.id = some sent := (Table.get_put sent hnew fleet.id).trans (if_pos rfl)
      have hroute := leaving_toRoute w db shipHash user (ofRow id row)
      have hstart : leaves.startPlanet = leaves.originPlanet := by
        rw [hroute]
        rfl
      have horigin : leaves.originPlanet = row.attributes.originPlanet := leaving_originPlanet w db shipHash user _
      have herrand : Errand fleet.id sent [(fleet.sent mission cargo).missionJob
          (db.users fleet.user).userSetting.increasedSpypower] :=
        .out _ ⟨hstart, fun heq => haway (horigin.symm.trans heq.symm)⟩ (.of_starts hpaid.1 _)
          (added_nil_ne_nil hships)
      rw [hboard]
      exact hput.setOff hidle hsent herrand (missionJob_fleet? _ _)

variable (w) in
theorem send (hagrees : Agrees none db.board) (params : Params) :
    Agrees none (after ((sendFleet w params).run db)).board := by
  have hsend := send_outcome w db params
  generalize (sendFleet w params).run db = result at hsend
  cases hsend with
  | raised err next hrun hcheck => exact hagrees.check hcheck
  | complained fehler next hrun hcheck hfehler => exact hagrees.check hcheck
  | away row user message hpassed haway => exact hagrees.checkedDb w hpassed.get
  | based row user err hpassed hhome hmission =>
      exact (hagrees.checkedDb w hpassed.get).checkedDb w (get_checkedDb w user hpassed.get)
  | left row user planet next hpassed hhome hmission hplanet hmove =>
      obtain ⟨destination, hdestination, haway⟩ := hpassed.accepted.planet
      obtain rfl := Option.some.inj (hplanet.symm.trans hdestination)
      have horigin : (checkedRow w db params row user).attributes.originPlanet = row.attributes.originPlanet :=
        congrArg Route.originPlanet (checkedRow_toRoute w db params row user)
      exact (hagrees.checkedDb w hpassed.get).move (get_checkedDb w user hpassed.get) (horigin ▸ haway) hmove

/-- Without its job and away from its origin, a fleet may start back. -/
theorem turnsRound (hagrees : Agrees none db.board) (hget : db.fleets.get id = some row) {job : Job}
    (hjob : job.fleet? = some id) (hidle : (db.board.removeDelayed job).jobsOf id = [])
    (haway : row.attributes.targetPlanet ≠ row.attributes.originPlanet) (hmission : row.attributes.missionId ≠ 1) :
    Agrees none (((db.board.removeDelayed job).putFleet id
      ⟨(brokenUp db.now (ofRow id row)).toAttributes, row.shipfleets⟩).addJobs
        [⟨(brokenUp db.now (ofRow id row)).arrivalTime, .returnToOrigin id⟩]) := by
  let back : FleetRow := ⟨(brokenUp db.now (ofRow id row)).toAttributes, row.shipfleets⟩
  have hput : Agrees (some id) ((db.board.removeDelayed job).putFleet id back) :=
    ((hagrees.hold id).removeDelayed hjob).put hget (absurd rfl)
  have hback : ((db.board.removeDelayed job).putFleet id back).fleets.get id = some back :=
    (Table.get_put back hget id).trans (if_pos rfl)
  exact hput.setOff hidle hback (.back haway rfl hmission) rfl

theorem breakup (hagrees : Agrees none db.board) (id : FleetId)
    (hmay : ∀ row ∈ db.fleets.get id, MayBreakUp db id row) :
    Agrees none (after ((FleetsController.breakup id).run db)).board := by
  have hbreaks := breakup_breaksUp db id
  generalize after ((FleetsController.breakup id).run db) = next at hbreaks
  cases hbreaks with
  | missing hget => exact hagrees
  | based row hget hmission => exact hagrees
  | back row next hget hmission hboard =>
      let job := (ofRow id row).missionJob (db.users row.attributes.user).userSetting.increasedSpypower
      have hjob : job.fleet? = some id := missionJob_fleet? (ofRow id row) _
      have hfound := hmay row hget hmission
      have herrand := hagrees.errands id row (Option.some_ne_none _).symm hget
      -- a delayed job of the mission is one of the jobs of the fleet
      have hmem : ¬row.attributes.Stationed → ∃ entry ∈ db.board.delayed, entry.job = job ∧ job ∈ db.board.jobsOf id := by
        intro hflying
        obtain ⟨entry, hentry, heq⟩ : ∃ entry ∈ db.delayed, entry.job = job := hfound.resolve_left hflying
        exact ⟨entry, hentry, heq, heq ▸ mem_jobsOf_of_delayed hentry (heq ▸ hjob)⟩
      rw [hboard]
      generalize hjobs : db.board.jobsOf id = jobs at herrand
      cases herrand with
      | home hstart hhome hbased => exact absurd hbased hmission
      | stationed hstationed _ =>
          refine hagrees.turnsRound hget hjob (List.eq_nil_of_subset_nil ?_) hstationed.2 hmission
          exact hjobs ▸ jobsOf_removeDelayed_subset db.board job id
      | out found houtward hmissionJob _ =>
          obtain ⟨entry, hentry, heq, hin⟩ := hmem fun hstationed => houtward.2 (hstationed.1 ▸ houtward.1)
          obtain rfl : job = found := List.mem_singleton.mp (hjobs ▸ hin)
          exact hagrees.turnsRound hget hjob (jobsOf_removeDelayed_self hjobs ⟨entry, hentry, heq⟩) houtward.2 hmission
      | back haway hreturning _ =>
          obtain ⟨-, -, -, hin⟩ := hmem fun hstationed => hstationed.2 hreturning
          exact absurd (List.mem_singleton.mp (hjobs ▸ hin)) (missionJob_ne_returnToOrigin (ofRow id row) _ id)

theorem unload (hagrees : Agrees none db.board) (id : FleetId) (planet : PlanetId) :
    Agrees none (after ((FleetsController.unload id planet).run db)).board := by
  cases hget : db.fleets.get id with
  | none =>
      rw [FleetsController.unload, run_bind_of_error (find_of_none hget)]
      exact hagrees
  | some row =>
      rw [FleetsController.unload, run_bind_of_ok (find_of_some hget)]
      split
      · obtain ⟨cargo, next, hunload, hboard, -, -⟩ :=
          unloadRessources_board (show db.fleets.get (ofRow id row).id = some row from hget) planet
        rw [run_bind_of_ok hunload]
        refine (congrArg (Agrees none) hboard).mpr ?_
        exact hagrees.put hget fun _ => goesOn_renewed rfl
      · exact hagrees

variable (w) in
theorem addShipToPlanet (hagrees : Agrees none db.board) (ship : ShipId) (planet : PlanetId) :
    Agrees none (after ((Fleet.addShipToPlanet w ship planet).run db)).board := by
  cases hfirst : db.fleets.first (Db.basedAt planet) with
  | some home =>
      obtain ⟨homeRow, hhome, -⟩ := Table.first_eq_some hfirst
      rw [addShipToPlanet_home w hfirst hhome]
      exact hagrees.put hhome fun _ => goesOn_joined (valued_toRoute w db _ homeRow.attributes)
  | none =>
      cases howner : (db.planets planet).user with
      | some user =>
          have hroute := valued_toRoute w db (added (.single ship 1) []) (newAttributes db planet user)
          rw [addShipToPlanet_new w hfirst howner]
          refine hagrees.setFleets (.create (fun _ row _ => .refl row) _ ?_)
          exact ⟨hroute ▸ rfl, hroute ▸ rfl, hroute ▸ rfl⟩
      | none =>
          rw [addShipToPlanet_nobody w hfirst howner]
          exact hagrees

/-! ## Arrivals -/

/-- A fleet whose mission has come to its target planet, and whose job is taken. -/
structure Arrived (db : Db) (id : FleetId) (row : FleetRow) (job : Job) : Prop where
  agrees : Agrees (some id) db.board
  idle : db.board.jobsOf id = []
  get : db.fleets.get id = some row
  outward : row.attributes.Outward
  mission : job.IsMission id row.attributes.toRoute
  manned : row.shipfleets ≠ []

section Arrivals

variable {job : Job} (harrived : Arrived db id row job) (hplanet : job.planet? = some planet)

include harrived hplanet

theorem target_of_arrived : planet = row.attributes.targetPlanet :=
  Option.some.inj (hplanet.symm.trans harrived.mission.planet?)

theorem away_of_arrived : planet ≠ row.attributes.originPlanet :=
  target_of_arrived harrived hplanet ▸ harrived.outward.2

theorem turns_arrived (hturns : Turns w db (ofRow id row) row.shipfleets planet dbNext) : Agrees none dbNext.board :=
  turns (ofRow id row) harrived.agrees harrived.idle harrived.get harrived.manned (away_of_arrived harrived hplanet)
    harrived.mission.mission_ne hturns

theorem travels (hhome : db.relation row.attributes.user planet = .own → (db.fleets.first (Db.basedAt planet)).isSome)
    (htravels : Travels w db id row planet dbNext) : Agrees none dbNext.board := by
  cases htravels with
  | turned next hrelation hturns => exact turns_arrived harrived hplanet hturns
  | joined next hrelation hjoins => exact harrived.agrees.joins (hhome hrelation) hjoins
  | landed hrelation =>
      let there : FleetRow := ⟨(Fleet.landed db.now (ofRow id row)).toAttributes, row.shipfleets⟩
      have hput : Agrees (some id) (db.board.putFleet id there) := harrived.agrees.put harrived.get (absurd rfl)
      have hthere : (db.board.putFleet id there).fleets.get id = some there :=
        (Table.get_put there harrived.get id).trans (if_pos rfl)
      exact hput.rest harrived.idle hthere (.stationed ⟨rfl, harrived.outward.2⟩ harrived.mission.mission_ne)

theorem transports (htransports : Transports w db id row planet dbNext) : Agrees none dbNext.board := by
  cases htransports with
  | turned next hrelation hturns => exact turns_arrived harrived hplanet hturns
  | unloaded cargo middle next hrelation hboard hcargo hturns =>
      let unloaded : FleetRow := ⟨((ofRow id row).withCargo cargo).toAttributes, row.shipfleets⟩
      have hmiddle : Agrees (some id) middle.board := hboard ▸ harrived.agrees.put harrived.get (absurd rfl)
      have hidle : middle.board.jobsOf id = [] := hboard ▸ harrived.idle
      have hget : middle.board.fleets.get id = some unloaded := by
        rw [hboard]
        exact (Table.get_put unloaded harrived.get id).trans (if_pos rfl)
      exact turns ((ofRow id row).withCargo cargo) hmiddle hidle hget harrived.manned
        (away_of_arrived harrived hplanet) harrived.mission.mission_ne hturns

theorem spies {r : ℚ} {ownSpyFactor : Factor} (hspies : Spies w db id row planet r ownSpyFactor dbNext) :
    Agrees none dbNext.board := by
  cases hspies with
  | turned next hsafe hturns => exact turns_arrived harrived hplanet hturns
  | destroyed hfound => exact (harrived.agrees.destroy id).gone (Table.get_destroy_self _ id)

omit hplanet in
/-- The settler stays at the planet that it claims. -/
theorem claimed {jobs : List Enqueued} {settled : FleetRow} (hjobs : Planet.PlanetJobs jobs)
    (hroute : settled.attributes.toRoute = (Fleet.settled planet db.now (ofRow id row)).toRoute) :
    Agrees none ((claimedBoard planet db.board row.attributes.user jobs).putFleet id settled) := by
  have hclaimed : Agrees (some id) (claimedBoard planet db.board row.attributes.user jobs) := by
    refine (harrived.agrees.setOwner planet _).addJobs fun entry hentry other hfleet => ?_
    rw [hjobs entry hentry] at hfleet
    cases hfleet
  have hidle : (claimedBoard planet db.board row.attributes.user jobs).jobsOf id = [] := by
    rw [claimedBoard, jobsOf_addJobs_of_not]
    · exact harrived.idle
    · intro entry hentry
      rw [hjobs entry hentry]
      exact (Option.some_ne_none id).symm
  have hput : Agrees (some id) ((claimedBoard planet db.board row.attributes.user jobs).putFleet id settled) :=
    hclaimed.put harrived.get (absurd rfl)
  have hsettled : ((claimedBoard planet db.board row.attributes.user jobs).putFleet id settled).fleets.get id =
      some settled := (Table.get_put settled harrived.get id).trans (if_pos rfl)
  exact hput.rest hidle hsettled (.home (hroute ▸ rfl) (hroute ▸ rfl) (hroute ▸ rfl))

theorem colonizes (hcolonizes : Colonizes w db id row planet dbNext) : Agrees none dbNext.board := by
  cases hcolonizes with
  | turned next hrelation hturns => exact turns_arrived harrived hplanet hturns
  | settled cargo jobs next hrelation hjobs henough hboard =>
      rw [hboard]
      exact claimed harrived hjobs (valued_toRoute w db _ _)
  | unmanned cargo jobs next hrelation hjobs hlacks hboard =>
      rw [hboard]
      exact claimed harrived hjobs rfl

theorem attacks {draws : Draws} (hok : db.relation row.attributes.user planet = .enemy →
      (losses w draws db (ofRow id row) planet).isOk = true) (hattacks : Attacks w draws db id row planet dbNext) :
    Agrees none dbNext.board := by
  have hcleared : Agrees (some id) (db.board.setFleets (cleared db planet)) :=
    harrived.agrees.setFleets (.foldl_destroy (fun _ row _ => .refl row) _ _)
  cases hattacks with
  | turned next hrelation hturns => exact turns_arrived harrived hplanet hturns
  | raised err hrelation hlosses =>
      have hraised := hok hrelation
      rw [hlosses] at hraised
      cases hraised
  | beaten lost hrelation hfactor hlosses henough =>
      have hstruck := strike w db ((defenders db planet).zip lost) db.fleets
      have hgoesOn : Agrees (some id) (db.board.setFleets (struckTable w db ((defenders db planet).zip lost) db.fleets)) :=
        harrived.agrees.setFleets (hstruck.mono (fun _ _ _ hgoesOn _ => hgoesOn) fun _ hnone => hnone.elim)
      exact (hgoesOn.destroy id).gone (Table.get_destroy_self _ id)
  | drawn hrelation hfactor => exact (hcleared.destroy id).gone (Table.get_destroy_self _ id)
  | won lost cargo middle next hrelation hfactor hlosses henough haway hboard hturns =>
      let won : FleetRow := ⟨((winner w db id row lost).withCargo cargo).toAttributes, removed lost row.shipfleets⟩
      have hroute : ((winner w db id row lost).withCargo cargo).toRoute = row.attributes.toRoute :=
        valued_toRoute w db _ row.attributes
      have hleft : (cleared db planet).get id = some row := get_cleared harrived.get haway
      have hmiddle : Agrees (some id) middle.board := hboard ▸ hcleared.put hleft (absurd rfl)
      have hidle : middle.board.jobsOf id = [] := hboard ▸ harrived.idle
      have hget : middle.board.fleets.get id = some won := by
        rw [hboard]
        exact (Table.get_put won hleft id).trans (if_pos rfl)
      have hmanned : won.shipfleets ≠ [] := (goesOn_weakened hroute : GoesOn row won).manned harrived.manned
      refine turns ((winner w db id row lost).withCargo cargo) hmiddle hidle hget hmanned ?_ ?_ hturns
      · exact (congrArg Route.originPlanet hroute) ▸ away_of_arrived harrived hplanet
      · exact (congrArg Route.missionId hroute) ▸ harrived.mission.mission_ne
  | vanished lost next hrelation hfactor hlosses hthere hboard =>
      rw [hboard]
      refine hcleared.gone ?_
      have hmem : id ∈ db.fleets.select (Db.stationedAt planet) :=
        Table.mem_select.mpr ⟨row, harrived.get, hthere⟩
      exact (Table.get_foldl_destroy _ _ id).trans (if_pos hmem)

end Arrivals

/-! ## The queue -/

section Queue

variable {index : ℕ} {job : Job}

theorem take (hagrees : Agrees none db.board) (hready : db.ready[index]? = some job) (hfleet : job.fleet? = some id) :
    Agrees (some id) { db with ready := db.ready.eraseIdx index }.board := by
  refine hagrees.requeue rfl (fun other found hfound => ?_) (fun other hother => ?_) (List.Subset.refl _)
  · exact (jobsOf_taken hready other).mem_iff.mpr (List.mem_append_right _ hfound)
  · have hperm := jobsOf_taken hready other
    rwa [hfleet, if_neg hother, List.nil_append] at hperm

theorem schedule (hagrees : Agrees none db.board) {entry : Enqueued} (hentry : db.delayed[index]? = some entry) :
    Agrees none { db with delayed := db.delayed.eraseIdx index, ready := db.ready ++ [entry.job] }.board := by
  have hperm := fun id : FleetId => jobsOf_scheduled hentry id
  exact hagrees.requeue rfl (fun id => (hperm id).subset) (fun id _ => (hperm id).symm) List.eraseIdx_subset

/-- The only job of a fleet is taken. -/
theorem taken_of_singleton (hready : db.ready[index]? = some job) (hfleet : job.fleet? = some id) {only : Job}
    (honly : db.board.jobsOf id = [only]) :
    job = only ∧ { db with ready := db.ready.eraseIdx index }.board.jobsOf id = [] := by
  have hperm := jobsOf_taken hready id
  rw [if_pos hfleet, honly, List.singleton_append] at hperm
  exact List.cons_eq_cons.mp (List.perm_singleton.mp hperm.symm)

end Queue

end Board.Agrees

/-! ## Jobs -/

/-- A fleet that joins a home fleet finds one, and a fight does not raise. -/
def Job.Feasible (w : World) (draws : Draws) (db : Db) : Job → Prop
  | .attackPlanet fleet planet => ∀ row ∈ db.fleets.get fleet, db.relation row.attributes.user planet = .enemy →
      (losses w draws db (ofRow fleet row) planet).isOk = true
  | .travelToPlanet fleet planet => ∀ row ∈ db.fleets.get fleet, db.relation row.attributes.user planet = .own →
      (db.fleets.first (Db.basedAt planet)).isSome
  | .returnToOrigin fleet => ∀ row ∈ db.fleets.get fleet,
      (db.fleets.first (Db.basedAt row.attributes.originPlanet)).isSome
  | _ => True

instance (w : World) (draws : Draws) (db : Db) : (job : Job) → Decidable (job.Feasible w draws db)
  | .attackPlanet _ _ | .travelToPlanet _ _ | .returnToOrigin _ => by dsimp only [Job.Feasible]; infer_instance
  | .buildBuildings _ _ | .produceResources _ | .colonizePlanet _ _ | .spyPlanet _ _ _ | .transportToPlanet _ _ =>
    .isTrue True.intro

/-- A job whose fleet is gone does nothing. -/
theorem Job.perform_of_none {w : World} {draws : Draws} {db : Db} {job : Job} {action : Act Unit} {id : FleetId}
    (hperform : job.perform w draws = some action) (hfleet : job.fleet? = some id) (hget : db.fleets.get id = none) :
    after (action.run db) = db := by
  have hfind := find_of_none hget
  cases job with
  | buildBuildings planet buildingtype => cases hperform
  | produceResources planet => cases hperform
  | _ =>
      cases hperform
      obtain rfl := Option.some.inj hfleet
      rw [run_bind_of_error hfind]
      rfl

/-- The job of a fleet whose mission has come to its target. -/
theorem Job.perform_arrived {w : World} {draws : Draws} {db : Db} {job : Job} {action : Act Unit} {id : FleetId}
    {row : FleetRow} (hperform : job.perform w draws = some action)
    (hvalid : db.fleets.All fun row => Valid row.shipfleets) (harrived : Board.Agrees.Arrived db id row job)
    (hfeasible : job.Feasible w draws db) : Board.Agrees none (after (action.run db)).board := by
  have hget := harrived.get
  have hfind := find_of_some hget
  have hfleet := harrived.mission.fleet?
  cases job with
  | buildBuildings planet buildingtype => cases hperform
  | produceResources planet => cases hperform
  | attackPlanet self planet =>
      cases hperform
      obtain rfl := Option.some.inj hfleet
      rw [run_bind_of_ok hfind]
      exact .attacks harrived rfl (hfeasible row hget) (Fight.attack_attacks w draws planet hvalid hget)
  | colonizePlanet self planet =>
      cases hperform
      obtain rfl := Option.some.inj hfleet
      rw [run_bind_of_ok hfind]
      exact .colonizes harrived rfl (colonize_colonizes w hget planet)
  | travelToPlanet self planet =>
      cases hperform
      obtain rfl := Option.some.inj hfleet
      rw [run_bind_of_ok hfind]
      exact .travels harrived rfl (hfeasible row hget) (travel_travels w hget (hvalid _ row hget) planet)
  | spyPlanet self planet factor =>
      cases hperform
      obtain rfl := Option.some.inj hfleet
      rw [run_bind_of_ok hfind]
      exact .spies harrived rfl (spy_spies w hget draws.spyRate factor planet)
  | transportToPlanet self planet =>
      cases hperform
      obtain rfl := Option.some.inj hfleet
      rw [run_bind_of_ok hfind]
      exact .transports harrived rfl (transport_transports w hget planet)
  | returnToOrigin self => cases harrived.mission.planet?

/-- A ready job of a fleet is carried out. -/
theorem Job.perform_agrees {w : World} {draws : Draws} {db : Db} {index : ℕ} {job : Job} {action : Act Unit}
    (hready : db.ready[index]? = some job) (hperform : job.perform w draws = some action)
    (hvalid : db.fleets.All fun row => Valid row.shipfleets) (hagrees : Board.Agrees none db.board)
    (hfeasible : job.Feasible w draws db) :
    Board.Agrees none (after (action.run { db with ready := db.ready.eraseIdx index })).board := by
  obtain ⟨id, hfleet⟩ := Job.fleet?_of_perform hperform
  let taken : Db := { db with ready := db.ready.eraseIdx index }
  have htaken : Board.Agrees (some id) taken.board := hagrees.take hready hfleet
  cases hget : db.fleets.get id with
  | none =>
      rw [Job.perform_of_none hperform hfleet (show taken.fleets.get id = none from hget)]
      exact htaken.gone hget
  | some row =>
      have herrand := hagrees.errands id row (Option.some_ne_none _).symm hget
      have hmem : job ∈ db.board.jobsOf id :=
        List.mem_filter.mpr ⟨List.mem_append_right _ (List.mem_of_getElem? hready), decide_eq_true hfleet⟩
      generalize hjobs : db.board.jobsOf id = jobs at herrand hmem
      cases herrand with
      | home hstart hhome hmission => cases hmem
      | stationed hstationed hmission => cases hmem
      | out only houtward hjob hmanned =>
          obtain ⟨rfl, hidle⟩ := Board.Agrees.taken_of_singleton hready hfleet hjobs
          exact Job.perform_arrived hperform hvalid ⟨htaken, hidle, hget, houtward, hjob, hmanned⟩ hfeasible
      | back haway hreturning hmission =>
          obtain ⟨rfl, -⟩ := Board.Agrees.taken_of_singleton hready hfleet hjobs
          cases hperform
          have hrow : taken.fleets.get id = some row := hget
          rw [run_bind_of_ok (find_of_some hrow)]
          exact htaken.joins (hfeasible row hget) (arriveHome_joins w hrow (hvalid id row hget))

/-! ## Events -/

/-- A breakup finds the job that it removes, and a worker's job can be carried out. -/
def Event.Orderly (w : World) (db : Db) : Event → Prop
  | .breakup fleet => ∀ row ∈ db.fleets.get fleet, MayBreakUp db fleet row
  | .work index draws => ∀ job ∈ db.ready[index]?, job.Feasible w draws db
  | _ => True

instance (w : World) (db : Db) : (event : Event) → Decidable (event.Orderly w db)
  | .breakup _ | .work _ _ => by dsimp only [Event.Orderly]; infer_instance
  | .wait _ | .addShip _ _ | .check _ | .send _ | .unload _ _ | .research _ _ _ | .schedule _ => .isTrue True.intro

theorem step_agrees {w : World} {db next : Db} {event : Event} (hvalid : db.fleets.All fun row => Valid row.shipfleets)
    (hagrees : Board.Agrees none db.board) (horderly : event.Orderly w db) (hstep : step w db event = some next) :
    Board.Agrees none next.board := by
  cases event with
  | wait seconds =>
      cases hstep
      exact ⟨hagrees.known, hagrees.errands, hagrees.timely⟩
  | addShip ship planet =>
      rw [settled_eq_some hstep]
      exact hagrees.addShipToPlanet w ship planet
  | check params =>
      rw [settled_eq_some hstep]
      exact hagrees.check (check_outcome w db params)
  | send params =>
      rw [settled_eq_some hstep]
      exact hagrees.send w params
  | breakup fleet =>
      rw [settled_eq_some hstep]
      exact hagrees.breakup fleet horderly
  | unload fleet planet =>
      rw [settled_eq_some hstep]
      exact hagrees.unload fleet planet
  | research user technology factor =>
      cases hstep
      exact ⟨hagrees.known, hagrees.errands, hagrees.timely⟩
  | schedule index =>
      simp only [step] at hstep
      split at hstep
      · rename_i entry hentry
        split at hstep
        · cases hstep
          exact hagrees.schedule hentry
        · cases hstep
      · cases hstep
  | work index draws =>
      simp only [step] at hstep
      split at hstep
      · rename_i job hready
        split at hstep
        · rename_i action hperform
          rw [settled_eq_some hstep]
          exact Job.perform_agrees hready hperform hvalid hagrees (horderly job hready)
        · cases hstep
      · cases hstep

theorem Db.Fresh.jobsOf {db : Db} (hfresh : db.Fresh) (id : FleetId) : db.board.jobsOf id = [] := by
  refine List.filter_eq_nil_iff.mpr fun job hjob hfleet => ?_
  have hjobNone : job.fleet? = none := by
    rcases List.mem_append.mp hjob with hdelayed | hready
    · obtain ⟨entry, hentry, rfl⟩ := List.mem_map.mp hdelayed
      exact hfresh.delayed entry hentry
    · exact hfresh.ready job hready
  exact Option.some_ne_none id ((of_decide_eq_true hfleet).symm.trans hjobNone)

theorem Db.Fresh.agrees {db : Db} (hfresh : db.Fresh) : Board.Agrees none db.board := by
  have hnone : ∀ id row, db.board.fleets.get id ≠ some row := fun id row hget =>
    Option.some_ne_none row ((hget.symm.trans (hfresh.get id)))
  exact ⟨fun id _ => hfresh.jobsOf id, fun id row _ hget => absurd hget (hnone id row),
    fun _ _ id row _ _ hget => absurd hget (hnone id row)⟩

/-! ## Runs -/

/-- The jobs of a fleet that are still to run. -/
def Db.jobsOf (db : Db) (id : FleetId) : List Job := db.jobs.filter fun job => job.fleet? = some id

/-- A flying fleet has one pending job, for its return or for its mission, at the time that it arrives, and a
stationed fleet has none. -/
structure Db.FleetsHaveJobs (db : Db) : Prop where
  flying : ∀ id row, db.fleets.get id = some row → row.attributes.startPlanet ≠ row.attributes.targetPlanet →
    ∃ job, db.jobsOf id = [job] ∧
      (if row.attributes.targetPlanet = row.attributes.originPlanet then job = .returnToOrigin id
        else job.IsMission id row.attributes.toRoute) ∧
      ∀ entry ∈ db.delayed, entry.job = job → entry.timestamp = row.attributes.arrivalTime
  stationed : ∀ id row, db.fleets.get id = some row → row.attributes.startPlanet = row.attributes.targetPlanet →
    db.jobsOf id = []

theorem Board.Agrees.fleetsHaveJobs {db : Db} (hagrees : Board.Agrees none db.board) : db.FleetsHaveJobs where
  flying id row hget hflies := by
    have herrand := hagrees.errands id row (Option.some_ne_none _).symm hget
    have htimely : ∀ job : Job, job.fleet? = some id → ∀ entry ∈ db.delayed, entry.job = job →
        entry.timestamp = row.attributes.arrivalTime := by
      rintro job hfleet entry hentry rfl
      exact hagrees.timely entry hentry id row (Option.some_ne_none _).symm hfleet hget
    generalize hjobs : db.board.jobsOf id = jobs at herrand
    cases herrand with
    | home hstart hhome hmission => exact absurd (hstart.trans hhome.symm) hflies
    | stationed hstationed hmission => exact absurd hstationed.1 hflies
    | out job houtward hjob hmanned =>
        exact ⟨job, hjobs, (if_neg houtward.2).mpr hjob, htimely job hjob.fleet?⟩
    | back haway hreturning hmission =>
        exact ⟨.returnToOrigin id, hjobs, (if_pos (show _ = _ from hreturning)).mpr rfl, htimely _ rfl⟩
  stationed id row hget hthere := by
    have herrand := hagrees.errands id row (Option.some_ne_none _).symm hget
    generalize hjobs : db.board.jobsOf id = jobs at herrand
    cases herrand with
    | home hstart hhome hmission => exact hjobs
    | stationed hstationed hmission => exact hjobs
    | out job houtward hjob hmanned => exact absurd hthere fun heq => houtward.2 (heq.symm.trans houtward.1)
    | back haway hreturning hmission => exact absurd (hthere.trans hreturning) haway

/-- In every state of an orderly run flying fleets have one job each, and stationed fleets none. -/
theorem fleets_have_jobs (w : World) {start db : Db} (hfresh : start.Fresh) {events : List Event}
    (horderly : Along (step w) (fun db event => event.Orderly w db) start events)
    (hrun : run (step w) start events = some db) : db.FleetsHaveJobs := by
  refine Board.Agrees.fleetsHaveJobs (run_keeps
    (fun db : Db => (db.fleets.All fun row => Valid row.shipfleets) ∧ Board.Agrees none db.board) ?_
    ⟨hfresh.all _, hfresh.agrees⟩ horderly hrun).2
  intro db event next hinv hgood hstep
  exact ⟨step_valid hinv.1 hstep, step_agrees hinv.1 hinv.2 hgood hstep⟩

/-- A spy drone looks at planet 11. -/
def spying : Params where
  fleet := 1
  mission := 5
  planet := some 11
  ship ship := if ship = 7 then some 1 else none

/-- One drone is called back before anything is learned, and another one comes home by itself. -/
def spies : List Event :=
  [.addShip 7 1, .addShip 7 1, .addShip 7 1, .send spying, .breakup 3, .wait 100000, .schedule 0, .work 0 {},
    .send spying, .wait 100000, .schedule 0, .work 0 {}]

def spiesDb : Db := (run (step Seeds.world) Seeds.start spies).get (by decide +kernel)

theorem fleets_have_jobs_spies : spiesDb.fleets.nextId = 6 ∧ spiesDb.FleetsHaveJobs :=
  ⟨by decide +kernel, fleets_have_jobs Seeds.world Seeds.start_fresh (by decide +kernel) (Option.some_get _).symm⟩

/-- A drone is called back after its user has learned to spy better. -/
def learned : List Event :=
  [.addShip 7 1, .addShip 7 1, .send spying, .research 1 .increasedSpypower ⟨21 / 20, by norm_num⟩, .breakup 3]

def learnedDb : Db := (run (step Seeds.world) Seeds.start learned).get (by decide +kernel)

/-- The drone has a job for its mission and one for its return. -/
theorem drone_has_two_jobs :
    ¬∀ (w : World) (start db : Db) (events : List Event), start.Fresh → run (step w) start events = some db →
      db.FleetsHaveJobs := by
  intro hall
  have htwo : (learnedDb.fleets.get 3).any (fun row =>
      row.attributes.startPlanet ≠ row.attributes.targetPlanet ∧ (learnedDb.jobsOf 3).length = 2) = true := by
    decide +kernel
  obtain ⟨row, hget, htwo⟩ := (Option.any_eq_true _ _).mp htwo
  obtain ⟨hflies, htwo⟩ := of_decide_eq_true htwo
  have hjobs := hall Seeds.world Seeds.start learnedDb learned Seeds.start_fresh (Option.some_get _).symm
  obtain ⟨job, hone, -⟩ := hjobs.flying 3 row hget hflies
  rw [hone, List.length_singleton] at htwo
  exact absurd htwo (by decide)

end Mmog
