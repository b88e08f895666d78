import Mmog.Missions.Errands

/-!
# Home fleets that stay

A fleet has at most one job that is not its return, and a home fleet has none.
So a home fleet stays where it is until it is beaten, and a planet that has one
keeps it while other fleets come and go.
-/

namespace Mmog

open Ruby Action Fleet MissionsController Fight

/-! ## Missions -/

/-- The mission that a job carries out. -/
def Job.mission? : Job → Option MissionId
  | .colonizePlanet _ _ => some 2
  | .attackPlanet _ _ => some 3
  | .travelToPlanet _ _ => some 4
  | .spyPlanet _ _ _ => some 5
  | .transportToPlanet _ _ => some 6
  | _ => none

theorem Job.mission?_ne_one (job : Job) : job.mission? ≠ some 1 := by
  cases job <;> simp [Job.mission?]

theorem Job.mission?_of_fleet? {job : Job} (hnone : job.fleet? = none) : job.mission? = none := by
  cases job with
  | buildBuildings planet buildingtype => rfl
  | produceResources planet => rfl
  | _ => cases hnone

theorem Fleet.missionJob_mission? {self : Fleet} (hstarts : Starts self.missionId) (spypower : Factor) :
    (self.missionJob spypower).mission? = some self.missionId := by
  rcases starts_iff.mp hstarts with heq | heq | heq | heq | heq <;> simp [missionJob, Job.mission?, heq]

namespace Board

/-- The jobs of a fleet for its mission. -/
def missionsOf (board : Board) (id : FleetId) : List Job := (board.jobsOf id).filter fun job => job.mission?.isSome

theorem missionsOf_subset (board : Board) (id : FleetId) : board.missionsOf id ⊆ board.jobsOf id :=
  List.filter_subset_self _

theorem missionsOf_addJobs (board : Board) {jobs : List Enqueued} {id : FleetId}
    (hjobs : ∀ entry ∈ jobs, entry.job.fleet? = some id → entry.job.mission? = none) :
    (board.addJobs jobs).missionsOf id = board.missionsOf id := by
  have hnone : ((jobs.map Enqueued.job).filter (fun job => job.fleet? = some id)).filter
      (fun job => job.mission?.isSome) = [] := by
    rw [List.filter_eq_nil_iff]
    intro job hjob hsome
    obtain ⟨hmem, hfleet⟩ := List.mem_filter.mp hjob
    obtain ⟨entry, hentry, rfl⟩ := List.mem_map.mp hmem
    rw [hjobs entry hentry (of_decide_eq_true hfleet)] at hsome
    cases hsome
  rw [missionsOf, missionsOf, jobsOf_eq, jobsOf_eq, addJobs, List.map_append, List.filter_append, List.filter_append,
    List.filter_append, List.filter_append, hnone, List.append_nil]

theorem missionsOf_addJobs_of_idle {board : Board} {id : FleetId} (hidle : board.missionsOf id = []) (timestamp : ℤ)
    {job : Job} (hfleet : job.fleet? = some id) (hmission : job.mission?.isSome = true) :
    (board.addJobs [⟨timestamp, job⟩]).missionsOf id = [job] := by
  rw [missionsOf, jobsOf_eq, List.filter_append, List.append_eq_nil_iff] at hidle
  rw [missionsOf, jobsOf_eq, addJobs, List.map_append, List.filter_append, List.filter_append, List.filter_append, hidle.1,
    hidle.2, List.nil_append, List.append_nil]
  have hkept : [job].filter (fun job => job.fleet? = some id) = [job] := List.filter_cons_of_pos (decide_eq_true hfleet)
  rw [List.map_singleton, hkept]
  exact List.filter_cons_of_pos hmission

theorem missionsOf_removeDelayed (board : Board) (job : Job) (id : FleetId) :
    ((board.removeDelayed job).missionsOf id).Sublist (board.missionsOf id) := by
  refine List.Sublist.filter _ (List.Sublist.filter _ (List.Sublist.append ?_ (List.Sublist.refl _)))
  exact List.Sublist.map _ List.filter_sublist

end Board

/-! ## Rows -/

/-- A row that keeps its mission, and its place if it is a home fleet. -/
structure Stays (row new : FleetRow) : Prop where
  mission : new.attributes.missionId = row.attributes.missionId
  home : row.attributes.missionId = 1 → new.attributes.toRoute = row.attributes.toRoute

theorem Stays.of_route {row new : FleetRow} (hroute : new.attributes.toRoute = row.attributes.toRoute) : Stays row new :=
  ⟨congrArg Route.missionId hroute, fun _ => hroute⟩

theorem Stays.of_away {row new : FleetRow} (hmission : new.attributes.missionId = row.attributes.missionId)
    (haway : row.attributes.missionId ≠ 1) : Stays row new :=
  ⟨hmission, fun hhome => absurd hhome haway⟩

theorem Stays.trans {row mid new : FleetRow} (hfirst : Stays row mid) (hsecond : Stays mid new) : Stays row new :=
  ⟨hsecond.mission.trans hfirst.mission,
    fun hhome => (hsecond.home (hfirst.mission.trans hhome)).trans (hfirst.home hhome)⟩

theorem Db.basedAt_of_away {row : FleetRow} (haway : row.attributes.missionId ≠ 1) (p : PlanetId) :
    Db.basedAt p row = false :=
  decide_eq_false fun hbased => haway hbased.1

theorem Stays.basedAt {row new : FleetRow} (hstays : Stays row new) {p : PlanetId} (hbased : Db.basedAt p row = true) :
    Db.basedAt p new = true := by
  obtain ⟨hmission, horigin⟩ := of_decide_eq_true hbased
  have hroute := hstays.home hmission
  exact decide_eq_true ⟨hstays.mission.trans hmission, (congrArg Route.originPlanet hroute).trans horigin⟩

/-- Fleets stay or are gone, new ones are home fleets, and the planets that are hosts keep their home fleets. -/
structure FleetsStay (hosts : PlanetId → Prop) (t u : Table FleetRow) : Prop where
  rows : Table.Descends (fun _ => Stays) BasedRow t u
  hosts : ∀ p, hosts p → Table.Keeps (Db.basedAt p) t u

namespace FleetsStay

variable {hosts : PlanetId → Prop} {id : FleetId} {row new : FleetRow} {t u v : Table FleetRow}

theorem stays_refl (_ : FleetId) (row : FleetRow) : Stays row row := .of_route rfl

variable (hosts) in
theorem refl (t : Table FleetRow) : FleetsStay hosts t t :=
  ⟨.refl stays_refl t, fun _ _ => .refl t⟩

theorem BasedRow.stays {row new : FleetRow} (hrow : BasedRow row) (hstays : Stays row new) : BasedRow new := by
  have hroute := hstays.home hrow.mission
  exact ⟨hroute ▸ hrow.start, hroute ▸ hrow.home, hroute ▸ hrow.mission⟩

theorem trans (hfirst : FleetsStay hosts t u) (hsecond : FleetsStay hosts u v) : FleetsStay hosts t v where
  rows := .trans (fun _ _ _ _ => Stays.trans) (fun _ _ _ => BasedRow.stays) hfirst.rows hsecond.rows
  hosts p hp := (hfirst.hosts p hp).trans (hsecond.hosts p hp)

theorem put (hget : t.get id = some row) (hnew : Stays row new) : FleetsStay hosts t (t.put id new) :=
  ⟨.put stays_refl hget hnew, fun _ _ => .put hget hnew.basedAt⟩

theorem create (t : Table FleetRow) (hnew : BasedRow new) : FleetsStay hosts t (t.create new) :=
  ⟨.create stays_refl t hnew, fun _ _ => .create t new⟩

theorem skip (t : Table FleetRow) : FleetsStay hosts t t.skip :=
  ⟨.skip stays_refl t, fun _ _ => .skip t⟩

theorem destroy (haway : ∀ row, t.get id = some row → row.attributes.missionId ≠ 1) :
    FleetsStay hosts t (t.destroy id) :=
  ⟨.destroy stays_refl t id, fun p _ => .destroy fun row hget => Db.basedAt_of_away (haway row hget) p⟩

/-- Fleets that lose ships stay. -/
theorem strike (w : World) (db : Db) (losses : List (Fleet × Hash ShipId ℤ)) (t : Table FleetRow) :
    FleetsStay hosts t (struckTable w db losses t) := by
  induction losses generalizing t with
  | nil => exact .refl hosts t
  | cons loss losses ih =>
      have hstays : ∀ row, Stays row (struckRow w db loss.2 row) := fun row =>
        .of_route (valued_toRoute w db _ row.attributes)
      have hstruck : FleetsStay hosts t (t.modify loss.1.id (struckRow w db loss.2)) :=
        ⟨.modify stays_refl t fun row _ => hstays row, fun _ _ => .modify fun row _ => (hstays row).basedAt⟩
      exact hstruck.trans (ih _)

end FleetsStay

/-- The attacker wins or draws, and nobody who is stationed on the planet is left. -/
def Fight.Clears (w : World) (draws : Draws) (db : Db) (self : Fleet) (planet : PlanetId) : Prop :=
  db.relation self.user planet = .enemy ∧ 0 ≤ fightFactor db self planet ∧ (losses w draws db self planet).isOk = true

instance (w : World) (draws : Draws) (db : Db) (self : Fleet) (planet : PlanetId) :
    Decidable (Fight.Clears w draws db self planet) := inferInstanceAs (Decidable (_ ∧ _ ∧ _))

/-! ## Boards -/

namespace Board

/-- No fleet has more than the job of its mission, home fleets are at home, and the hosts have home fleets. -/
structure Houses (hosts : PlanetId → Prop) (board : Board) : Prop where
  based : board.fleets.All fun row => row.attributes.missionId = 1 → BasedRow row
  assigned : ∀ id, ∀ job ∈ board.missionsOf id, id < board.fleets.nextId ∧
    ∀ row, board.fleets.get id = some row → job.mission? = some row.attributes.missionId
  once : ∀ id, (board.missionsOf id).length ≤ 1
  hosts : ∀ p, hosts p → (board.fleets.first (Db.basedAt p)).isSome = true

namespace Houses

variable {hosts : PlanetId → Prop} {board : Board} {id : FleetId} {row : FleetRow} {t : Table FleetRow}

/-- Fewer hosts are to be kept. -/
theorem mono (hhouses : Houses hosts board) {fewer : PlanetId → Prop} (hfewer : ∀ p, fewer p → hosts p) :
    Houses fewer board :=
  ⟨hhouses.based, hhouses.assigned, hhouses.once, fun p hp => hhouses.hosts p (hfewer p hp)⟩

/-- One more host. -/
theorem insert (hhouses : Houses hosts board) {planet : PlanetId}
    (hplanet : (board.fleets.first (Db.basedAt planet)).isSome = true) :
    Houses (fun p => hosts p ∨ p = planet) board :=
  ⟨hhouses.based, hhouses.assigned, hhouses.once, fun p hp => hp.elim (hhouses.hosts p) fun heq => heq ▸ hplanet⟩

theorem setFleets (hhouses : Houses hosts board) (hfleets : FleetsStay hosts board.fleets t) :
    Houses hosts (board.setFleets t) where
  based := hfleets.rows.all hhouses.based
    (fun _ _ _ _ hbased hstays hmission => FleetsStay.BasedRow.stays (hbased (hstays.mission.symm.trans hmission)) hstays)
    fun _ hbased _ => hbased
  assigned id job hjob := by
    obtain ⟨hid, hmission⟩ := hhouses.assigned id job hjob
    refine ⟨hid.trans_le hfleets.rows.nextId_le, fun new hget => ?_⟩
    obtain ⟨row, hrow, hstays⟩ := hfleets.rows.old hget hid
    rw [hstays.mission]
    exact hmission row hrow
  once := hhouses.once
  hosts p hp := hfleets.hosts p hp (hhouses.hosts p hp)

theorem setOwner (hhouses : Houses hosts board) (p : PlanetId) (user : Option UserId) :
    Houses hosts (board.setOwner p user) :=
  ⟨hhouses.based, hhouses.assigned, hhouses.once, hhouses.hosts⟩

theorem setEnergy (hhouses : Houses hosts board) (p : PlanetId) (energy : ℤ) :
    Houses hosts (board.setEnergy p energy) :=
  ⟨hhouses.based, hhouses.assigned, hhouses.once, hhouses.hosts⟩

/-- Fleets get no new missions. -/
theorem requeue (hhouses : Houses hosts board) {next : Board} (hfleets : next.fleets = board.fleets)
    (hfewer : ∀ id, (next.missionsOf id).Subperm (board.missionsOf id)) : Houses hosts next where
  based := hfleets ▸ hhouses.based
  assigned id job hjob := hfleets ▸ hhouses.assigned id job ((hfewer id).subset hjob)
  once id := (hfewer id).length_le.trans (hhouses.once id)
  hosts := hfleets ▸ hhouses.hosts

theorem addJobs (hhouses : Houses hosts board) {jobs : List Enqueued}
    (hjobs : ∀ entry ∈ jobs, entry.job.mission? = none) : Houses hosts (board.addJobs jobs) := by
  refine hhouses.requeue rfl fun id => ?_
  rw [missionsOf_addJobs board fun entry hentry _ => hjobs entry hentry]

theorem removeDelayed (hhouses : Houses hosts board) (job : Job) : Houses hosts (board.removeDelayed job) :=
  hhouses.requeue rfl fun id => (missionsOf_removeDelayed board job id).subperm

/-- A fleet with a mission is not at home. -/
theorem away (hhouses : Houses hosts board) {job : Job} (hjob : job ∈ board.missionsOf id)
    (hget : board.fleets.get id = some row) : row.attributes.missionId ≠ 1 := fun hmission =>
  job.mission?_ne_one (hmission ▸ (hhouses.assigned id job hjob).2 row hget)

/-! ### Fleets -/

variable {w : World} {db dbNext : Db} {planet : PlanetId}

/-- A fleet that is not at home turns back. -/
theorem turns (self : Fleet) (hhouses : Houses hosts db.board) (hget : db.fleets.get self.id = some row)
    (hmission : self.missionId = row.attributes.missionId) (haway : row.attributes.missionId ≠ 1)
    (hturns : Turns w db self row.shipfleets planet dbNext) : Houses hosts dbNext.board := by
  cases hturns with
  | stuck hrows => exact hhouses
  | turned velocity dbNext hrows hboard =>
      rw [hboard]
      refine (hhouses.setFleets (.put hget (.of_away hmission haway))).addJobs fun entry hentry => ?_
      rw [List.mem_singleton.mp hentry]
      rfl

/-- A fleet that is not at home joins a home fleet. -/
theorem joins (hhouses : Houses hosts db.board) (hget : db.fleets.get id = some row) (haway : row.attributes.missionId ≠ 1)
    (hjoins : Joins w db planet id row dbNext) : Houses hosts dbNext.board := by
  cases hjoins with
  | homeless hfirst => exact hhouses
  | itself hfirst =>
      obtain ⟨found, hfound, hbased⟩ := Table.first_eq_some hfirst
      obtain rfl := Option.some.inj (hget.symm.trans hfound)
      exact absurd (of_decide_eq_true hbased).1 haway
  | joined home homeRow hfirst hhome hne =>
      have hroute : (merged w db homeRow.shipfleets row.shipfleets (ofRow home homeRow) (ofRow id row)).toRoute =
          homeRow.attributes.toRoute := valued_toRoute w db _ _
      have hother : ∀ new, (db.fleets.put home new).get id = some row := fun new =>
        (Table.get_put new hhome id).trans ((if_neg hne.symm).trans hget)
      refine hhouses.setFleets (.trans (.put hhome (.of_route hroute)) (.destroy fun found hfound => ?_))
      exact Option.some.inj ((hother _).symm.trans hfound) ▸ haway

/-! ### Requests -/

variable (w) in
theorem split (self : Fleet) (user : UserId) (shipHash : Hash ShipId ℤ) (hget : db.fleets.get self.id = some row)
    (hself : self.toAttributes = row.attributes) :
    FleetsStay hosts db.fleets (splitTable w db shipHash user row.shipfleets self) := by
  have hroute : (staying w db shipHash row.shipfleets self).toRoute = row.attributes.toRoute :=
    (staying_toRoute w db shipHash row.shipfleets self).trans (congrArg Attributes.toRoute hself)
  have hnew := leaving_toRoute w db shipHash user self
  exact .trans (.put hget (.of_route hroute)) (.create _ ⟨hnew ▸ rfl, hnew ▸ rfl, hnew ▸ rfl⟩)

variable (w) in
theorem checkedDb (hhouses : Houses hosts db.board) {params : Params} {user : UserId}
    (hget : db.fleets.get params.fleet = some row) : Houses hosts (checkedDb w db params row user).board :=
  hhouses.setFleets (.trans (.put hget (.of_route (checkedRow_toRoute w db params row user))) (.skip _))

theorem check (hhouses : Houses hosts db.board) {params : Params} {result : EStateM.Result Err Db (List String)}
    (hcheck : CheckOutcome w db params result) : Houses hosts (after result).board := by
  cases hcheck with
  | missing hget => exact hhouses
  | early row fehler hget hfehler hearly => exact hhouses
  | unowned row hget hships henough howner =>
      exact hhouses.setFleets (.put hget (.of_route (valued_toRoute w db _ row.attributes)))
  | leftSplit row user hget hships henough howner hfails =>
      exact hhouses.setFleets (split w (ofRow params.fleet row) user (params.shipHash w) hget rfl)
  | undone row user hget hships henough howner hfails => exact hhouses.checkedDb w hget

/-- A new fleet sets off, with the job for its mission. -/
theorem depart (hhouses : Houses hosts board) (hstay : FleetsStay hosts board.fleets t)
    (hnext : t.nextId = board.fleets.nextId) {new : FleetRow} (haway : new.attributes.missionId ≠ 1) {job : Job}
    (hjob : job.mission? = some new.attributes.missionId) (hfleet : job.fleet? = some board.fleets.nextId)
    (timestamp : ℤ) : Houses hosts ((board.setFleets (t.create new)).addJobs [⟨timestamp, job⟩]) := by
  have hold : Houses hosts (board.setFleets t) := hhouses.setFleets hstay
  have hidle : board.missionsOf board.fleets.nextId = [] :=
    List.eq_nil_iff_forall_not_mem.mpr fun found hfound => (hhouses.assigned _ found hfound).1.ne rfl
  have hnew : ((board.setFleets (t.create new)).addJobs [⟨timestamp, job⟩]).missionsOf board.fleets.nextId = [job] :=
    missionsOf_addJobs_of_idle hidle timestamp hfleet (hjob ▸ rfl)
  have hothers : ∀ id, id ≠ board.fleets.nextId →
      ((board.setFleets (t.create new)).addJobs [⟨timestamp, job⟩]).missionsOf id = board.missionsOf id := by
    intro id hid
    refine missionsOf_addJobs _ fun entry hentry hsame => ?_
    rw [List.mem_singleton.mp hentry] at hsame
    exact absurd (Option.some.inj (hsame.symm.trans hfleet)) hid
  constructor
  · intro id row hget hmission
    have hrow := (Table.get_create t new id).symm.trans hget
    split at hrow
    · exact absurd (Option.some.inj hrow ▸ hmission) haway
    · exact hold.based id row hrow hmission
  · intro id found hfound
    have hget : ((board.setFleets (t.create new)).addJobs [⟨timestamp, job⟩]).fleets.get id = _ :=
      Table.get_create t new id
    by_cases hid : id = board.fleets.nextId
    · subst hid
      rw [hnew, List.mem_singleton] at hfound
      rw [if_pos hnext.symm] at hget
      refine ⟨(Table.nextId_create t new).symm ▸ hnext ▸ Nat.lt_succ_self _, fun row hrow => ?_⟩
      rw [hfound, hjob, Option.some.inj (hget.symm.trans hrow)]
    · rw [hothers id hid] at hfound
      rw [if_neg fun heq => hid (heq.trans hnext)] at hget
      obtain ⟨hlt, hmission⟩ := hold.assigned id found hfound
      refine ⟨(Table.nextId_create t new).symm ▸ hlt.trans (Nat.lt_succ_self _), fun row hrow => ?_⟩
      exact hmission row (hget.symm.trans hrow)
  · intro id
    by_cases hid : id = board.fleets.nextId
    · rw [hid, hnew, List.length_singleton]
    · rw [hothers id hid]
      exact hhouses.once id
  · exact fun p hp => (hstay.hosts p hp).trans (.create t new) (hhouses.hosts p hp)

/-- The new fleet of a move sets off with its job. -/
theorem move (hhouses : Houses hosts db.board) {mission : MissionId} {destination : PlanetId} {shipHash : Hash ShipId ℤ}
    {ore crystal credit : ℤ} (hget : db.fleets.get id = some row)
    (hmove : MoveOutcome w db (ofRow id row) row mission destination shipHash ore crystal credit (.ok ⟨⟩ dbNext)) :
    Houses hosts dbNext.board := by
  cases hmove with
  | left user time energy cargo next hhome henough howner hfails hships hneeds hpaid hready hboard hcargo hstocked =>
      let fleet := (mover w db (ofRow id row) row destination shipHash user time).sent mission cargo
      let sent : FleetRow := ⟨fleet.toAttributes, added shipHash []⟩
      let stayed := db.fleets.put id
        ⟨(staying w db shipHash row.shipfleets (ofRow id row)).toAttributes, removed shipHash row.shipfleets⟩
      have hroute : (staying w db shipHash row.shipfleets (ofRow id row)).toRoute = row.attributes.toRoute :=
        staying_toRoute w db shipHash row.shipfleets (ofRow id row)
      have hstay : FleetsStay hosts db.fleets stayed := .put hget (.of_route hroute)
      have hstarts : Starts fleet.missionId := hpaid.1
      have haway : sent.attributes.missionId ≠ 1 := fun heq => absurd (heq ▸ hstarts.1) (by decide)
      have hleft := hhouses.depart hstay rfl haway
        (missionJob_mission? hstarts (db.users fleet.user).userSetting.increasedSpypower)
        (missionJob_fleet? fleet _) fleet.arrivalTime
      rw [hboard]
      exact hleft.requeue (Table.put_create_self _ _ _) fun _ => .refl _

variable (w) in
theorem send (hhouses : Houses hosts db.board) (params : Params) :
    Houses hosts (after ((sendFleet w params).run db)).board := by
  have hsend := send_outcome w db params
  generalize (sendFleet w params).run db = result at hsend
  cases hsend with
  | raised err next hrun hcheck => exact hhouses.check hcheck
  | complained fehler next hrun hcheck hfehler => exact hhouses.check hcheck
  | away row user message hpassed haway => exact hhouses.checkedDb w hpassed.get
  | based row user err hpassed hhome hmission =>
      exact (hhouses.checkedDb w hpassed.get).checkedDb w (get_checkedDb w user hpassed.get)
  | left row user planet next hpassed hhome hmission hplanet hmove =>
      exact (hhouses.checkedDb w hpassed.get).move (get_checkedDb w user hpassed.get) hmove

theorem breakup (hhouses : Houses hosts db.board) (id : FleetId) :
    Houses hosts (after ((FleetsController.breakup id).run db)).board := by
  have hbreaks := breakup_breaksUp db id
  generalize after ((FleetsController.breakup id).run db) = next at hbreaks
  cases hbreaks with
  | missing hget => exact hhouses
  | based row hget hmission => exact hhouses
  | back row next hget hmission hboard =>
      let job := (ofRow id row).missionJob (db.users row.attributes.user).userSetting.increasedSpypower
      have hremoved : Houses hosts (db.board.removeDelayed job) := hhouses.removeDelayed job
      have hback : Stays row ⟨(brokenUp db.now (ofRow id row)).toAttributes, row.shipfleets⟩ := .of_away rfl hmission
      rw [hboard]
      refine (hremoved.setFleets (.put hget hback)).addJobs fun entry hentry => ?_
      rw [List.mem_singleton.mp hentry]
      rfl

theorem unload (hhouses : Houses hosts db.board) (id : FleetId) (planet : PlanetId) :
    Houses hosts (after ((FleetsController.unload id planet).run db)).board := by
  cases hget : db.fleets.get id with
  | none =>
      rw [FleetsController.unload, run_bind_of_error (find_of_none hget)]
      exact hhouses
  | some row =>
      rw [FleetsController.unload, run_bind_of_ok (find_of_some hget)]
      split
      · obtain ⟨cargo, next, hunload, hboard, -, -⟩ :=
          unloadRessources_board (show db.fleets.get (ofRow id row).id = some row from hget) planet
        rw [run_bind_of_ok hunload]
        refine (congrArg (Houses hosts) hboard).mpr ?_
        exact hhouses.setFleets (.put hget (.of_route rfl))
      · exact hhouses

variable (w) in
/-- An owned planet that gets a ship is a host. -/
theorem addShipToPlanet (hhouses : Houses hosts db.board) (ship : ShipId) (planet : PlanetId) :
    Houses (fun p => hosts p ∨ p = planet ∧ (db.planets planet).user.isSome = true)
      (after ((Fleet.addShipToPlanet w ship planet).run db)).board := by
  cases hfirst : db.fleets.first (Db.basedAt planet) with
  | some home =>
      obtain ⟨homeRow, hhome, -⟩ := Table.first_eq_some hfirst
      have hhost : (db.fleets.first (Db.basedAt planet)).isSome = true := hfirst ▸ rfl
      have hhosts : Houses (fun p => hosts p ∨ p = planet ∧ (db.planets planet).user.isSome = true) db.board :=
        (hhouses.insert hhost).mono fun p hp => hp.imp_right And.left
      rw [addShipToPlanet_home w hfirst hhome]
      exact hhosts.setFleets (.put hhome (.of_route (valued_toRoute w db _ homeRow.attributes)))
  | none =>
      cases howner : (db.planets planet).user with
      | some user =>
          let new : FleetRow :=
            ⟨valued w db (added (.single ship 1) []) (newAttributes db planet user), added (.single ship 1) []⟩
          have hroute : new.attributes.toRoute = (newAttributes db planet user).toRoute := valued_toRoute w db _ _
          have hnew : BasedRow new := ⟨hroute ▸ rfl, hroute ▸ rfl, hroute ▸ rfl⟩
          rw [addShipToPlanet_new w hfirst howner]
          have hcreated : Houses hosts (db.setFleets (db.fleets.create new)).board :=
            hhouses.setFleets (.create _ hnew)
          refine (hcreated.insert (Table.isSome_first.mpr ⟨db.fleets.nextId, new, ?_, ?_⟩)).mono
            fun p hp => hp.imp_right And.left
          · exact (Table.get_create _ _ _).trans (if_pos rfl)
          · exact decide_eq_true ⟨hnew.mission, hroute ▸ rfl⟩
      | none =>
          rw [addShipToPlanet_nobody w hfirst howner]
          exact hhouses.mono fun p hp => hp.resolve_right fun howned => Bool.false_ne_true howned.2

/-! ### Arrivals -/

section Arrivals

variable (hhouses : Houses hosts db.board) (hget : db.fleets.get id = some row) (haway : row.attributes.missionId ≠ 1)

include hhouses hget haway

theorem travels (htravels : Travels w db id row planet dbNext) : Houses hosts dbNext.board := by
  cases htravels with
  | turned next hrelation hturns => exact turns (ofRow id row) hhouses hget rfl haway hturns
  | joined next hrelation hjoins => exact hhouses.joins hget haway hjoins
  | landed hrelation => exact hhouses.setFleets (.put hget (.of_away rfl haway))

theorem transports (htransports : Transports w db id row planet dbNext) : Houses hosts dbNext.board := by
  cases htransports with
  | turned next hrelation hturns => exact turns (ofRow id row) hhouses hget rfl haway hturns
  | unloaded cargo middle next hrelation hboard hcargo hturns =>
      let unloaded : FleetRow := ⟨((ofRow id row).withCargo cargo).toAttributes, row.shipfleets⟩
      have hmiddle : Houses hosts middle.board := by
        rw [hboard]
        exact hhouses.setFleets (.put hget (.of_route rfl))
      have hunloaded : middle.fleets.get id = some unloaded := by
        rw [show middle.fleets = middle.board.fleets from rfl, hboard]
        exact (Table.get_put unloaded hget id).trans (if_pos rfl)
      exact turns ((ofRow id row).withCargo cargo) hmiddle hunloaded rfl haway hturns

theorem destroyed : Houses hosts (db.setFleets (db.fleets.destroy id)).board :=
  hhouses.setFleets (.destroy fun _ hfound => Option.some.inj (hget.symm.trans hfound) ▸ haway)

theorem spies {r : ℚ} {ownSpyFactor : Factor} (hspies : Spies w db id row planet r ownSpyFactor dbNext) :
    Houses hosts dbNext.board := by
  cases hspies with
  | turned next hsafe hturns => exact turns (ofRow id row) hhouses hget rfl haway hturns
  | destroyed hfound => exact destroyed hhouses hget haway

/-- The settler makes the planet it claims a host. -/
theorem claimed (hidle : db.board.missionsOf id = []) {jobs : List Enqueued} {settled : FleetRow}
    (hjobs : Planet.PlanetJobs jobs)
    (hroute : settled.attributes.toRoute = (Fleet.settled planet db.now (ofRow id row)).toRoute) :
    Houses (fun p => hosts p ∨ p = planet)
      ((claimedBoard planet db.board row.attributes.user jobs).putFleet id settled) := by
  have hbased : BasedRow settled := ⟨hroute ▸ rfl, hroute ▸ rfl, hroute ▸ rfl⟩
  have hput : ∀ other, ((claimedBoard planet db.board row.attributes.user jobs).putFleet id settled).fleets.get other =
      if other = id then some settled else db.fleets.get other := Table.get_put settled hget
  have hmissions : ∀ other, ((claimedBoard planet db.board row.attributes.user jobs).putFleet id settled).missionsOf other =
      db.board.missionsOf other := fun other =>
    missionsOf_addJobs (db.board.setOwner planet (some row.attributes.user)) fun entry hentry _ =>
      Job.mission?_of_fleet? (hjobs entry hentry)
  constructor
  · intro other found hfound hmission
    rw [hput] at hfound
    split at hfound
    · exact Option.some.inj hfound ▸ hbased
    · exact hhouses.based other found hfound hmission
  · intro other job hjob
    rw [hmissions] at hjob
    have hne : other ≠ id := by
      rintro rfl
      rw [hidle] at hjob
      cases hjob
    obtain ⟨hlt, hmission⟩ := hhouses.assigned other job hjob
    refine ⟨hlt, fun found hfound => hmission found ?_⟩
    rwa [hput, if_neg hne] at hfound
  · intro other
    rw [hmissions]
    exact hhouses.once other
  · rintro p (hp | rfl)
    · have hkept : Table.Keeps (Db.basedAt p) db.fleets (db.fleets.put id settled) :=
        .put hget fun hrow => absurd ((Db.basedAt_of_away haway p).symm.trans hrow) Bool.false_ne_true
      exact hkept (hhouses.hosts p hp)
    · exact Table.isSome_first.mpr ⟨id, settled, (hput id).trans (if_pos rfl),
        decide_eq_true ⟨hbased.mission, hroute ▸ rfl⟩⟩

theorem colonizes (hidle : db.board.missionsOf id = []) (hcolonizes : Colonizes w db id row planet dbNext) :
    Houses (fun p => hosts p ∨ p = planet ∧ db.relation row.attributes.user planet = .unknown) dbNext.board := by
  cases hcolonizes with
  | turned next hrelation hturns =>
      have hturned := turns (ofRow id row) hhouses hget rfl haway hturns
      exact hturned.mono fun p hp => hp.resolve_right fun hunknown => hrelation hunknown.2
  | settled cargo jobs next hrelation hjobs henough hboard =>
      let rows := removed (.single colonyShip 1) row.shipfleets
      let settled : FleetRow :=
        ⟨valued w db rows ((Fleet.settled planet db.now (ofRow id row)).withCargo cargo).toAttributes, rows⟩
      have hroute : settled.attributes.toRoute = (Fleet.settled planet db.now (ofRow id row)).toRoute :=
        valued_toRoute w db _ _
      rw [hboard]
      exact (claimed hhouses hget haway hidle hjobs hroute).mono fun p hp => hp.imp_right And.left
  | unmanned cargo jobs next hrelation hjobs hlacks hboard =>
      rw [hboard]
      exact (claimed hhouses hget haway hidle hjobs rfl).mono fun p hp => hp.imp_right And.left

omit hget haway in
/-- Home fleets on other planets are not beaten. -/
theorem clear : Houses (fun p => hosts p ∧ p ≠ planet) (db.setFleets (cleared db planet)).board := by
  have hfewer : Houses (fun p => hosts p ∧ p ≠ planet) db.board := hhouses.mono fun p hp => hp.1
  refine hfewer.setFleets
    ⟨.foldl_destroy FleetsStay.stays_refl _ _, fun p hp => .foldl_destroy fun other hmem found hfound => ?_⟩
  obtain ⟨there, hthere, hstationed⟩ := Table.mem_select.mp hmem
  obtain rfl := Option.some.inj (hthere.symm.trans hfound)
  refine decide_eq_false fun hbased => hp.2 ?_
  have hstart := (hhouses.based other there hthere hbased.1).start
  exact hbased.2.symm.trans (hstart.symm.trans (of_decide_eq_true hstationed).1)

/-- Who wins or draws leaves no home fleet, and who loses or raises leaves all. -/
theorem attacks {draws : Draws} (hattacks : Attacks w draws db id row planet dbNext) :
    Houses (fun p => hosts p ∧ ¬(p = planet ∧ Clears w draws db (ofRow id row) planet)) dbNext.board := by
  have hkept : ∀ {board : Board}, Houses hosts board →
      Houses (fun p => hosts p ∧ ¬(p = planet ∧ Clears w draws db (ofRow id row) planet)) board :=
    fun hboard => hboard.mono fun _ hp => hp.1
  have hcleared : Clears w draws db (ofRow id row) planet → ∀ {board : Board}, Houses (fun p => hosts p ∧ p ≠ planet) board →
      Houses (fun p => hosts p ∧ ¬(p = planet ∧ Clears w draws db (ofRow id row) planet)) board :=
    fun hclears _ hboard => hboard.mono fun _ hp => ⟨hp.1, fun heq => hp.2 ⟨heq, hclears⟩⟩
  cases hattacks with
  | turned next hrelation hturns => exact hkept (turns (ofRow id row) hhouses hget rfl haway hturns)
  | raised err hrelation hlosses => exact hkept hhouses
  | beaten lost hrelation hfactor hlosses henough =>
      have hstruck : FleetsStay hosts db.fleets _ := .strike w db ((defenders db planet).zip lost) db.fleets
      refine hkept (hhouses.setFleets (hstruck.trans (.destroy fun found hfound => ?_)))
      obtain ⟨old, hold, hstays⟩ := hstruck.rows.old hfound (Table.lt_nextId hget)
      obtain rfl := Option.some.inj (hget.symm.trans hold)
      exact hstays.mission ▸ haway
  | drawn hrelation hfactor =>
      have hlosses : losses w draws db (ofRow id row) planet = .ok [] := by
        rw [losses, if_neg hfactor.not_lt, if_neg hfactor.not_gt]
      refine hcleared ⟨hrelation, hfactor.ge, hlosses ▸ rfl⟩
        (hhouses.clear.setFleets (.destroy fun found hfound => ?_))
      have hrow := (Table.get_foldl_destroy _ _ id).symm.trans hfound
      split at hrow
      · cases hrow
      · exact Option.some.inj (hget.symm.trans hrow) ▸ haway
  | won lost cargo middle next hrelation hfactor hlosses henough hthere hboard hturns =>
      let won : FleetRow := ⟨((winner w db id row lost).withCargo cargo).toAttributes, removed lost row.shipfleets⟩
      have hroute : won.attributes.toRoute = row.attributes.toRoute := valued_toRoute w db _ row.attributes
      have hleft : (cleared db planet).get id = some row := get_cleared hget hthere
      have hmiddle : Houses (fun p => hosts p ∧ p ≠ planet) middle.board := by
        rw [hboard]
        exact hhouses.clear.setFleets (.put hleft (.of_route hroute))
      have hwon : middle.fleets.get id = some won := by
        rw [show middle.fleets = middle.board.fleets from rfl, hboard]
        exact (Table.get_put won hleft id).trans (if_pos rfl)
      have hmission : won.attributes.missionId ≠ 1 := congrArg Route.missionId hroute ▸ haway
      exact hcleared ⟨hrelation, hfactor.le, hlosses ▸ rfl⟩
        (turns ((winner w db id row lost).withCargo cargo) hmiddle hwon rfl hmission hturns)
  | vanished lost next hrelation hfactor hlosses hthere hboard =>
      rw [hboard]
      exact hcleared ⟨hrelation, hfactor.le, hlosses ▸ rfl⟩ hhouses.clear

end Arrivals

/-! ### The queue -/

section Queue

variable {index : ℕ} {job : Job}

theorem schedule (hhouses : Houses hosts db.board) {entry : Enqueued} (hentry : db.delayed[index]? = some entry) :
    Houses hosts { db with delayed := db.delayed.eraseIdx index, ready := db.ready ++ [entry.job] }.board :=
  hhouses.requeue rfl fun id => ((jobsOf_scheduled hentry id).filter _).subperm

theorem missionsOf_taken (hready : db.ready[index]? = some job) (hfleet : job.fleet? = some id) :
    (db.board.missionsOf id).Perm ((if job.mission?.isSome then [job] else []) ++
      { db with ready := db.ready.eraseIdx index }.board.missionsOf id) := by
  have hperm := (jobsOf_taken hready id).filter fun job => job.mission?.isSome
  rw [if_pos hfleet, List.filter_append, List.filter_cons, List.filter_nil] at hperm
  exact hperm

theorem take (hhouses : Houses hosts db.board) (hready : db.ready[index]? = some job) :
    Houses hosts { db with ready := db.ready.eraseIdx index }.board := by
  refine hhouses.requeue rfl fun id => ?_
  have hperm := (jobsOf_taken hready id).filter fun job => job.mission?.isSome
  rw [List.filter_append] at hperm
  exact (List.sublist_append_right _ _).subperm.trans hperm.symm.subperm

/-- The job for the mission of a fleet is its only one, and the fleet is not at home. -/
theorem idle_of_taken (hhouses : Houses hosts db.board) (hready : db.ready[index]? = some job)
    (hfleet : job.fleet? = some id) (hmission : job.mission?.isSome = true) :
    { db with ready := db.ready.eraseIdx index }.board.missionsOf id = [] ∧
      ∀ row, db.fleets.get id = some row → row.attributes.missionId ≠ 1 := by
  have hperm := missionsOf_taken hready hfleet
  rw [if_pos hmission, List.singleton_append] at hperm
  have hmem : job ∈ db.board.missionsOf id := hperm.mem_iff.mpr List.mem_cons_self
  refine ⟨List.length_eq_zero_iff.mp ?_, fun row hget => hhouses.away hmem hget⟩
  have honce := hhouses.once id
  rw [hperm.length_eq, List.length_cons] at honce
  omega

end Queue

end Houses

end Board

end Mmog
