import Mmog.Missions.Agreement

/-!
# Flights come to an end

A fleet has at most two flights to make, the one to its target and the one back,
and one more for each time that it is called back.  A job of a mission stands
for both flights, a return for the last one, and a fleet that is not there yet
may get the one or the other.
-/

namespace Mmog

open Ruby Action Fleet MissionsController Fight

/-! ## Flights to come -/

/-- The flights of the fleet that a job still stands for. -/
def Job.legs (id : FleetId) (job : Job) : ℕ :=
  if job.fleet? = some id then if job = .returnToOrigin id then 1 else 2 else 0

theorem Job.legs_of_ne {job : Job} {id : FleetId} (hne : job.fleet? ≠ some id) : job.legs id = 0 := if_neg hne

theorem Job.legs_returnToOrigin (fleet id : FleetId) :
    (Job.returnToOrigin fleet).legs id = if some fleet = some id then 1 else 0 := by
  by_cases heq : fleet = id
  · subst heq
    simp only [legs, fleet?, if_pos]
  · rw [if_neg fun hsome => heq (Option.some.inj hsome)]
    exact legs_of_ne fun hsome => heq (Option.some.inj hsome)

theorem Job.legs_of_mission {job : Job} {id : FleetId} (hfleet : job.fleet? = some id)
    (hmission : job ≠ .returnToOrigin id) : job.legs id = 2 := by
  rw [legs, if_pos hfleet, if_neg hmission]

theorem Job.legs_le_two (job : Job) (id : FleetId) : job.legs id ≤ 2 := by
  unfold legs
  split_ifs <;> decide

namespace Board

/-- The flights that the pending jobs of a fleet stand for. -/
def legs (board : Board) (id : FleetId) : ℕ :=
  (board.delayed.map fun entry => entry.job.legs id).sum + (board.ready.map (Job.legs id)).sum

theorem legs_addJobs (board : Board) (jobs : List Enqueued) (id : FleetId) :
    (board.addJobs jobs).legs id = board.legs id + (jobs.map fun entry => entry.job.legs id).sum := by
  rw [legs, addJobs, List.map_append, List.sum_append, legs]
  exact Nat.add_right_comm _ _ _

theorem legs_addJobs_of_none (board : Board) {jobs : List Enqueued} (hjobs : ∀ entry ∈ jobs, entry.job.fleet? = none)
    (id : FleetId) : (board.addJobs jobs).legs id = board.legs id := by
  have hzero : (jobs.map fun entry => entry.job.legs id).sum = 0 := by
    refine List.sum_eq_zero fun legs hlegs => ?_
    obtain ⟨entry, hentry, rfl⟩ := List.mem_map.mp hlegs
    exact Job.legs_of_ne fun hsome => Option.some_ne_none id (hsome.symm.trans (hjobs entry hentry))
  rw [legs_addJobs, hzero, Nat.add_zero]

theorem legs_removeDelayed_le (board : Board) (job : Job) (id : FleetId) :
    (board.removeDelayed job).legs id ≤ board.legs id := by
  have hsublist : ((board.removeDelayed job).delayed.map fun entry => entry.job.legs id).Sublist
      (board.delayed.map fun entry => entry.job.legs id) := List.filter_sublist.map _
  exact Nat.add_le_add_right (hsublist.sum_le_sum fun _ _ => Nat.zero_le _) _

/-- At most one more flight comes, and it is a return of the fleet. -/
def Recalls (fleet : FleetId) (board next : Board) : Prop :=
  ∀ id, next.legs id ≤ board.legs id + if fleet = id then 1 else 0

namespace Recalls

variable {board mid next : Board} {fleet : FleetId}

/-- No job comes. -/
theorem of_le (hle : ∀ id, next.legs id ≤ board.legs id) : Recalls fleet board next := fun id =>
  (hle id).trans (Nat.le_add_right _ _)

theorem of_same (hrecalls : Recalls fleet mid next) (hsame : ∀ id, mid.legs id = board.legs id) :
    Recalls fleet board next := fun id => hsame id ▸ hrecalls id

theorem addReturn (hle : ∀ id, mid.legs id ≤ board.legs id) (timestamp : ℤ) :
    Recalls fleet board (mid.addJobs [⟨timestamp, .returnToOrigin fleet⟩]) := by
  intro id
  rw [legs_addJobs, List.map_singleton, List.sum_singleton, Job.legs_returnToOrigin, if_congr Option.some_inj rfl rfl]
  exact Nat.add_le_add_right (hle id) _

variable {w : World} {db dbNext : Db} {row : FleetRow} {rows : List Shipfleet} {planet : PlanetId}

theorem turns {self : Fleet} (hturns : Turns w db self rows planet dbNext) :
    Recalls self.id db.board dbNext.board := by
  cases hturns with
  | stuck hrows => exact of_le fun _ => le_rfl
  | turned velocity next hrows hboard =>
      rw [hboard]
      exact addReturn (fun _ => le_rfl) _

theorem joins (hjoins : Joins w db planet fleet row dbNext) (id : FleetId) : dbNext.board.legs id = db.board.legs id := by
  cases hjoins with
  | _ => rfl

theorem travels (htravels : Travels w db fleet row planet dbNext) : Recalls fleet db.board dbNext.board := by
  cases htravels with
  | turned next hrelation hturns => exact turns hturns
  | joined next hrelation hjoins => exact of_le fun id => (joins hjoins id).le
  | landed hrelation => exact of_le fun _ => le_rfl

theorem transports (htransports : Transports w db fleet row planet dbNext) : Recalls fleet db.board dbNext.board := by
  cases htransports with
  | turned next hrelation hturns => exact turns hturns
  | unloaded cargo middle next hrelation hboard hcargo hturns =>
      have hmiddle : ∀ id, middle.board.legs id = db.board.legs id := fun id => by
        rw [hboard]
        rfl
      exact (turns hturns).of_same hmiddle

theorem spies {r : ℚ} {ownSpyFactor : Factor} (hspies : Spies w db fleet row planet r ownSpyFactor dbNext) :
    Recalls fleet db.board dbNext.board := by
  cases hspies with
  | turned next hsafe hturns => exact turns hturns
  | destroyed hfound => exact of_le fun _ => le_rfl

theorem colonizes (hcolonizes : Colonizes w db fleet row planet dbNext) : Recalls fleet db.board dbNext.board := by
  cases hcolonizes with
  | turned next hrelation hturns => exact turns hturns
  | settled cargo jobs next hrelation hjobs henough hboard =>
      rw [hboard]
      exact of_le fun id => (legs_addJobs_of_none (db.board.setOwner planet _) hjobs id).le
  | unmanned cargo jobs next hrelation hjobs hlacks hboard =>
      rw [hboard]
      exact of_le fun id => (legs_addJobs_of_none (db.board.setOwner planet _) hjobs id).le

theorem attacks {draws : Draws} (hattacks : Attacks w draws db fleet row planet dbNext) :
    Recalls fleet db.board dbNext.board := by
  cases hattacks with
  | turned next hrelation hturns => exact turns hturns
  | raised err hrelation hlosses => exact of_le fun _ => le_rfl
  | beaten lost hrelation hfactor hlosses henough => exact of_le fun _ => le_rfl
  | drawn hrelation hfactor => exact of_le fun _ => le_rfl
  | won lost cargo middle next hrelation hfactor hlosses henough haway hboard hturns =>
      have hmiddle : ∀ id, middle.board.legs id = db.board.legs id := fun id => by
        rw [hboard]
        rfl
      exact (turns hturns).of_same hmiddle
  | vanished lost next hrelation hfactor hlosses hthere hboard =>
      rw [hboard]
      exact of_le fun _ => le_rfl

end Recalls

/-! ## Requests -/

/-- At most two more flights come, and they are those of a new fleet. -/
def Sends (board next : Board) : Prop :=
  ∀ id, next.legs id ≤ board.legs id + if board.fleets.nextId ≤ id ∧ id < next.fleets.nextId then 2 else 0

namespace Sends

variable {w : World} {db dbNext : Db} {id : FleetId} {row : FleetRow}

theorem of_same {board next : Board} (hsame : ∀ id, next.legs id = board.legs id) : Sends board next := fun id =>
  (hsame id).trans_le (Nat.le_add_right _ _)

theorem check {params : Params} {result : EStateM.Result Err Db (List String)} (hcheck : CheckOutcome w db params result) :
    Sends db.board (after result).board := by
  cases hcheck with
  | _ => exact of_same fun _ => rfl

theorem move {mission : MissionId} {destination : PlanetId} {shipHash : Hash ShipId ℤ} {ore crystal credit : ℤ}
    (hmove : MoveOutcome w db (ofRow id row) row mission destination shipHash ore crystal credit (.ok ⟨⟩ dbNext)) :
    Sends db.board dbNext.board := by
  cases hmove with
  | left user time energy cargo next hhome henough howner hfails hships hneeds hpaid hready hboard hcargo hstocked =>
      intro other
      let fleet := mover w db (ofRow id row) row destination shipHash user time
      have hjob : ((fleet.sent mission cargo).missionJob (db.users fleet.user).userSetting.increasedSpypower).fleet? =
          some db.fleets.nextId := missionJob_fleet? _ _
      rw [hboard, departedBoard, legs_addJobs, List.map_singleton, List.sum_singleton]
      refine Nat.add_le_add_left ?_ _
      by_cases heq : db.fleets.nextId = other
      · rw [if_pos ⟨heq.le, heq ▸ Nat.lt_succ_self _⟩]
        exact Job.legs_le_two _ _
      · exact (Job.legs_of_ne fun hother => heq (Option.some.inj (hjob.symm.trans hother))).trans_le (Nat.zero_le _)

variable (w db) in
theorem send (params : Params) : Sends db.board (after ((sendFleet w params).run db)).board := by
  have hsend := send_outcome w db params
  generalize (sendFleet w params).run db = result at hsend
  cases hsend with
  | raised err next hrun hcheck => exact check hcheck
  | complained fehler next hrun hcheck hfehler => exact check hcheck
  | away row user message hpassed haway => exact of_same fun _ => rfl
  | based row user err hpassed hhome hmission => exact of_same fun _ => rfl
  | left row user planet next hpassed hhome hmission hplanet hmove =>
      -- the fleet that was split off by the check had the id before that of the new one
      have hmoved := move hmove
      have hskipped : db.fleets.nextId ≤ (checkedDb w db params row user).fleets.nextId := Nat.le_succ _
      intro other
      refine (hmoved other).trans (Nat.add_le_add_left ?_ _)
      split_ifs with hnew hold
      · exact le_rfl
      · exact absurd ⟨hskipped.trans hnew.1, hnew.2⟩ hold
      all_goals exact Nat.zero_le _

variable (db) in
theorem unload (id : FleetId) (planet : PlanetId) (other : FleetId) :
    (after ((FleetsController.unload id planet).run db)).board.legs other = db.board.legs other := by
  cases hget : db.fleets.get id with
  | none =>
      rw [FleetsController.unload, run_bind_of_error (find_of_none hget)]
      rfl
  | some row =>
      rw [FleetsController.unload, run_bind_of_ok (find_of_some hget)]
      split
      · obtain ⟨cargo, next, hunload, hboard, -, -⟩ :=
          unloadRessources_board (show db.fleets.get (ofRow id row).id = some row from hget) planet
        rw [run_bind_of_ok hunload]
        exact (congrArg (fun board : Board => board.legs other) hboard).trans rfl
      · rfl

variable (w db) in
theorem addShipToPlanet (ship : ShipId) (planet : PlanetId) (other : FleetId) :
    (after ((Fleet.addShipToPlanet w ship planet).run db)).board.legs other = db.board.legs other := by
  cases hfirst : db.fleets.first (Db.basedAt planet) with
  | some home =>
      obtain ⟨homeRow, hhome, -⟩ := Table.first_eq_some hfirst
      rw [addShipToPlanet_home w hfirst hhome]
      rfl
  | none =>
      cases howner : (db.planets planet).user with
      | some user =>
          rw [addShipToPlanet_new w hfirst howner]
          rfl
      | none =>
          rw [addShipToPlanet_nobody w hfirst howner]
          rfl

end Sends

/-! ## The queue -/

/-- A job that gets ready stands for the same flights. -/
theorem legs_scheduled {db : Db} {index : ℕ} {entry : Enqueued} (hentry : db.delayed[index]? = some entry)
    (id : FleetId) :
    { db with delayed := db.delayed.eraseIdx index, ready := db.ready ++ [entry.job] }.board.legs id =
      db.board.legs id := by
  have hperm := ((Backlog.perm_cons_eraseIdx hentry).map fun entry => entry.job.legs id).sum_eq
  rw [List.map_cons, List.sum_cons] at hperm
  simp only [legs, Db.board_delayed, Db.board_ready, List.map_append, List.sum_append, List.map_singleton,
    List.sum_singleton, hperm]
  omega

/-- A ready job that is taken no longer counts. -/
theorem legs_taken {db : Db} {index : ℕ} {job : Job} (hready : db.ready[index]? = some job) (id : FleetId) :
    { db with ready := db.ready.eraseIdx index }.board.legs id + job.legs id = db.board.legs id := by
  have hperm := ((Backlog.perm_cons_eraseIdx hready).map (Job.legs id)).sum_eq
  rw [List.map_cons, List.sum_cons] at hperm
  simp only [legs, Db.board_delayed, Db.board_ready, hperm]
  omega

end Board

/-! ## Jobs -/

/-- A job of a fleet stands for one flight less than it did. -/
theorem Job.perform_legs {w : World} {draws : Draws} {db : Db} {job : Job} {action : Act Unit}
    (hperform : job.perform w draws = some action) (hvalid : db.fleets.All fun row => Valid row.shipfleets)
    (id : FleetId) :
    (after (action.run db)).board.legs id + (if job.fleet? = some id then 1 else 0) ≤
      db.board.legs id + job.legs id := by
  obtain ⟨fleet, hfleet⟩ := Job.fleet?_of_perform hperform
  -- a mission makes place for a return, and a return for nothing
  have hmission : job ≠ .returnToOrigin fleet → Board.Recalls fleet db.board (after (action.run db)).board →
      (after (action.run db)).board.legs id + (if job.fleet? = some id then 1 else 0) ≤
        db.board.legs id + job.legs id := by
    intro hne hrecalls
    have hle := hrecalls id
    by_cases heq : fleet = id
    · subst heq
      rw [if_pos rfl] at hle
      rw [if_pos hfleet, legs_of_mission hfleet hne]
      omega
    · rw [if_neg heq] at hle
      rw [if_neg fun hsome => heq (Option.some.inj (hfleet.symm.trans hsome))]
      omega
  have hquiet : (after (action.run db)).board.legs id = db.board.legs id →
      (after (action.run db)).board.legs id + (if job.fleet? = some id then 1 else 0) ≤
        db.board.legs id + job.legs id := by
    intro hsame
    rw [hsame, legs]
    split_ifs <;> omega
  cases hget : db.fleets.get fleet with
  | none =>
      rw [Job.perform_of_none hperform hfleet hget] at hquiet ⊢
      exact hquiet rfl
  | some row =>
      have hfind := find_of_some hget
      have hrow := hvalid fleet row hget
      cases job with
      | buildBuildings planet buildingtype => cases hperform
      | produceResources planet => cases hperform
      | attackPlanet self planet =>
          cases hperform
          obtain rfl := Option.some.inj hfleet
          refine hmission (fun heq => by cases heq) ?_
          rw [run_bind_of_ok hfind]
          exact .attacks (Fight.attack_attacks w draws planet hvalid hget)
      | colonizePlanet self planet =>
          cases hperform
          obtain rfl := Option.some.inj hfleet
          refine hmission (fun heq => by cases heq) ?_
          rw [run_bind_of_ok hfind]
          exact .colonizes (colonize_colonizes w hget planet)
      | travelToPlanet self planet =>
          cases hperform
          obtain rfl := Option.some.inj hfleet
          refine hmission (fun heq => by cases heq) ?_
          rw [run_bind_of_ok hfind]
          exact .travels (travel_travels w hget hrow planet)
      | spyPlanet self planet factor =>
          cases hperform
          obtain rfl := Option.some.inj hfleet
          refine hmission (fun heq => by cases heq) ?_
          rw [run_bind_of_ok hfind]
          exact .spies (spy_spies w hget draws.spyRate factor planet)
      | transportToPlanet self planet =>
          cases hperform
          obtain rfl := Option.some.inj hfleet
          refine hmission (fun heq => by cases heq) ?_
          rw [run_bind_of_ok hfind]
          exact .transports (transport_transports w hget planet)
      | returnToOrigin self =>
          cases hperform
          obtain rfl := Option.some.inj hfleet
          refine hquiet ?_
          rw [run_bind_of_ok hfind]
          exact Board.Recalls.joins (arriveHome_joins w hget hrow) id

/-! ## Events -/

/-- A worker runs a job of the fleet. -/
def Event.arrivals (id : FleetId) (db : Db) : Event → ℕ
  | .work index _ => if db.ready[index]?.bind Job.fleet? = some id then 1 else 0
  | _ => 0

/-- The fleet is called back when it is not at home. -/
def Event.recalls (id : FleetId) (db : Db) : Event → ℕ
  | .breakup fleet => if fleet = id ∧ (db.fleets.get fleet).any (fun row => row.attributes.missionId ≠ 1) then 1 else 0
  | _ => 0

theorem breakup_legs (db : Db) (fleet id : FleetId) :
    (after ((FleetsController.breakup fleet).run db)).board.legs id ≤
      db.board.legs id + (Event.breakup fleet).recalls id db := by
  have hbreaks := breakup_breaksUp db fleet
  generalize after ((FleetsController.breakup fleet).run db) = next at hbreaks
  cases hbreaks with
  | missing hget => exact Nat.le_add_right _ _
  | based row hget hmission => exact Nat.le_add_right _ _
  | back row next hget hmission hboard =>
      have haway : (db.fleets.get fleet).any (fun row => row.attributes.missionId ≠ 1) = true := by
        rw [hget]
        exact decide_eq_true hmission
      have hback : Board.Recalls fleet db.board (brokenBoard db.board (ofRow fleet row) row.shipfleets) :=
        .addReturn (fun id => Board.legs_removeDelayed_le db.board _ id) _
      rw [hboard, Event.recalls, haway, if_congr (and_iff_left rfl) rfl rfl]
      exact hback id

namespace Board

/-- The flights that a fleet has still to make, or may get to make. -/
def flights (board : Board) (id : FleetId) : ℕ := board.legs id + if board.fleets.nextId ≤ id then 2 else 0

variable {board next : Board} {id : FleetId} {gone come : ℕ}

theorem flights_le (hnextId : board.fleets.nextId ≤ next.fleets.nextId)
    (hlegs : next.legs id + gone ≤ board.legs id + come) : next.flights id + gone ≤ board.flights id + come := by
  rw [flights, flights]
  split_ifs with hnext hold hold
  · omega
  · exact absurd (hnextId.trans hnext) hold
  · omega
  · omega

theorem Sends.flights_le (hsends : Sends board next) (hnextId : board.fleets.nextId ≤ next.fleets.nextId) :
    next.flights id ≤ board.flights id := by
  have hlegs := hsends id
  rw [flights, flights]
  by_cases hnext : next.fleets.nextId ≤ id
  · rw [if_neg fun hboth => hboth.2.not_ge hnext] at hlegs
    rw [if_pos hnext, if_pos (hnextId.trans hnext)]
    omega
  · rw [if_neg hnext]
    refine hlegs.trans (Nat.add_le_add_left ?_ _)
    rw [if_congr (and_iff_left (Nat.lt_of_not_le hnext)) rfl rfl]

end Board

/-- Each arrival takes a flight from those that a fleet has to make, and only a recall adds one. -/
theorem step_flights {w : World} {db next : Db} {event : Event} (hvalid : db.fleets.All fun row => Valid row.shipfleets)
    (hstep : step w db event = some next) (id : FleetId) :
    next.board.flights id + event.arrivals id db ≤ db.board.flights id + event.recalls id db := by
  have hnextId : db.board.fleets.nextId ≤ next.board.fleets.nextId := (step_flies hvalid hstep).fleets.nextId_le
  cases event with
  | wait seconds =>
      cases hstep
      exact le_rfl
  | addShip ship planet =>
      rw [settled_eq_some hstep] at hnextId ⊢
      exact Board.flights_le hnextId (Board.Sends.addShipToPlanet w db ship planet id).le
  | check params =>
      rw [settled_eq_some hstep] at hnextId ⊢
      exact (Board.Sends.check (check_outcome w db params)).flights_le hnextId
  | send params =>
      rw [settled_eq_some hstep] at hnextId ⊢
      exact (Board.Sends.send w db params).flights_le hnextId
  | breakup fleet =>
      rw [settled_eq_some hstep] at hnextId ⊢
      exact Board.flights_le hnextId (breakup_legs db fleet id)
  | unload fleet planet =>
      rw [settled_eq_some hstep] at hnextId ⊢
      exact Board.flights_le hnextId (Board.Sends.unload db fleet planet id).le
  | research user technology factor =>
      cases hstep
      exact le_rfl
  | schedule index =>
      simp only [step] at hstep
      split at hstep
      · rename_i entry hentry
        split at hstep
        · cases hstep
          exact Board.flights_le hnextId (Board.legs_scheduled hentry id).le
        · cases hstep
      · cases hstep
  | work index draws =>
      simp only [step] at hstep
      split at hstep
      · rename_i job hready
        split at hstep
        · rename_i action hperform
          let taken : Db := { db with ready := db.ready.eraseIdx index }
          have htaken : taken.fleets.All fun row => Valid row.shipfleets := hvalid
          have hlegs := Job.perform_legs hperform htaken id
          rw [settled_eq_some hstep] at hnextId ⊢
          refine Board.flights_le hnextId ?_
          rw [Event.arrivals, hready, Option.bind_some, ← Board.legs_taken hready id]
          exact hlegs
        · cases hstep
      · cases hstep

/-! ## Runs -/

theorem Db.Fresh.flights_le {db : Db} (hfresh : db.Fresh) (id : FleetId) : db.board.flights id ≤ 2 := by
  have hzero : db.board.legs id = 0 := by
    refine Nat.add_eq_zero_iff.mpr ⟨List.sum_eq_zero fun legs hlegs => ?_, List.sum_eq_zero fun legs hlegs => ?_⟩
    · obtain ⟨entry, hentry, rfl⟩ := List.mem_map.mp hlegs
      exact Job.legs_of_ne fun hsome => Option.some_ne_none id (hsome.symm.trans (hfresh.delayed entry hentry))
    · obtain ⟨job, hjob, rfl⟩ := List.mem_map.mp hlegs
      exact Job.legs_of_ne fun hsome => Option.some_ne_none id (hsome.symm.trans (hfresh.ready job hjob))
  rw [Board.flights, hzero, Nat.zero_add]
  split <;> decide

/-- The fleet is at home, or stays with an ally. -/
def FleetRow.AtRest (row : FleetRow) : Prop :=
  row.attributes.missionId = 1 ∧ row.attributes.startPlanet = row.attributes.originPlanet ∧ row.attributes.Returning ∨
    row.attributes.missionId ≠ 1 ∧ row.attributes.Stationed

theorem Errand.atRest {id : FleetId} {row : FleetRow} (herrand : Errand id row []) : row.AtRest := by
  cases herrand with
  | home hstart hhome hmission => exact .inl ⟨hmission, hstart, hhome⟩
  | stationed hstationed hmission => exact .inr ⟨hmission, hstationed⟩

end Mmog
