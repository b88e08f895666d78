import Mmog.Missions.Rest

/-!
# Flights are left alone

Home fleets split and merge, fleets that are stationed somewhere are attacked,
and every flight has its own job.  A fleet between two planets is none of this:
until its own job runs, or a request names it, it stays what it was.
-/

namespace Mmog

open Ruby Action Fleet MissionsController Fight

/-- The fleet is on a mission, between two planets. -/
structure FleetRow.InFlight (row : FleetRow) : Prop where
  mission : row.attributes.missionId ≠ 1
  between : row.attributes.startPlanet ≠ row.attributes.targetPlanet

namespace FleetRow.InFlight

variable {row : FleetRow} (hflight : row.InFlight) (p : PlanetId)

include hflight

theorem not_based : Db.basedAt p row = false := decide_eq_false fun hbased => hflight.mission hbased.1

theorem not_stationed : Db.stationedAt p row = false :=
  decide_eq_false fun hstationed => hflight.between (hstationed.1.trans hstationed.2.symm)

end FleetRow.InFlight

/-! ## Tables -/

namespace Ruby.Table

variable {ρ : Type*} {t : Table ρ} {id other : ℕ} {row : ρ}

theorem get_put_of_ne (new : ρ) (hne : id ≠ other) (hget : t.get id = some row) : (t.put other new).get id = some row :=
  (get_modify_of_ne t _ hne).trans hget

theorem get_destroy_of_some (hne : id ≠ other) (hget : t.get id = some row) : (t.destroy other).get id = some row :=
  (get_destroy_of_ne t hne).trans hget

/-- A row for which a test fails is not the first one that passes it. -/
theorem ne_of_first {test : ρ → Bool} (hget : t.get id = some row) (htest : test row = false)
    (hfirst : t.first test = some other) : id ≠ other := by
  rintro rfl
  obtain ⟨found, hfound, hpasses⟩ := first_eq_some hfirst
  obtain rfl := Option.some.inj (hget.symm.trans hfound)
  exact Bool.false_ne_true (htest.symm.trans hpasses)

end Ruby.Table

/-! ## Boards -/

namespace Board

/-- The fleet has the row that it had, and the jobs. -/
structure Spares (id : FleetId) (row : FleetRow) (board next : Board) : Prop where
  get : next.fleets.get id = some row
  jobs : (next.jobsOf id).Perm (board.jobsOf id)

namespace Spares

variable {id fleet : FleetId} {row : FleetRow} {board mid next : Board} {t : Table FleetRow}

theorem trans (hfirst : Spares id row board mid) (hsecond : Spares id row mid next) : Spares id row board next :=
  ⟨hsecond.get, hsecond.jobs.trans hfirst.jobs⟩

theorem setFleets (hget : t.get id = some row) : Spares id row board (board.setFleets t) := ⟨hget, .refl _⟩

/-- Jobs of others come. -/
theorem addJobs (hspares : Spares id row board next) {jobs : List Enqueued}
    (hjobs : ∀ entry ∈ jobs, entry.job.fleet? ≠ some id) : Spares id row board (next.addJobs jobs) := by
  refine ⟨hspares.get, ?_⟩
  rw [jobsOf_addJobs_of_not next hjobs]
  exact hspares.jobs

theorem addJob (hspares : Spares id row board next) (timestamp : ℤ) {job : Job} (hjob : job.fleet? = some fleet)
    (hne : id ≠ fleet) : Spares id row board (next.addJobs [⟨timestamp, job⟩]) := by
  refine hspares.addJobs fun entry hentry hsome => hne ?_
  rw [List.mem_singleton.mp hentry, hjob] at hsome
  exact (Option.some.inj hsome).symm

/-- A job of another fleet is removed. -/
theorem removeDelayed (hget : board.fleets.get id = some row) {job : Job} (hjob : job.fleet? = some fleet)
    (hne : id ≠ fleet) : Spares id row board (board.removeDelayed job) := by
  refine ⟨hget, ?_⟩
  rw [jobsOf_removeDelayed_of_ne board fun hsome => hne (Option.some.inj (hsome.symm.trans hjob))]

variable {w : World} {db dbNext : Db} {other homeRow : FleetRow} {planet : PlanetId}
  (hget : db.fleets.get id = some row) (hne : id ≠ fleet)

include hget

theorem refl : Spares id row db.board db.board := setFleets hget

include hne

/-- Another fleet turns back. -/
theorem turns {self : Fleet} (hself : self.id = fleet) {rows : List Shipfleet}
    (hturns : Turns w db self rows planet dbNext) : Spares id row db.board dbNext.board := by
  cases hturns with
  | stuck hrows => exact refl hget
  | turned velocity dbNext hrows hboard =>
      rw [hboard]
      exact (setFleets (Table.get_put_of_ne _ (hself ▸ hne) hget)).addJob _ rfl (hself ▸ hne)

/-- Another fleet joins a home fleet. -/
theorem joins (hflight : row.InFlight) (hjoins : Joins w db planet fleet other dbNext) :
    Spares id row db.board dbNext.board := by
  cases hjoins with
  | homeless hfirst => exact refl hget
  | itself hfirst => exact setFleets (Table.get_destroy_of_some hne hget)
  | joined home homeRow hfirst hhome hother =>
      have hplace := Table.ne_of_first hget (hflight.not_based planet) hfirst
      exact setFleets (Table.get_destroy_of_some hne (Table.get_put_of_ne _ hplace hget))

/-! ### Requests -/

theorem splitTable {self : Fleet} (hself : self.id = fleet) (shipHash : Hash ShipId ℤ) (user : UserId)
    (rows : List Shipfleet) : (splitTable w db shipHash user rows self).get id = some row :=
  Table.get_create_of_some _ (Table.get_put_of_ne _ (hself ▸ hne) hget)

theorem checkedDb {params : Params} (hparams : params.fleet = fleet) (user : UserId) :
    Spares id row db.board (checkedDb w db params other user).board :=
  setFleets (Table.get_put_of_ne _ (hparams ▸ hne) hget)

theorem check {params : Params} (hparams : params.fleet = fleet) {result : EStateM.Result Err Db (List String)}
    (hcheck : CheckOutcome w db params result) : Spares id row db.board (after result).board := by
  cases hcheck with
  | missing hmissing => exact refl hget
  | early other fehler hother hfehler hearly => exact refl hget
  | unowned other hother hships henough howner => exact setFleets (Table.get_put_of_ne _ (hparams ▸ hne) hget)
  | leftSplit other user hother hships henough howner hfails =>
      exact setFleets (splitTable hget hne hparams _ user _)
  | undone other user hother hships henough howner hfails => exact checkedDb hget hne hparams user

/-- A move of another fleet makes a new one, and its job is for that. -/
theorem move {mission : MissionId} {destination : PlanetId} {shipHash : Hash ShipId ℤ} {ore crystal credit : ℤ}
    (hmove : MoveOutcome w db (ofRow fleet other) other mission destination shipHash ore crystal credit
      (.ok ⟨⟩ dbNext)) :
    Spares id row db.board dbNext.board := by
  cases hmove with
  | left user time energy cargo dbNext hhome henough howner hfails hships hneeds hpaid hready hboard hcargo hstocked =>
      have hnew : id ≠ db.fleets.nextId := Table.ne_nextId hget
      have hsplit : (Fleet.splitTable w db shipHash user other.shipfleets (ofRow fleet other)).get id = some row :=
        splitTable hget hne rfl shipHash user other.shipfleets
      have hpaid : Spares id row db.board (paidBoard (db.setFleets (Fleet.splitTable w db shipHash user other.shipfleets
          (ofRow fleet other))) (mover w db (ofRow fleet other) other destination shipHash user time)
            (doubled mission energy)) := ⟨hsplit, .refl _⟩
      rw [hboard]
      refine (hpaid.trans (setFleets (Table.get_put_of_ne _ hnew hsplit))).addJob _ (missionJob_fleet? _ _) hnew

theorem send {params : Params} (hparams : params.fleet = fleet) :
    Spares id row db.board (after ((sendFleet w params).run db)).board := by
  have hsend := send_outcome w db params
  generalize (sendFleet w params).run db = result at hsend
  cases hsend with
  | raised err next hrun hcheck => exact check hget hne hparams hcheck
  | complained fehler next hrun hcheck hfehler => exact check hget hne hparams hcheck
  | away other user message hpassed haway => exact checkedDb hget hne hparams user
  | based other user err hpassed hhome hmission =>
      have hchecked : Spares id row db.board (MissionsController.checkedDb w db params other user).board :=
        checkedDb hget hne hparams user
      exact hchecked.trans (checkedDb hchecked.get hne hparams user)
  | left other user planet next hpassed hhome hmission hplanet hmove =>
      have hchecked : Spares id row db.board (MissionsController.checkedDb w db params other user).board :=
        checkedDb hget hne hparams user
      subst hparams
      exact hchecked.trans (move hchecked.get hne hmove)

theorem breakup : Spares id row db.board (after ((FleetsController.breakup fleet).run db)).board := by
  have hbreaks := breakup_breaksUp db fleet
  generalize after ((FleetsController.breakup fleet).run db) = next at hbreaks
  cases hbreaks with
  | missing hmissing => exact refl hget
  | based other hother hmission => exact refl hget
  | back other next hother hmission hboard =>
      have hremoved : Spares id row db.board (db.board.removeDelayed
          (missionJob (ofRow fleet other) (db.board.userSetting (ofRow fleet other).user).increasedSpypower)) :=
        removeDelayed hget (missionJob_fleet? _ _) hne
      rw [hboard]
      refine (hremoved.trans (setFleets (Table.get_put_of_ne _ hne hremoved.get))).addJob _ rfl hne

/-! ### Arrivals -/

theorem travels (hflight : row.InFlight) (htravels : Travels w db fleet other planet dbNext) :
    Spares id row db.board dbNext.board := by
  cases htravels with
  | turned next hrelation hturns => exact turns hget hne rfl hturns
  | joined next hrelation hjoins => exact joins hget hne hflight hjoins
  | landed hrelation => exact setFleets (Table.get_put_of_ne _ hne hget)

theorem transports (htransports : Transports w db fleet other planet dbNext) :
    Spares id row db.board dbNext.board := by
  cases htransports with
  | turned next hrelation hturns => exact turns hget hne rfl hturns
  | unloaded cargo middle next hrelation hboard hcargo hturns =>
      have hmiddle : Spares id row db.board middle.board := hboard ▸ setFleets (Table.get_put_of_ne _ hne hget)
      exact hmiddle.trans (turns hmiddle.get hne rfl hturns)

theorem spies {r : ℚ} {ownSpyFactor : Factor} (hspies : Spies w db fleet other planet r ownSpyFactor dbNext) :
    Spares id row db.board dbNext.board := by
  cases hspies with
  | turned next hsafe hturns => exact turns hget hne rfl hturns
  | destroyed hfound => exact setFleets (Table.get_destroy_of_some hne hget)

theorem colonizes (hcolonizes : Colonizes w db fleet other planet dbNext) :
    Spares id row db.board dbNext.board := by
  have hclaimed : ∀ {jobs : List Enqueued} (new : FleetRow), Planet.PlanetJobs jobs → Spares id row db.board
      ((claimedBoard planet db.board other.attributes.user jobs).putFleet fleet new) := by
    intro jobs new hjobs
    have howner : Spares id row db.board (claimedBoard planet db.board other.attributes.user jobs) := by
      have hset : Spares id row db.board (db.board.setOwner planet (some other.attributes.user)) := ⟨hget, .refl _⟩
      exact hset.addJobs fun entry hentry hsome => Option.some_ne_none id (hsome.symm.trans (hjobs entry hentry))
    exact howner.trans (setFleets (Table.get_put_of_ne _ hne howner.get))
  cases hcolonizes with
  | turned next hrelation hturns => exact turns hget hne rfl hturns
  | settled cargo jobs next hrelation hjobs henough hboard => exact hboard ▸ hclaimed _ hjobs
  | unmanned cargo jobs next hrelation hjobs hlacks hboard => exact hboard ▸ hclaimed _ hjobs

/-- An attack is on fleets that are stationed somewhere. -/
theorem attacks (hflight : row.InFlight) {draws : Draws} (hattacks : Attacks w draws db fleet other planet dbNext) :
    Spares id row db.board dbNext.board := by
  have hcleared : (cleared db planet).get id = some row := get_cleared hget (hflight.not_stationed planet)
  cases hattacks with
  | turned next hrelation hturns => exact turns hget hne rfl hturns
  | raised err hrelation hlosses => exact refl hget
  | beaten lost hrelation hfactor hlosses henough =>
      have hnot : id ∉ ((defenders db planet).zip lost).map fun loss => loss.1.id := by
        intro hmem
        obtain ⟨loss, hloss, rfl⟩ := List.mem_map.mp hmem
        refine not_mem_stationed hget (hflight.not_stationed planet) ?_
        rw [← map_id_defenders]
        exact List.mem_map_of_mem (List.of_mem_zip hloss).1
      have hstruck : (struckTable w db ((defenders db planet).zip lost) db.fleets).get id = some row :=
        (get_struckTable_of_not_mem w hnot).trans hget
      exact setFleets (Table.get_destroy_of_some hne hstruck)
  | drawn hrelation hfactor => exact setFleets (Table.get_destroy_of_some hne hcleared)
  | won lost cargo middle next hrelation hfactor hlosses henough haway hboard hturns =>
      have hmiddle : Spares id row db.board middle.board :=
        hboard ▸ setFleets (Table.get_put_of_ne _ hne hcleared)
      exact hmiddle.trans (turns hmiddle.get hne rfl hturns)
  | vanished lost next hrelation hfactor hlosses hthere hboard => exact hboard ▸ setFleets hcleared

omit hne in
/-- A fleet in flight cannot be unloaded, and that of another fleet does not matter to it. -/
theorem unload (hflight : row.InFlight) (fleet : FleetId) (planet : PlanetId) :
    Spares id row db.board (after ((FleetsController.unload fleet planet).run db)).board := by
  cases hother : db.fleets.get fleet with
  | none =>
      rw [FleetsController.unload, run_bind_of_error (find_of_none hother)]
      exact refl hget
  | some other =>
      rw [FleetsController.unload, run_bind_of_ok (find_of_some hother)]
      split
      · rename_i hresting
        have hne : id ≠ fleet := by
          rintro rfl
          obtain rfl := Option.some.inj (hget.symm.trans hother)
          exact hflight.between hresting.1.symm
        obtain ⟨cargo, next, hunload, hboard, -, -⟩ :=
          unloadRessources_board (show db.fleets.get (ofRow fleet other).id = some other from hother) planet
        rw [run_bind_of_ok hunload]
        refine (congrArg (Spares id row db.board) hboard).mpr ?_
        exact setFleets (Table.get_put_of_ne _ hne hget)
      · exact refl hget

omit hne in
variable (w) in
/-- A ship that is finished goes to a home fleet. -/
theorem addShipToPlanet (hflight : row.InFlight) (ship : ShipId) (planet : PlanetId) :
    Spares id row db.board (after ((Fleet.addShipToPlanet w ship planet).run db)).board := by
  cases hfirst : db.fleets.first (Db.basedAt planet) with
  | some home =>
      obtain ⟨homeRow, hhome, -⟩ := Table.first_eq_some hfirst
      rw [addShipToPlanet_home w hfirst hhome]
      exact setFleets (Table.get_put_of_ne _ (Table.ne_of_first hget (hflight.not_based planet) hfirst) hget)
  | none =>
      cases howner : (db.planets planet).user with
      | some user =>
          rw [addShipToPlanet_new w hfirst howner]
          exact setFleets (Table.get_create_of_some _ hget)
      | none =>
          rw [addShipToPlanet_nobody w hfirst howner]
          exact refl hget

end Spares

end Board

/-! ## Events -/

/-- A job of another fleet. -/
theorem Job.perform_spares {w : World} {draws : Draws} {db : Db} {job : Job} {action : Act Unit}
    (hperform : job.perform w draws = some action) (hvalid : db.fleets.All fun row => Valid row.shipfleets)
    {id : FleetId} {row : FleetRow} (hget : db.fleets.get id = some row) (hflight : row.InFlight)
    (hjob : job.fleet? ≠ some id) : Board.Spares id row db.board (after (action.run db)).board := by
  obtain ⟨fleet, hfleet⟩ := Job.fleet?_of_perform hperform
  have hne : id ≠ fleet := fun heq => hjob (heq ▸ hfleet)
  cases hother : db.fleets.get fleet with
  | none =>
      rw [Job.perform_of_none hperform hfleet hother]
      exact .refl hget
  | some other =>
      have hfind := find_of_some hother
      have hrow := hvalid fleet other hother
      cases job with
      | buildBuildings planet buildingtype => cases hperform
      | produceResources planet => cases hperform
      | attackPlanet self planet =>
          cases hperform
          obtain rfl := Option.some.inj hfleet
          rw [run_bind_of_ok hfind]
          exact .attacks hget hne hflight (Fight.attack_attacks w draws planet hvalid hother)
      | colonizePlanet self planet =>
          cases hperform
          obtain rfl := Option.some.inj hfleet
          rw [run_bind_of_ok hfind]
          exact .colonizes hget hne (colonize_colonizes w hother planet)
      | travelToPlanet self planet =>
          cases hperform
          obtain rfl := Option.some.inj hfleet
          rw [run_bind_of_ok hfind]
          exact .travels hget hne hflight (travel_travels w hother hrow planet)
      | spyPlanet self planet factor =>
          cases hperform
          obtain rfl := Option.some.inj hfleet
          rw [run_bind_of_ok hfind]
          exact .spies hget hne (spy_spies w hother draws.spyRate factor planet)
      | transportToPlanet self planet =>
          cases hperform
          obtain rfl := Option.some.inj hfleet
          rw [run_bind_of_ok hfind]
          exact .transports hget hne (transport_transports w hother planet)
      | returnToOrigin self =>
          cases hperform
          obtain rfl := Option.some.inj hfleet
          rw [run_bind_of_ok hfind]
          exact .joins hget hne hflight (arriveHome_joins w hother hrow)

/-- A request names the fleet, or a worker runs a job of it. -/
def Event.concerns (id : FleetId) (db : Db) : Event → Bool
  | .check params => params.fleet = id
  | .send params => params.fleet = id
  | .breakup fleet => fleet = id
  | .work index _ => db.ready[index]?.bind Job.fleet? = some id
  | _ => false

theorem step_spares {w : World} {db next : Db} {event : Event} (hvalid : db.fleets.All fun row => Valid row.shipfleets)
    (hstep : step w db event = some next) {id : FleetId} {row : FleetRow} (hget : db.fleets.get id = some row)
    (hflight : row.InFlight) (hother : event.concerns id db = false) : Board.Spares id row db.board next.board := by
  cases event with
  | wait seconds =>
      cases hstep
      exact ⟨hget, .refl _⟩
  | addShip ship planet =>
      rw [settled_eq_some hstep]
      exact .addShipToPlanet w hget hflight ship planet
  | check params =>
      rw [settled_eq_some hstep]
      exact .check hget (Ne.symm (of_decide_eq_false hother)) rfl (check_outcome w db params)
  | send params =>
      rw [settled_eq_some hstep]
      exact .send hget (Ne.symm (of_decide_eq_false hother)) rfl
  | breakup fleet =>
      rw [settled_eq_some hstep]
      exact .breakup hget (Ne.symm (of_decide_eq_false hother))
  | unload fleet planet =>
      rw [settled_eq_some hstep]
      exact .unload hget hflight fleet planet
  | research user technology factor =>
      cases hstep
      exact ⟨hget, .refl _⟩
  | schedule index =>
      simp only [step] at hstep
      split at hstep
      · rename_i entry hentry
        split at hstep
        · cases hstep
          exact ⟨hget, Board.jobsOf_scheduled hentry id⟩
        · cases hstep
      · cases hstep
  | work index draws =>
      simp only [step] at hstep
      split at hstep
      · rename_i job hready
        split at hstep
        · rename_i action hperform
          let taken : Db := { db with ready := db.ready.eraseIdx index }
          have hjob : job.fleet? ≠ some id := by
            rw [Event.concerns, hready] at hother
            exact of_decide_eq_false hother
          have htaken := Board.jobsOf_taken hready id
          rw [if_neg hjob] at htaken
          have hspares : Board.Spares id row db.board taken.board := ⟨hget, htaken.symm⟩
          rw [settled_eq_some hstep]
          have hvalidTaken : taken.fleets.All fun row => Valid row.shipfleets := hvalid
          exact hspares.trans (Job.perform_spares hperform hvalidTaken hget hflight hjob)
        · cases hstep
      · cases hstep

/-! ## Runs -/

/-- Whatever happens in any order after any run: as long as no request names a fleet in flight and no job of
it is run, it has the very row it had, with its ships, its cargo and its times, and its pending jobs. -/
theorem flights_are_left_alone (w : World) {start db final : Db} (hfresh : start.Fresh) {events later : List Event}
    (hrun : run (step w) start events = some db) {id : FleetId} {row : FleetRow} (hget : db.fleets.get id = some row)
    (hflight : row.InFlight) (hothers : Along (step w) (fun db event => event.concerns id db = false) db later)
    (hlater : run (step w) db later = some final) :
    final.fleets.get id = some row ∧ (final.jobsOf id).Perm (db.jobsOf id) := by
  have hvalid : db.fleets.All fun row => Valid row.shipfleets :=
    run_invariant (fun _ _ _ hvalid hstep => step_valid hvalid hstep) (hfresh.all _) hrun
  have hspared := run_keeps
    (fun now : Db => (now.fleets.All fun row => Valid row.shipfleets) ∧ Board.Spares id row db.board now.board)
    (fun now event next hinv hother hstep => ⟨step_valid hinv.1 hstep,
      hinv.2.trans (step_spares hinv.1 hstep hinv.2.get hflight hother)⟩)
    ⟨hvalid, .refl hget⟩ hothers hlater
  exact ⟨hspared.2.get, hspared.2.jobs⟩

/-- A drone sets out for planet 11. -/
def watched : Db :=
  (run (step Seeds.world) Seeds.start [.addShip 7 1, .addShip 7 1, .addShip 7 1, .send spying]).get (by decide +kernel)

theorem one_le_lesson : (1 : ℚ) ≤ 21 / 20 := by norm_num

/-- Another drone sets out and comes back, and its user learns to spy better, before the first one arrives. -/
def meanwhile : List Event :=
  [.send spying, .breakup 5, .research 1 .increasedSpypower ⟨21 / 20, one_le_lesson⟩, .wait 100000, .schedule 0,
    .schedule 0, .work 1 {}]

def watchedAgain : Db := (run (step Seeds.world) watched meanwhile).get (by decide +kernel)

theorem flights_are_left_alone_meanwhile : ∃ row, watched.fleets.get (3 : FleetId) = some row ∧
    watchedAgain.fleets.get (3 : FleetId) = some row ∧ (watchedAgain.jobsOf (3 : FleetId)).Perm (watched.jobsOf (3 : FleetId)) := by
  have hrun : run (step Seeds.world) Seeds.start [.addShip 7 1, .addShip 7 1, .addShip 7 1, .send spying] =
      some watched := (Option.some_get _).symm
  have hlater : run (step Seeds.world) watched meanwhile = some watchedAgain := (Option.some_get _).symm
  have hothers : Along (step Seeds.world) (fun db event => event.concerns (3 : FleetId) db = false) watched meanwhile := by
    decide +kernel
  have hflies : ((watched.fleets.get (3 : FleetId)).any fun row => row.attributes.missionId ≠ 1 ∧
      row.attributes.startPlanet ≠ row.attributes.targetPlanet) = true := by decide +kernel
  obtain ⟨row, hget, hflight⟩ := (Option.any_eq_true _ _).mp hflies
  obtain ⟨hmission, hbetween⟩ := of_decide_eq_true hflight
  have hflight : row.InFlight := ⟨hmission, hbetween⟩
  have halone := flights_are_left_alone Seeds.world Seeds.start_fresh hrun hget hflight hothers hlater
  exact ⟨row, hget, halone.1, halone.2⟩

end Mmog
