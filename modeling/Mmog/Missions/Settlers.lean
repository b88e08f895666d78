import Mmog.Missions.Flights
import Mmog.Model.Seeds

/-!
# Settlers

A fleet that goes to found a colony, from the request that sends it to its job.
Meanwhile it gets no ships, but it may lose its colony ship, and may never have
had one: the request only asks for the key.  The job claims the planet first.
-/

namespace Mmog

open Ruby Action Fleet MissionsController

/-! ## Setting out -/

/-- The fleet that a request sent, and its job. -/
structure SetsOut (w : World) (params : Params) (before sent : Db) (entry : Enqueued) (fleet : Fleet) : Prop where
  job : ∃ spypower, entry = ⟨fleet.arrivalTime, fleet.missionJob spypower⟩
  row : sent.fleets.get fleet.id = some ⟨fleet.toAttributes, added (params.shipHash w) []⟩
  fresh : before.fleets.nextId ≤ fleet.id
  delayed : sent.delayed = before.delayed ++ [entry]
  ready : sent.ready = before.ready
  mission : fleet.missionId ≠ 1
  ships : added (params.shipHash w) [] ≠ []

variable {w : World} {params : Params}

theorem check_delayed {db : Db} {result : EStateM.Result Err Db (List String)} (hcheck : CheckOutcome w db params result) :
    (after result).delayed = db.delayed := by
  cases hcheck <;> rfl

/-- A request that enqueues a job has sent a new fleet. -/
theorem send_setsOut {before sent : Db} (hsend : step w before (.send params) = some sent) {entry : Enqueued}
    (hmem : entry ∈ sent.delayed) (hnew : entry ∉ before.delayed) : ∃ fleet, SetsOut w params before sent entry fleet := by
  have hsent := settled_eq_some hsend
  subst hsent
  have houtcome := send_outcome w before params
  generalize (sendFleet w params).run before = result at houtcome hmem
  cases houtcome with
  | raised err next hrun hcheck => exact absurd (check_delayed hcheck ▸ hmem) hnew
  | complained fehler next hrun hcheck hfehler => exact absurd (check_delayed hcheck ▸ hmem) hnew
  | away row user message hpassed haway => exact absurd hmem hnew
  | based row user err hpassed hhome hmission => exact absurd hmem hnew
  | left row user planet next hpassed hhome hmission hplanet hmove =>
      cases hmove with
      | left user' time energy cargo next hhome' henough howner hfails hships hneeds hpaid hready hboard hcargo
          hstocked =>
          let checked := checkedDb w before params row user
          let fleet := (mover w checked (ofRow params.fleet (checkedRow w before params row user))
            (checkedRow w before params row user) planet (params.shipHash w) user' time).sent params.mission cargo
          have hdelayed : next.delayed = before.delayed ++ _ := congrArg Board.delayed hboard
          have hlast := (List.mem_append.mp ((congrArg (entry ∈ ·) hdelayed).mp hmem)).resolve_left hnew
          have hentry := List.mem_singleton.mp hlast
          have hrow := get_splitTable_new w checked (ofRow params.fleet (checkedRow w before params row user))
            (checkedRow w before params row user) (params.shipHash w) user'
          refine ⟨fleet, ⟨_, hentry⟩, ?_, Nat.le_succ _, ?_, congrArg Board.ready hboard, hmission, added_nil_ne_nil hships⟩
          · rw [after_ok, show next.fleets = _ from congrArg Board.fleets hboard]
            exact (Table.get_put _ hrow fleet.id).trans (if_pos rfl)
          · rw [after_ok, hdelayed, hentry]

/-! ## Under way -/

/-- What is still true of the row of a fleet that has not settled. -/
structure Aboard (carried row : FleetRow) : Prop where
  user : row.attributes.user = carried.attributes.user
  mission : row.attributes.missionId ≠ 1
  manned : row.shipfleets ≠ []
  ships : ∀ ship, amountOf row.shipfleets ship ≤ amountOf carried.shipfleets ship

/-- A fleet has at most one job to found a colony, and until then no more ships than it carried when it left. -/
structure Underway (carried : FleetRow) (id : FleetId) (db : Db) : Prop where
  valid : db.fleets.All fun row => Valid row.shipfleets
  known : id < db.fleets.nextId
  once : db.board.colonizations id ≤ 1
  row : 0 < db.board.colonizations id → ∀ row, db.fleets.get id = some row → Aboard carried row

theorem Underway.step {carried : FleetRow} {id : FleetId} {db next : Db} {event : Event} (hunderway : Underway carried id db)
    (hstep : step w db event = some next) : Underway carried id next := by
  have hflies := step_flies hunderway.valid hstep
  have hle := hflies.colonizations id hunderway.known
  refine ⟨step_valid hunderway.valid hstep, hunderway.known.trans_le hflies.fleets.nextId_le, hle.trans hunderway.once,
    fun hpending new hget => ?_⟩
  have hsettler : event.settler? db ≠ some id := by
    intro hsettler
    have hless := step_settles hunderway.valid hstep hsettler hunderway.known
    have honce := hunderway.once
    omega
  obtain ⟨row, hrow, hevolves⟩ := hflies.fleets.old hget hunderway.known
  obtain ⟨huser, hmission, hmanned, hships⟩ := hunderway.row (hpending.trans_le hle) row hrow
  exact ⟨hevolves.user.trans huser, (hevolves.mission hsettler).trans_ne hmission, hevolves.manned hmanned,
    fun ship => (hevolves.ships hsettler hmission ship).trans (hships ship)⟩

/-- What is known of every state reached from a fresh one. -/
structure Db.Tidy (db : Db) : Prop where
  valid : db.fleets.All fun row => Valid row.shipfleets
  known : ∀ id, db.fleets.nextId ≤ id → db.board.colonizations id = 0

theorem Db.Fresh.colonizations {db : Db} (hfresh : db.Fresh) (id : FleetId) : db.board.colonizations id = 0 := by
  have hdelayed : db.delayed.countP (fun entry => entry.job.settler? = some id) = 0 := by
    refine List.countP_eq_zero.mpr fun entry hentry hsettler => ?_
    rw [Job.settler?_of_fleet? (hfresh.delayed entry hentry)] at hsettler
    cases hsettler
  have hready : db.ready.countP (fun job => job.settler? = some id) = 0 := by
    refine List.countP_eq_zero.mpr fun job hjob hsettler => ?_
    rw [Job.settler?_of_fleet? (hfresh.ready job hjob)] at hsettler
    cases hsettler
  rw [Board.colonizations, Db.board_delayed, Db.board_ready, hdelayed, hready]

theorem tidy_of_run {start db : Db} (hfresh : start.Fresh) {events : List Event}
    (hrun : run (step w) start events = some db) : db.Tidy := by
  have hstart : start.Tidy := ⟨hfresh.all _, fun id _ => hfresh.colonizations id⟩
  exact run_invariant (fun _ _ _ htidy hstep =>
    ⟨step_valid htidy.valid hstep, (step_flies htidy.valid hstep).known htidy.known⟩) hstart hrun

/-- A fleet that was sent to found a colony is under way with the ships it left with. -/
theorem SetsOut.underway {before sent : Db} {time : ℤ} {id : FleetId} {planet : PlanetId} {fleet : Fleet}
    (htidy : before.Tidy) (hsend : Mmog.step w before (.send params) = some sent)
    (hout : SetsOut w params before sent ⟨time, .colonizePlanet id planet⟩ fleet) : id = fleet.id ∧
      Underway ⟨fleet.toAttributes, added (params.shipHash w) []⟩ id sent := by
  obtain ⟨spypower, hjob⟩ := hout.job
  have hid : id = fleet.id :=
    Fleet.eq_of_settler? (congrArg (fun entry : Enqueued => entry.job.settler?) hjob).symm
  have hcount : sent.board.colonizations id = 1 := by
    have hbefore := htidy.known id (hid ▸ hout.fresh)
    rw [Board.colonizations, Db.board_delayed, Db.board_ready, hout.delayed, hout.ready, List.countP_append,
      Nat.add_right_comm]
    rw [Board.colonizations, Db.board_delayed, Db.board_ready] at hbefore
    rw [hbefore, List.countP_singleton]
    simp [Job.settler?]
  have hrow : sent.fleets.get id = some _ := hid ▸ hout.row
  refine ⟨hid, step_valid htidy.valid hsend, Table.lt_nextId hrow, hcount.le, fun _ row hget => ?_⟩
  obtain rfl := Option.some.inj (hrow.symm.trans hget)
  exact ⟨rfl, hout.mission, hout.ships, fun _ => le_refl _⟩

/-! ## Arriving -/

section Arriving

variable {db : Db} {id : FleetId} {row : FleetRow} {planet : PlanetId}

/-- A colony ship is there to be given up. -/
theorem enough_colonyShip_iff {rows : List Shipfleet} :
    enoughShips? rows (.single colonyShip 1) = true ↔ 1 ≤ amountOf rows colonyShip := by
  rw [enoughShips?_iff]
  constructor
  · intro henough
    obtain ⟨-, amount, hamount, hle⟩ := henough colonyShip 1 (by rw [Hash.get?_single, if_pos rfl])
    rw [amountOf, hamount, Option.getD_some]
    omega
  · intro hone key value hget
    rw [Hash.get?_single] at hget
    split at hget
    · obtain rfl := Option.some.inj hget
      subst key
      rw [amountOf] at hone
      cases hamount : amountOf? rows colonyShip with
      | none =>
          rw [hamount] at hone
          exact absurd hone (by decide)
      | some amount =>
          rw [hamount, Option.getD_some] at hone
          exact ⟨zero_le_one, amount, rfl, by omega⟩
    · cases hget

theorem amountOf_removed_colonyShip {rows : List Shipfleet}
    (henough : enoughShips? rows (.single colonyShip 1) = true) (ship : ShipId) :
    amountOf (removed (.single colonyShip 1) rows) ship = amountOf rows ship - if ship = colonyShip then 1 else 0 := by
  rw [amountOf_removed_of_enough henough, Hash.getD, Hash.get?_single]
  by_cases heq : ship = colonyShip
  · rw [if_pos heq, if_pos heq.symm, Option.getD_some]
  · rw [if_neg heq, if_neg (Ne.symm heq), Option.getD_none]

variable (w) in
/-- Who settles returns exactly if it has a colony ship. -/
theorem colonize_returned_iff (hget : db.fleets.get id = some row)
    (hrelation : db.relation row.attributes.user planet = .unknown) :
    returned (((ofRow id row).colonize w planet).run db) = true ↔ 1 ≤ amountOf row.shipfleets colonyShip := by
  obtain ⟨claimed, jobs, hclaim, -, hclaimed, -⟩ :=
    Planet.claim_board w row.attributes.user (Planet.user_of_unknown hrelation)
  have hself : claimed.fleets.get (Fleet.settled planet claimed.now (ofRow id row)).id = some row := by
    rw [show claimed.fleets = db.fleets from congrArg Board.fleets hclaimed]
    exact hget
  obtain ⟨cargo, middle, hunload, hboard, -, -⟩ := unloadRessources_board hself planet
  have hmiddle : middle.fleets.get (ofRow id row).id = some ⟨((Fleet.settled planet claimed.now (ofRow id row)).withCargo
      cargo).toAttributes, row.shipfleets⟩ := by
    rw [show middle.fleets = middle.board.fleets from rfl, hboard]
    exact (Table.get_put _ hself id).trans (if_pos rfl)
  rw [colonize, run_bind_get, show db.relation (ofRow id row).user planet = .unknown from hrelation, ← enough_colonyShip_iff]
  by_cases henough : enoughShips? row.shipfleets (.single colonyShip 1) = true
  · rw [settle_apply w hclaim hunload hmiddle henough]
    exact iff_of_true rfl henough
  · rw [settle_not_enough w hclaim hunload hmiddle henough]
    exact iff_of_false Bool.false_ne_true henough

end Arriving

/-! ## The law -/

section Law

variable (w : World) (db : Db) (index : ℕ) (id : FleetId) (planet : PlanetId)

/-- The ready job of a fleet to found a colony is taken and run. -/
def founding : EStateM.Result Err Db Unit :=
  (do (← Fleet.find id).colonize w planet : Act Unit).run { db with ready := db.ready.eraseIdx index }

variable {db index id planet} in
theorem step_founding (hready : db.ready[index]? = some (.colonizePlanet id planet)) (draws : Draws) :
    step w db (.work index draws) = settled (founding w db index id planet) := by
  simp only [step, hready]
  rfl

/-- The fleet is on its way home with the ships it had. -/
def SentHome (next : Db) : Prop :=
  ∃ row new, db.fleets.get id = some row ∧ next.fleets.get id = some new ∧ new.shipfleets = row.shipfleets ∧
    new.attributes.Returning ∧ ⟨new.attributes.arrivalTime, .returnToOrigin id⟩ ∈ next.delayed

/-- The fleet has given up exactly one colony ship. -/
def GaveColonyShip (next : Db) : Prop :=
  ∃ row new, db.fleets.get id = some row ∧ next.fleets.get id = some new ∧
    ∀ ship, amountOf new.shipfleets ship = amountOf row.shipfleets ship - if ship = colonyShip then 1 else 0

/-- A planet that becomes the user's costs a colony ship, and otherwise the fleet goes home. -/
def CostsColonyShip (carried : FleetRow) (result : EStateM.Result Err Db Unit) : Prop :=
  let user := some carried.attributes.user
  if (db.planets planet).user ≠ user ∧ ((after result).planets planet).user = user then
    1 ≤ amountOf carried.shipfleets colonyShip ∧ GaveColonyShip db id (after result) ∧ returned result = true
  else SentHome db id (after result)

/-- The fleet is still there, and it has a colony ship if the planet is free. -/
def CanFound : Prop :=
  ∃ row, db.fleets.get id = some row ∧ ((db.planets planet).user = none → 1 ≤ amountOf row.shipfleets colonyShip)

end Law

theorem founding_of_none {db : Db} {id : FleetId} (index : ℕ) (planet : PlanetId) (hget : db.fleets.get id = none) :
    founding w db index id planet = .error .recordNotFound { db with ready := db.ready.eraseIdx index } :=
  run_bind_of_error (find_of_none (show { db with ready := db.ready.eraseIdx index }.fleets.get id = none from hget)) _

theorem founding_of_some {db : Db} {id : FleetId} {row : FleetRow} (index : ℕ) (planet : PlanetId)
    (hget : db.fleets.get id = some row) : founding w db index id planet =
      ((ofRow id row).colonize w planet).run { db with ready := db.ready.eraseIdx index } :=
  run_bind_of_ok (find_of_some (show { db with ready := db.ready.eraseIdx index }.fleets.get id = some row from hget)) _

section Fires

variable {db : Db} {id : FleetId} {planet : PlanetId} {carried row : FleetRow} {result : EStateM.Result Err Db Unit}

/-- A planet with an owner stays with it, and the fleet flies home. -/
theorem costs_of_owned (howned : (db.planets planet).user ≠ none) (hget : db.fleets.get id = some row)
    (hrows : row.shipfleets ≠ []) (hturns : Turns w db (ofRow id row) row.shipfleets planet (after result)) :
    CostsColonyShip db id planet carried result := by
  cases hturns with
  | stuck hnil => exact absurd hnil hrows
  | turned velocity next _ hboard =>
      let back := Fleet.turned w db.now (ofRow id row) velocity planet
      have howner : ((after result).planets planet).user = (db.planets planet).user :=
        congrArg (fun board : Board => board.owner planet) hboard
      rw [CostsColonyShip, if_neg fun h => h.1 (howner ▸ h.2)]
      have hfleets : (after result).fleets = _ := congrArg Board.fleets hboard
      have hdelayed : (after result).delayed = _ := congrArg Board.delayed hboard
      refine ⟨row, ⟨back.toAttributes, row.shipfleets⟩, hget, ?_, rfl, rfl, ?_⟩
      · rw [hfleets]
        exact (Table.get_put _ hget id).trans (if_pos rfl)
      · rw [hdelayed]
        exact List.mem_append_right _ (List.mem_singleton_self _)

/-- A free planet is claimed, with or without a colony ship. -/
theorem owner_of_colonizes {next : Db} (hrelation : db.relation row.attributes.user planet = .unknown)
    (hcolonizes : Colonizes w db id row planet next) : (next.planets planet).user = some row.attributes.user := by
  cases hcolonizes with
  | turned next hknown hturns => exact absurd hrelation hknown
  | settled cargo jobs next _ hjobs henough hboard =>
      exact (congrArg (fun board : Board => board.owner planet) hboard).trans (Function.update_self _ _ _)
  | unmanned cargo jobs next _ hjobs hlacks hboard =>
      exact (congrArg (fun board : Board => board.owner planet) hboard).trans (Function.update_self _ _ _)

theorem gave_of_colonizes {next : Db} (hget : db.fleets.get id = some row)
    (hrelation : db.relation row.attributes.user planet = .unknown) (hone : 1 ≤ amountOf row.shipfleets colonyShip)
    (hcolonizes : Colonizes w db id row planet next) : GaveColonyShip db id next := by
  cases hcolonizes with
  | turned next hknown hturns => exact absurd hrelation hknown
  | settled cargo jobs next _ hjobs henough hboard =>
      have hnew : next.fleets.get id = some ⟨_, removed (.single colonyShip 1) row.shipfleets⟩ :=
        (congrArg (Table.get · id) (congrArg Board.fleets hboard)).trans ((Table.get_put _ hget id).trans (if_pos rfl))
      exact ⟨row, _, hget, hnew, amountOf_removed_colonyShip henough⟩
  | unmanned cargo jobs next _ hjobs hlacks hboard => exact absurd (enough_colonyShip_iff.mpr hone) hlacks

theorem turns_of_colonizes {next : Db} (hrelation : db.relation row.attributes.user planet ≠ .unknown)
    (hcolonizes : Colonizes w db id row planet next) : Turns w db (ofRow id row) row.shipfleets planet next := by
  cases hcolonizes with
  | turned next _ hturns => exact hturns
  | settled cargo jobs next hfree hjobs henough hboard => exact absurd hfree hrelation
  | unmanned cargo jobs next hfree hjobs hlacks hboard => exact absurd hfree hrelation

theorem relation_unknown_iff {user : UserId} : db.relation user planet = .unknown ↔ (db.planets planet).user = none := by
  refine ⟨Planet.user_of_unknown, fun hfree => ?_⟩
  rw [Db.relation, hfree]

end Fires

/-! ## From the request to the job -/

/-- Whatever is played before a fleet is sent to found a colony, and until its job is run: the planet costs it a
colony ship, or it flies home, exactly if it is still there and has a colony ship if the planet is free. -/
theorem colony_costs_ship_iff (w : World) {start before sent db : Db} {past future : List Event} {params : Params}
    (hfresh : start.Fresh) (hpast : run (step w) start past = some before)
    (hsend : step w before (.send params) = some sent) {time : ℤ} {id : FleetId} {planet : PlanetId}
    (hjob : ⟨time, .colonizePlanet id planet⟩ ∈ sent.delayed) (hnew : ⟨time, .colonizePlanet id planet⟩ ∉ before.delayed)
    (hfuture : run (step w) sent future = some db) {index : ℕ}
    (hready : db.ready[index]? = some (.colonizePlanet id planet)) :
    ∃ carried, sent.fleets.get id = some carried ∧
      (CostsColonyShip db id planet carried (founding w db index id planet) ↔ CanFound db id planet) := by
  obtain ⟨fleet, hout⟩ := send_setsOut hsend hjob hnew
  obtain ⟨hid, hunderway⟩ := hout.underway (tidy_of_run hfresh hpast) hsend
  have hlater := run_invariant (fun _ _ _ hunderway hstep => Underway.step hunderway hstep) hunderway hfuture
  have hpending : 0 < db.board.colonizations id := by
    rw [Db.colonizations_taken hready, if_pos (show Job.settler? (.colonizePlanet id planet) = some id from rfl)]
    exact Nat.succ_pos _
  let carried : FleetRow := ⟨fleet.toAttributes, added (params.shipHash w) []⟩
  refine ⟨carried, hid ▸ hout.row, ?_⟩
  let taken : Db := { db with ready := db.ready.eraseIdx index }
  cases hget : db.fleets.get id with
  | none =>
      rw [founding_of_none index planet hget]
      refine iff_of_false ?_ fun ⟨row, hrow, _⟩ => Option.some_ne_none row (hrow.symm.trans hget)
      rw [CostsColonyShip, if_neg fun h => h.1 h.2]
      rintro ⟨row, -, hrow, -⟩
      exact Option.some_ne_none row (hrow.symm.trans hget)
  | some row =>
      obtain ⟨huser, -, hmanned, hships⟩ := hlater.row hpending row hget
      rw [founding_of_some index planet hget]
      have htaken : taken.fleets.get id = some row := hget
      have hcolonizes := colonize_colonizes w htaken planet
      by_cases hrelation : taken.relation row.attributes.user planet = .unknown
      · have hfree : (db.planets planet).user = none := relation_unknown_iff.mp hrelation
        have hreturned := colonize_returned_iff w htaken hrelation
        have howner := owner_of_colonizes hrelation hcolonizes
        have hdiffers : (db.planets planet).user ≠ some fleet.user := by
          rw [hfree]
          exact Option.some_ne_none _ ∘ Eq.symm
        rw [huser] at howner
        rw [CostsColonyShip, if_pos ⟨hdiffers, howner⟩]
        constructor
        · rintro ⟨-, -, hok⟩
          exact ⟨row, hget, fun _ => hreturned.mp hok⟩
        · rintro ⟨found, hfound, henough⟩
          obtain rfl := Option.some.inj (hget.symm.trans hfound)
          have hone := henough hfree
          have hgave : GaveColonyShip taken id _ := gave_of_colonizes htaken hrelation hone hcolonizes
          exact ⟨hone.trans (hships colonyShip), hgave, hreturned.mpr hone⟩
      · have howned : (db.planets planet).user ≠ none := fun hfree => hrelation (relation_unknown_iff.mpr hfree)
        have hturns := turns_of_colonizes hrelation hcolonizes
        have hcosts : CostsColonyShip taken id planet carried _ := costs_of_owned howned htaken hmanned hturns
        exact iff_of_true hcosts ⟨row, hget, fun hfree => absurd hfree howned⟩

/-! ## Without a colony ship -/

/-- A fleet with so many colony ships and a cargo ship goes to planet 5. -/
def emigrants (colonyShips : ℤ) : Params where
  fleet := 1
  mission := 2
  planet := some 5
  ship ship := if ship = colonyShip then some colonyShips else if ship = 1 then some 1 else none

/-- The ships are built, the fleet is sent, and its job gets ready. -/
def emigration (colonyShips : ℤ) : Option (Db × Db × Db) := do
  let before ← run (step Seeds.world) Seeds.start [.addShip colonyShip 1, .addShip 1 1, .addShip 1 1]
  let sent ← step Seeds.world before (.send (emigrants colonyShips))
  let db ← run (step Seeds.world) sent [.wait 10, .schedule 0]
  return (before, sent, db)

/-- The job of the fleet. -/
def landingJob : Enqueued := ⟨1010, .colonizePlanet 3 5⟩

/-- An emigration in which the job is enqueued and gets ready. -/
structure Emigration (before sent db : Db) (colonyShips : ℤ) : Prop where
  past : run (step Seeds.world) Seeds.start [.addShip colonyShip 1, .addShip 1 1, .addShip 1 1] = some before
  send : step Seeds.world before (.send (emigrants colonyShips)) = some sent
  future : run (step Seeds.world) sent [.wait 10, .schedule 0] = some db
  job : landingJob ∈ sent.delayed
  new : landingJob ∉ before.delayed
  ready : db.ready[0]? = some landingJob.job

theorem exists_emigration (colonyShips : ℤ) (test : Db → Db → Bool)
    (htest : ((emigration colonyShips).any fun (before, sent, db) => landingJob ∈ sent.delayed ∧ landingJob ∉ before.delayed ∧
      db.ready[0]? = some landingJob.job ∧ test sent db = true) = true) :
    ∃ before sent db, Emigration before sent db colonyShips ∧ test sent db = true := by
  rw [Option.any_eq_true] at htest
  obtain ⟨⟨before, sent, db⟩, hemigration, hholds⟩ := htest
  obtain ⟨hjob, hnew, hready, hsample⟩ := of_decide_eq_true hholds
  simp only [emigration, Option.bind_eq_bind, Option.bind_eq_some_iff, Option.pure_def, Option.some.injEq,
    Prod.mk.injEq] at hemigration
  obtain ⟨_, hpast, _, hsend, _, hfuture, rfl, rfl, rfl⟩ := hemigration
  exact ⟨_, _, _, ⟨hpast, hsend, hfuture, hjob, hnew, hready⟩, hsample⟩

theorem colony_costs_ship_iff_emigrants : ∃ before sent db carried, Emigration before sent db 1 ∧
    sent.fleets.get 3 = some carried ∧
    (CostsColonyShip db 3 5 carried (founding Seeds.world db 0 3 5) ↔ CanFound db 3 5) := by
  obtain ⟨before, sent, db, hemigration, -⟩ := exists_emigration 1 (fun _ _ => true) (by decide +kernel)
  obtain ⟨carried, hcarried, hcosts⟩ := colony_costs_ship_iff Seeds.world Seeds.start_fresh hemigration.past
    hemigration.send hemigration.job hemigration.new hemigration.future hemigration.ready
  exact ⟨before, sent, db, carried, hemigration, hcarried, hcosts⟩

/-- A fleet with no colony ship, but the key for it, founds a colony. -/
theorem colony_costs_nothing :
    ¬∀ (w : World) (start before sent db : Db) (past future : List Event) (params : Params) (time : ℤ) (id : FleetId)
      (planet : PlanetId) (index : ℕ), start.Fresh → run (step w) start past = some before →
      step w before (.send params) = some sent → ⟨time, .colonizePlanet id planet⟩ ∈ sent.delayed →
      ⟨time, .colonizePlanet id planet⟩ ∉ before.delayed → run (step w) sent future = some db →
      db.ready[index]? = some (.colonizePlanet id planet) →
      ∃ carried, sent.fleets.get id = some carried ∧
        CostsColonyShip db id planet carried (founding w db index id planet) := by
  intro hall
  obtain ⟨before, sent, db, hemigration, htest⟩ := exists_emigration 0 (fun sent db =>
    (sent.fleets.get 3).any fun carried => (db.planets 5).user ≠ some carried.attributes.user ∧
      ((after (founding Seeds.world db 0 3 5)).planets 5).user = some carried.attributes.user ∧
      amountOf carried.shipfleets colonyShip < 1) (by decide +kernel)
  obtain ⟨carried, hcarried, hcosts⟩ := hall Seeds.world Seeds.start before sent db _ _ _ _ _ _ 0 Seeds.start_fresh
    hemigration.past hemigration.send hemigration.job hemigration.new hemigration.future hemigration.ready
  rw [hcarried, Option.any_some] at htest
  obtain ⟨hdiffers, howner, hnone⟩ := of_decide_eq_true htest
  rw [CostsColonyShip, if_pos ⟨hdiffers, howner⟩] at hcosts
  exact hnone.not_ge hcosts.1

end Mmog
