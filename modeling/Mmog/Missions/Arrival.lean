import Mmog.Missions.Outcome
import Mmog.Ships.Delivery

/-!
# Arrivals

What a fleet's job leaves on the board.  A fleet that arrives turns back, joins
the home fleet of the planet, stays with an ally, settles, or is destroyed.
-/

namespace Mmog

open Ruby Action

namespace Fleet

variable (w : World) {db : Db}

/-! ## Turning back -/

/-- The fleet as it starts its flight from the planet to its origin. -/
def turned (now : ℕ) (self : Fleet) (velocity : ℕ) (planet : PlanetId) : Fleet :=
  { self with
    targetPlanet := self.originPlanet
    startPlanet := planet
    departureTime := now
    arrivalTime := (getNeededTime (((velocity : ℤ) : Numeric) * .float self.velocityFactor)
      (w.getDistance self.originPlanet planet) + ((now : ℤ) : Numeric)).toI }

/-- The board with the fleet on its flight back. -/
def turnedBoard (board : Board) (self : Fleet) (rows : List Shipfleet) : Board :=
  (board.putFleet self.id ⟨self.toAttributes, rows⟩).addJobs [⟨self.arrivalTime, .returnToOrigin self.id⟩]

/-- The ways `return_to_origin` can end: a fleet without ships has no velocity. -/
inductive Turns (db : Db) (self : Fleet) (rows : List Shipfleet) (planet : PlanetId) : Db → Prop
  | stuck (hrows : rows = []) : Turns db self rows planet db
  | turned (velocity : ℕ) (next : Db) (hrows : rows ≠ [])
      (hboard : next.board = turnedBoard db.board (turned w db.now self velocity planet) rows) :
      Turns db self rows planet next

theorem returnToOrigin_turns {self : Fleet} {row : FleetRow} (hget : db.fleets.get self.id = some row)
    (planet : PlanetId) :
    Turns w db self row.shipfleets planet (after ((self.returnToOrigin w planet).run db)) := by
  have hvelocity := getVelocity_apply w hget
  cases hmin : (row.shipfleets.map fun row => (w.ship row.shipId).velocity).min? with
  | none =>
      rw [hmin] at hvelocity
      have hnil := List.map_eq_nil_iff.mp (List.min?_eq_none_iff.mp hmin)
      rw [returnToOrigin, run_bind_of_error hvelocity]
      exact .stuck hnil
  | some velocity =>
      rw [hmin] at hvelocity
      have hrows : row.shipfleets ≠ [] := by
        intro hnil
        rw [hnil] at hmin
        cases hmin
      rw [returnToOrigin, run_bind_of_ok hvelocity, run_bind_get]
      let back := turned w db.now self velocity planet
      have hsave := save_apply (show db.fleets.get back.id = some row from hget)
      have hrun : (do back.save; Resque.enqueueAt back.arrivalTime (.returnToOrigin back.id) : Act Unit).run db = _ :=
        run_bind_of_ok hsave _
      exact .turned velocity _ hrows (congrArg (fun result => (after result).board) hrun)

/-- A fleet whose row is gone has no ships either. -/
theorem returnToOrigin_of_none {self : Fleet} (hget : db.fleets.get self.id = none) (planet : PlanetId) :
    after ((self.returnToOrigin w planet).run db) = db := by
  have hrows : self.shipfleets.run db = .ok [] db := by
    rw [shipfleets, run_bind_get, hget]
    rfl
  have hvelocity : (self.getVelocity w).run db = .error .noMethodError db := by
    rw [getVelocity, run_bind_of_ok hrows]
    rfl
  rw [returnToOrigin, run_bind_of_error hvelocity]
  rfl

/-! ## Breaking up -/

/-- The fleet as it starts back before its mission. -/
def brokenUp (now : ℕ) (self : Fleet) : Fleet :=
  { self with
    departureTime := now
    arrivalTime := now + (now - self.departureTime)
    startPlanet := self.targetPlanet
    targetPlanet := self.originPlanet }

/-- The board after the fleet's job was looked for and its return was enqueued. -/
def brokenBoard (board : Board) (self : Fleet) (rows : List Shipfleet) : Board :=
  ((board.removeDelayed (self.missionJob (board.userSetting self.user).increasedSpypower)).putFleet self.id
    ⟨(brokenUp board.now self).toAttributes, rows⟩).addJobs
      [⟨(brokenUp board.now self).arrivalTime, .returnToOrigin self.id⟩]

/-- The ways a breakup can end. -/
inductive BreaksUp (db : Db) (id : FleetId) : Db → Prop
  | missing (hget : db.fleets.get id = none) : BreaksUp db id db
  | based (row : FleetRow) (hget : db.fleets.get id = some row) (hmission : row.attributes.missionId = 1) :
      BreaksUp db id db
  | back (row : FleetRow) (next : Db) (hget : db.fleets.get id = some row) (hmission : row.attributes.missionId ≠ 1)
      (hboard : next.board = brokenBoard db.board (ofRow id row) row.shipfleets) : BreaksUp db id next

variable (db) in
theorem breakup_breaksUp (id : FleetId) : BreaksUp db id (after ((FleetsController.breakup id).run db)) := by
  cases hget : db.fleets.get id with
  | none =>
      rw [FleetsController.breakup, run_bind_of_error (find_of_none hget)]
      exact .missing hget
  | some row =>
      rw [FleetsController.breakup, run_bind_of_ok (find_of_some hget), breakupMission]
      by_cases hmission : row.attributes.missionId = 1
      · rw [if_pos (show (ofRow id row).missionId = 1 from hmission)]
        exact .based row hget hmission
      · rw [if_neg (show ¬(ofRow id row).missionId = 1 from hmission)]
        have hsave := Table.modify_eq_put
          (fun row' : FleetRow => { row' with attributes := (brokenUp db.now (ofRow id row)).toAttributes }) hget
        exact .back row _ hget hmission (congrArg (fun t => (brokenBoard db.board (ofRow id row) row.shipfleets).setFleets t) hsave)

/-! ## Joining the home fleet -/

/-- The ways a fleet with valid ships can join the home fleet of a planet; one that is this home fleet
itself is destroyed. -/
inductive Joins (db : Db) (planet : PlanetId) (id : FleetId) (row : FleetRow) : Db → Prop
  | homeless (hfirst : db.fleets.first (Db.basedAt planet) = none) : Joins db planet id row db
  | itself (hfirst : db.fleets.first (Db.basedAt planet) = some id) :
      Joins db planet id row (db.setFleets (db.fleets.destroy id))
  | joined (home : FleetId) (homeRow : FleetRow) (hfirst : db.fleets.first (Db.basedAt planet) = some home)
      (hhome : db.fleets.get home = some homeRow) (hne : home ≠ id) :
      Joins db planet id row (db.setFleets ((db.fleets.put home
        ⟨(merged w db homeRow.shipfleets row.shipfleets (ofRow home homeRow) (ofRow id row)).toAttributes,
          added (shipsOf row.shipfleets) homeRow.shipfleets⟩).destroy id))

section Row

variable {id : FleetId} {row : FleetRow} (hget : db.fleets.get id = some row)

include hget

theorem getHomeFleet_joins (hvalid : Valid row.shipfleets) (planet : PlanetId) :
    Joins w db planet id row (after ((do
      match ← getHomeFleet planet with
      | none => throw .noMethodError
      | some homeFleet => let _ ← homeFleet.mergeFleet w (some (ofRow id row)) : Act Unit).run db)) := by
  cases hfirst : db.fleets.first (Db.basedAt planet) with
  | none =>
      rw [run_bind_of_ok (getHomeFleet_of_none hfirst)]
      exact .homeless hfirst
  | some home =>
      obtain ⟨homeRow, hhome, -⟩ := Table.first_eq_some hfirst
      rw [run_bind_of_ok (getHomeFleet_of_some hfirst hhome), after_bind_pure]
      by_cases heq : home = id
      · subst heq
        obtain rfl : row = homeRow := Option.some.inj (hget.symm.trans hhome)
        have hself : db.fleets.get (ofRow home row).id = some row := hget
        rw [(mergeFleet_self w hself rfl hvalid).1]
        exact .itself hfirst
      · have hself : db.fleets.get (ofRow home homeRow).id = some homeRow := hhome
        rw [mergeFleet_apply w hself (show db.fleets.get (ofRow id row).id = some row from hget) heq hvalid]
        exact .joined home homeRow hfirst hhome heq

theorem arriveHome_joins (hvalid : Valid row.shipfleets) :
    Joins w db row.attributes.originPlanet id row (after (((ofRow id row).arriveHome w).run db)) :=
  getHomeFleet_joins w hget hvalid row.attributes.originPlanet

/-! ## Missions -/

/-- The fleet as it stays with an ally. -/
def landed (now : ℕ) (self : Fleet) : Fleet :=
  { self with
    startPlanet := self.targetPlanet
    arrivalTime := now
    departureTime := now }

section Outcomes

variable (db id row) (planet : PlanetId)

/-- The ways a travel can end. -/
inductive Travels : Db → Prop
  | turned (next : Db) (hrelation : db.relation row.attributes.user planet = .unknown ∨
        db.relation row.attributes.user planet = .enemy)
      (hturns : Turns w db (ofRow id row) row.shipfleets planet next) : Travels next
  | joined (next : Db) (hrelation : db.relation row.attributes.user planet = .own)
      (hjoins : Joins w db planet id row next) : Travels next
  | landed (hrelation : db.relation row.attributes.user planet = .allied) :
      Travels (db.setFleets (db.fleets.put id ⟨(landed db.now (ofRow id row)).toAttributes, row.shipfleets⟩))

/-- The ways a transport can end. -/
inductive Transports : Db → Prop
  | turned (next : Db) (hrelation : db.relation row.attributes.user planet = .unknown ∨
        db.relation row.attributes.user planet = .enemy)
      (hturns : Turns w db (ofRow id row) row.shipfleets planet next) : Transports next
  | unloaded (cargo : Cargo) (middle next : Db) (hrelation : db.relation row.attributes.user planet = .own ∨
        db.relation row.attributes.user planet = .allied)
      (hboard : middle.board =
        db.board.putFleet id ⟨((ofRow id row).withCargo cargo).toAttributes, row.shipfleets⟩)
      (hcargo : UnloadsTo db.Stocked (ofRow id row) cargo)
      (hturns : Turns w middle ((ofRow id row).withCargo cargo) row.shipfleets planet next) : Transports next

/-- The drone is found by an enemy. -/
def Found (r : ℚ) (ownSpyFactor : Factor) : Prop :=
  db.relation row.attributes.user planet = .enemy ∧
    Numeric.float ownSpyFactor - .float r < Numeric.lit (4 / 5)

instance (r : ℚ) (ownSpyFactor : Factor) : Decidable (Found db row planet r ownSpyFactor) :=
  inferInstanceAs (Decidable (_ ∧ _))

/-- The ways a spy mission can end. -/
inductive Spies (r : ℚ) (ownSpyFactor : Factor) : Db → Prop
  | turned (next : Db) (hsafe : ¬Found db row planet r ownSpyFactor)
      (hturns : Turns w db (ofRow id row) row.shipfleets planet next) : Spies r ownSpyFactor next
  | destroyed (hfound : Found db row planet r ownSpyFactor) :
      Spies r ownSpyFactor (db.setFleets (db.fleets.destroy id))

/-- The fleet as it makes the planet its home. -/
def settled (now : ℕ) (self : Fleet) : Fleet :=
  { self with
    startPlanet := planet
    targetPlanet := planet
    originPlanet := planet
    arrivalTime := now
    departureTime := now
    missionId := 1 }

/-- The board with a new owner of the planet and the jobs of its first buildings. -/
def claimedBoard (board : Board) (user : UserId) (jobs : List Enqueued) : Board :=
  (board.setOwner planet (some user)).addJobs jobs

/-- The ways colonising can end; a fleet without a colony ship settles all the same. -/
inductive Colonizes : Db → Prop
  | turned (next : Db) (hrelation : db.relation row.attributes.user planet ≠ .unknown)
      (hturns : Turns w db (ofRow id row) row.shipfleets planet next) : Colonizes next
  | settled (cargo : Cargo) (jobs : List Enqueued) (next : Db)
      (hrelation : db.relation row.attributes.user planet = .unknown) (hjobs : Planet.PlanetJobs jobs)
      (henough : enoughShips? row.shipfleets (.single colonyShip 1) = true)
      (hboard : next.board = (claimedBoard planet db.board row.attributes.user jobs).putFleet id
        ⟨valued w db (removed (.single colonyShip 1) row.shipfleets)
            ((settled planet db.now (ofRow id row)).withCargo cargo).toAttributes,
          removed (.single colonyShip 1) row.shipfleets⟩) : Colonizes next
  | unmanned (cargo : Cargo) (jobs : List Enqueued) (next : Db)
      (hrelation : db.relation row.attributes.user planet = .unknown) (hjobs : Planet.PlanetJobs jobs)
      (hlacks : ¬enoughShips? row.shipfleets (.single colonyShip 1) = true)
      (hboard : next.board = (claimedBoard planet db.board row.attributes.user jobs).putFleet id
        ⟨((settled planet db.now (ofRow id row)).withCargo cargo).toAttributes, row.shipfleets⟩) : Colonizes next

end Outcomes

theorem travel_travels (hvalid : Valid row.shipfleets) (planet : PlanetId) :
    Travels w db id row planet (after (((ofRow id row).travel w planet).run db)) := by
  have hturns := returnToOrigin_turns w (show db.fleets.get (ofRow id row).id = some row from hget) planet
  rw [travel, run_bind_get]
  cases hrelation : db.relation (ofRow id row).user planet with
  | unknown => exact .turned _ (.inl hrelation) hturns
  | enemy => exact .turned _ (.inr hrelation) hturns
  | own => exact .joined _ hrelation (getHomeFleet_joins w hget hvalid planet)
  | allied =>
      dsimp only
      rw [run_bind_get]
      have hsave := save_apply (show db.fleets.get (Fleet.landed db.now (ofRow id row)).id = some row from hget)
      exact (congrArg after hsave) ▸ .landed hrelation

theorem transport_transports (planet : PlanetId) :
    Transports w db id row planet (after (((ofRow id row).transport w planet).run db)) := by
  have hself : db.fleets.get (ofRow id row).id = some row := hget
  have hturns := returnToOrigin_turns w hself planet
  obtain ⟨cargo, middle, hunload, hboard, hcargo, -⟩ := unloadRessources_board hself planet
  have hmiddle : middle.fleets.get ((ofRow id row).withCargo cargo).id =
      some ⟨((ofRow id row).withCargo cargo).toAttributes, row.shipfleets⟩ := by
    have hfleets := congrArg Board.fleets hboard
    rw [show middle.fleets = middle.board.fleets from rfl, hfleets]
    exact (Table.get_put _ hget id).trans (if_pos rfl)
  have hback := returnToOrigin_turns w hmiddle planet
  have hrun : after ((do
      let self ← (ofRow id row).unloadRessources planet
      self.returnToOrigin w planet : Act Unit).run db) =
        after ((((ofRow id row).withCargo cargo).returnToOrigin w planet).run middle) :=
    congrArg after (run_bind_of_ok hunload _)
  rw [transport, run_bind_get]
  cases hrelation : db.relation (ofRow id row).user planet with
  | unknown => exact .turned _ (.inl hrelation) hturns
  | enemy => exact .turned _ (.inr hrelation) hturns
  | own => exact hrun ▸ .unloaded cargo middle _ (.inl hrelation) hboard hcargo hback
  | allied => exact hrun ▸ .unloaded cargo middle _ (.inr hrelation) hboard hcargo hback

theorem spy_spies (r : ℚ) (ownSpyFactor : Factor) (planet : PlanetId) :
    Spies w db id row planet r ownSpyFactor (after (((ofRow id row).spy w r ownSpyFactor planet).run db)) := by
  have hturns := returnToOrigin_turns w (show db.fleets.get (ofRow id row).id = some row from hget) planet
  rw [spy, run_bind_get]
  have hsafe : db.relation (ofRow id row).user planet ≠ .enemy → ¬Found db row planet r ownSpyFactor :=
    fun hne hfound => hne hfound.1
  cases hrelation : db.relation (ofRow id row).user planet with
  | enemy =>
      by_cases hweak : Numeric.float ownSpyFactor - .float r < Numeric.lit (4 / 5)
      · dsimp only
        rw [if_pos hweak]
        exact .destroyed ⟨hrelation, hweak⟩
      · dsimp only
        rw [if_neg hweak]
        exact .turned _ (fun hfound => hweak hfound.2) hturns
  | unknown => exact .turned _ (hsafe (by rw [hrelation]; nofun)) hturns
  | own => exact .turned _ (hsafe (by rw [hrelation]; nofun)) hturns
  | allied => exact .turned _ (hsafe (by rw [hrelation]; nofun)) hturns

/-- What a settler keeps aboard: a third of the capacity of each kind, if there is no room for what it has. -/
def trimmed (whole : Fleet) : Cargo :=
  let third := (whole.getCapacity / 3).toI
  if whole.getCapacity < (whole.getAmountOfRessources : Numeric) then ⟨third, third, third⟩ else whole.toCargo

section Settling

variable {self : Fleet} {landed : FleetRow} {planet : PlanetId} {claimed middle : Db} {cargo : Cargo}
  (hclaim : (Planet.claim w planet self.user).run db = .ok ⟨⟩ claimed)
  (hunload : ((settled planet claimed.now self).unloadRessources planet).run claimed =
    .ok ((settled planet claimed.now self).withCargo cargo) middle)
  (hmiddle : middle.fleets.get self.id = some landed)

include hclaim hunload hmiddle

omit hget in
/-- A settler with a colony ship gives it up and keeps what then has room. -/
theorem settle_apply (henough : enoughShips? landed.shipfleets (.single colonyShip 1) = true) :
    let rows := removed (.single colonyShip 1) landed.shipfleets
    let whole := revalued w middle rows ((settled planet claimed.now self).withCargo cargo)
    (self.settle w planet).run db = .ok ⟨⟩ (middle.setFleets (middle.fleets.put self.id
      ⟨valued w middle rows (whole.withCargo (trimmed whole)).toAttributes, rows⟩)) := by
  intro rows whole
  let home := (settled planet claimed.now self).withCargo cargo
  have hhome : middle.fleets.get home.id = some landed := hmiddle
  have hdestroy := destroyShips_apply w hhome henough
  let left := middle.setFleets (middle.fleets.put self.id ⟨whole.toAttributes, rows⟩)
  have hkept : (if whole.getCapacity < (whole.getAmountOfRessources : Numeric) then
      { whole with
        ore := (whole.getCapacity / 3).toI
        crystal := (whole.getCapacity / 3).toI
        credit := (whole.getCapacity / 3).toI } else whole) = whole.withCargo (trimmed whole) := by
    unfold trimmed
    split <;> rfl
  have hleft : left.fleets.get (whole.withCargo (trimmed whole)).id = some ⟨whole.toAttributes, rows⟩ :=
    (Table.get_put _ hmiddle self.id).trans (if_pos rfl)
  have hupdate := updateValues_apply w hleft
  have hfinal : left.setFleets (left.fleets.put self.id
      ⟨valued w left rows (whole.withCargo (trimmed whole)).toAttributes, rows⟩) =
        middle.setFleets (middle.fleets.put self.id
          ⟨valued w middle rows (whole.withCargo (trimmed whole)).toAttributes, rows⟩) := by
    rw [valued_setFleets]
    exact congrArg middle.setFleets (Table.put_put _ _ _ _)
  have hrun : ∀ fleet : Fleet, fleet = whole.withCargo (trimmed whole) →
      (do let _ ← fleet.updateValues w : Act Unit).run left = .ok ⟨⟩ (middle.setFleets (middle.fleets.put self.id
        ⟨valued w middle rows (whole.withCargo (trimmed whole)).toAttributes, rows⟩)) := by
    rintro fleet rfl
    rw [← hfinal]
    exact run_bind_of_ok hupdate _
  rw [settle, run_bind_of_ok hclaim, run_bind_get]
  exact (run_bind_of_ok hunload _).trans ((run_bind_of_ok hdestroy _).trans (hrun _ hkept))

omit hget in
/-- A settler without a colony ship raises, after it has claimed the planet and unloaded. -/
theorem settle_not_enough (henough : ¬enoughShips? landed.shipfleets (.single colonyShip 1) = true) :
    (self.settle w planet).run db = .error (.runtimeError cannotDestroy) middle := by
  have hhome : middle.fleets.get ((settled planet claimed.now self).withCargo cargo).id = some landed := hmiddle
  have hdestroy := destroyShips_not_enough w hhome henough
  rw [settle, run_bind_of_ok hclaim, run_bind_get]
  exact (run_bind_of_ok hunload _).trans (run_bind_of_error hdestroy _)

end Settling

/-- Settling a planet that was claimed. -/
theorem settle_claimed {planet : PlanetId} {claimed : Db} {jobs : List Enqueued}
    (hclaim : (Planet.claim w planet (ofRow id row).user).run db = .ok ⟨⟩ claimed)
    (hclaimed : claimed.board = claimedBoard planet db.board row.attributes.user jobs)
    (hjobs : Planet.PlanetJobs jobs) (hrelation : db.relation row.attributes.user planet = .unknown) :
    Colonizes w db id row planet (after (((ofRow id row).settle w planet).run db)) := by
  let home := settled planet claimed.now (ofRow id row)
  have hfleets : claimed.fleets = db.fleets := congrArg Board.fleets hclaimed
  have hnow : claimed.now = db.now := congrArg Board.now hclaimed
  have hself : claimed.fleets.get home.id = some row := by
    rw [hfleets]
    exact hget
  obtain ⟨cargo, middle, hunload, hboard, -, -⟩ := unloadRessources_board hself planet
  have hmiddle : middle.fleets.get (ofRow id row).id = some ⟨(home.withCargo cargo).toAttributes, row.shipfleets⟩ := by
    rw [show middle.fleets = middle.board.fleets from rfl, hboard]
    exact (Table.get_put _ hself home.id).trans (if_pos rfl)
  have hhome : home = settled planet db.now (ofRow id row) := by
    unfold home
    rw [hnow]
  by_cases henough : enoughShips? row.shipfleets (.single colonyShip 1) = true
  · let rows := removed (.single colonyShip 1) row.shipfleets
    let whole := revalued w middle rows (home.withCargo cargo)
    have hvalues : valued w middle rows (whole.withCargo (trimmed whole)).toAttributes =
        valued w db rows (home.withCargo (trimmed whole)).toAttributes := by
      have hcargo : (whole.withCargo (trimmed whole)).toAttributes =
          valued w middle rows (home.withCargo (trimmed whole)).toAttributes :=
        (valued_withCargo w middle rows (home.withCargo cargo).toAttributes (trimmed whole)).symm
      have hsetting : middle.board.userSetting = db.board.userSetting := by
        rw [hboard, hclaimed]
        rfl
      have huser : (middle.users row.attributes.user).userSetting = (db.users row.attributes.user).userSetting :=
        congrFun hsetting row.attributes.user
      rw [hcargo, valued_valued]
      unfold valued
      rw [show (home.withCargo (trimmed whole)).toAttributes.user = row.attributes.user from rfl, huser]
    rw [settle_apply w hclaim hunload hmiddle henough]
    refine .settled (trimmed whole) jobs _ hrelation hjobs henough ?_
    change middle.board.putFleet id ⟨valued w middle rows (whole.withCargo (trimmed whole)).toAttributes, rows⟩ = _
    rw [hvalues, hboard, hclaimed, hhome]
    exact Board.putFleet_putFleet _ id _ _
  · rw [settle_not_enough w hclaim hunload hmiddle henough]
    refine .unmanned cargo jobs middle hrelation hjobs henough (hboard.trans ?_)
    rw [hclaimed, ← hhome]
    rfl

theorem colonize_colonizes (planet : PlanetId) :
    Colonizes w db id row planet (after (((ofRow id row).colonize w planet).run db)) := by
  have hturns := returnToOrigin_turns w (show db.fleets.get (ofRow id row).id = some row from hget) planet
  rw [colonize, run_bind_get]
  have howned : db.relation (ofRow id row).user planet ≠ .unknown →
      Colonizes w db id row planet (after (((ofRow id row).returnToOrigin w planet).run db)) :=
    fun hne => .turned _ hne hturns
  cases hrelation : db.relation (ofRow id row).user planet with
  | unknown =>
      obtain ⟨claimed, jobs, hclaim, hjobs, hclaimed, -⟩ :=
        Planet.claim_board w row.attributes.user (Planet.user_of_unknown hrelation)
      exact settle_claimed w hget hclaim hclaimed hjobs hrelation
  | own => exact howned (by rw [hrelation]; nofun)
  | allied => exact howned (by rw [hrelation]; nofun)
  | enemy => exact howned (by rw [hrelation]; nofun)

end Row

end Fleet

end Mmog
