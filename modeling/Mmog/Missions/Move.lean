import Mmog.Missions.Undo

/-!
# Starting a mission

What `move` does after the split: a mission that can be paid for is either
carried out as a whole or stopped halfway, any other one ends with the fleets
merged again.
-/

namespace Mmog

open Ruby Action

namespace Fleet

variable (w : World)

/-! ## The flight -/

/-- The time and the energy of a flight; a fleet without ships has no slowest one. -/
def flightOf (velocityFactor : Factor) (rows : List Shipfleet) (distance : Numeric) :
    Option (Numeric × Numeric) :=
  (rows.map fun row => (w.ship row.shipId).velocity).min?.map fun velocity : ℕ =>
    let time := getNeededTime ((velocity : ℤ) * .float velocityFactor) distance
    (time, (shipsOf rows).entries.foldl
      (fun fuel (ship, amount) => fuel + getNeededFuel w ship time * (amount : Numeric)) 0)

section Flight

variable {db : Db} {self : Fleet} {row : FleetRow}

theorem getVelocity_apply (hget : db.fleets.get self.id = some row) :
    (self.getVelocity w).run db =
      match (row.shipfleets.map fun row => (w.ship row.shipId).velocity).min? with
      | some velocity => .ok ((velocity : ℤ) * .float self.velocityFactor) db
      | none => .error .noMethodError db := by
  rw [getVelocity, run_bind_of_ok (shipfleets_apply hget)]
  cases (row.shipfleets.map fun row => (w.ship row.shipId).velocity).min? <;> rfl

theorem flight_apply (hget : db.fleets.get self.id = some row) (distance : Numeric) :
    (self.flight w distance).run db =
      match flightOf w self.velocityFactor row.shipfleets distance with
      | some needed => .ok needed db
      | none => .error .noMethodError db := by
  have hvelocity := getVelocity_apply w hget
  rw [flight, flightOf]
  cases hmin : (row.shipfleets.map fun row => (w.ship row.shipId).velocity).min? with
  | none =>
      rw [hmin] at hvelocity
      rw [run_bind_of_error hvelocity]
      rfl
  | some velocity =>
      rw [hmin] at hvelocity
      have hfuel : ∀ time, (self.getNeededFuelAll w time).run db =
          .ok ((shipsOf row.shipfleets).entries.foldl
            (fun fuel (ship, amount) => fuel + getNeededFuel w ship time * (amount : Numeric)) 0)
            db := by
        intro time
        rw [getNeededFuelAll, run_bind_of_ok (getShips_apply hget)]
        rfl
      rw [run_bind_of_ok hvelocity]
      exact run_bind_of_ok (hfuel _) _

end Flight

theorem flightOf_isSome {velocityFactor : Factor} {rows : List Shipfleet} (hrows : rows ≠ [])
    (distance : Numeric) : ∃ needed, flightOf w velocityFactor rows distance = some needed := by
  unfold flightOf
  cases hmin : (rows.map fun row => (w.ship row.shipId).velocity).min? with
  | none =>
      rw [List.min?_eq_none_iff, List.map_eq_nil_iff] at hmin
      exact absurd hmin hrows
  | some velocity => exact ⟨_, rfl⟩

theorem getNeededTime_nonneg {velocity distance : Numeric} (hvelocity : 0 ≤ velocity.value)
    (hdistance : 0 ≤ distance.value) : 0 ≤ (getNeededTime velocity distance).value := by
  unfold getNeededTime
  split
  · exact le_refl _
  · exact Numeric.value_mul_nonneg (Numeric.value_div_nonneg hdistance hvelocity) (by norm_num)

theorem velocity_nonneg (velocity : ℕ) (factor : Factor) :
    0 ≤ ((velocity : ℤ) * Numeric.float factor : Numeric).value :=
  Numeric.value_mul_nonneg (by rw [Numeric.value_int]; positivity) (zero_le_one.trans factor.2)

theorem flightOf_nonneg {velocityFactor : Factor} {rows : List Shipfleet} {distance : Numeric}
    (hdistance : 0 ≤ distance) {needed : Numeric × Numeric}
    (hneeded : flightOf w velocityFactor rows distance = some needed) : 0 ≤ needed.1.value := by
  obtain ⟨velocity, -, rfl⟩ := Option.map_eq_some_iff.mp hneeded
  exact getNeededTime_nonneg (velocity_nonneg velocity velocityFactor) hdistance

/-! ## What a mission needs -/

/-- The missions a fleet can start. -/
def Starts (mission : MissionId) : Prop := 2 ≤ mission ∧ mission ≤ 6

instance (mission : MissionId) : Decidable (Starts mission) :=
  inferInstanceAs (Decidable (_ ∧ _))

theorem starts_iff {mission : MissionId} :
    Starts mission ↔ mission = 2 ∨ mission = 3 ∨ mission = 4 ∨ mission = 5 ∨ mission = 6 := by
  have hrange : ∀ n : ℕ, 2 ≤ n ∧ n ≤ 6 ↔ n = 2 ∨ n = 3 ∨ n = 4 ∨ n = 5 ∨ n = 6 := by
    intro n
    omega
  exact hrange mission

/-- A mission that loads is asked for no negative amounts. -/
def Loadable (mission : MissionId) (ore crystal credit : ℤ) : Prop :=
  mission = 2 ∨ mission = 6 → ¬ (ore < 0 ∨ crystal < 0 ∨ credit < 0)

/-- The ships are those the mission asks for. -/
def Manned (mission : MissionId) (ships : Hash ShipId ℤ) : Prop :=
  (mission = 2 → colonyShip ∈ ships.keys) ∧ (mission = 5 → ships = .single spyDrone 1)

/-- What stops a mission after it was paid for. -/
def MissionReady (mission : MissionId) (ships : Hash ShipId ℤ) (ore crystal credit : ℤ) : Prop :=
  Loadable mission ore crystal credit ∧ Manned mission ships

/-- The fleet as its row has it once it is on its mission. -/
def sent (self : Fleet) (mission : MissionId) (cargo : Cargo) : Fleet :=
  { self.withCargo cargo with missionId := mission }

@[simp] theorem sent_id (self : Fleet) (mission : MissionId) (cargo : Cargo) :
    (self.sent mission cargo).id = self.id := rfl

/-- The cargo a fleet can leave with: a colonising fleet loads twice. -/
def LeavesWith (stocked : Prop) (mission : MissionId) (self : Fleet) (cargo : Cargo) : Prop :=
  if mission = 2 then
    ∃ first, LoadsTo stocked self first ∧ LoadsTo stocked (self.withCargo first) cargo
  else if mission = 6 then LoadsTo stocked self cargo
  else cargo = self.toCargo

theorem LeavesWith.of_imp {stocked stocked' : Prop} {mission : MissionId} {self : Fleet}
    {cargo : Cargo} (hleaves : LeavesWith stocked mission self cargo) (himp : stocked' → stocked) :
    LeavesWith stocked' mission self cargo := by
  unfold LeavesWith at hleaves ⊢
  split_ifs at hleaves ⊢
  · obtain ⟨first, hfirst, hsecond⟩ := hleaves
    exact ⟨first, hfirst.of_imp himp, hsecond.of_imp himp⟩
  · exact hleaves.of_imp himp
  · exact hleaves

/-! ## Departing -/

section Depart

variable {db : Db} {self fleet : Fleet} {row : FleetRow}

/-- The board when the energy has been taken from the fleet's planet. -/
def paidBoard (db : Db) (fleet : Fleet) (energy : Numeric) : Board :=
  db.board.setEnergy fleet.originPlanet
    (Planet.energyAfter (db.planets fleet.originPlanet).energy energy)

/-- The board when the fleet is on its way to the mission's job. -/
def departedBoard (db : Db) (fleet : Fleet) (rows : List Shipfleet) (mission : MissionId)
    (energy : Numeric) (cargo : Cargo) : Board :=
  ((paidBoard db fleet energy).putFleet fleet.id
      ⟨(fleet.sent mission cargo).toAttributes, rows⟩).addJobs
    [⟨fleet.arrivalTime, (fleet.sent mission cargo).missionJob
      (db.users fleet.user).userSetting.increasedSpypower⟩]

theorem enqueueAt_board (timestamp : ℤ) (job : Job) (db : Db) :
    ∃ next, (Resque.enqueueAt timestamp job).run db = .ok ⟨⟩ next ∧
      next.board = db.board.addJobs [⟨timestamp, job⟩] ∧ (db.Stocked → next.Stocked) :=
  ⟨_, rfl, rfl, fun hdb => ⟨hdb.planets, hdb.money⟩⟩

theorem depart_paid {energy : Numeric} (mission : MissionId) (prepare : Fleet → Act Fleet)
    (enqueue : Fleet → Act Unit)
    (henergy : energy ≤ ((db.planets fleet.originPlanet).energy : Numeric)) :
    ∃ paid, paid.board = paidBoard db fleet energy ∧ (db.Stocked → paid.Stocked) ∧
      (depart w self fleet mission energy prepare enqueue).run db =
        (do
          let fleet ← prepare fleet
          let fleet : Fleet := { fleet with missionId := mission }
          fleet.save
          enqueue fleet : Act Unit).run paid := by
  obtain ⟨back, paid, htake, hboard, hstocked⟩ :=
    Planet.take_energy fleet.originPlanet energy db
  refine ⟨paid, hboard, hstocked, ?_⟩
  rw [depart]
  dsimp only
  rw [run_bind_get, if_pos henergy]
  exact run_bind_of_ok htake _

theorem depart_poor {energy : Numeric} (mission : MissionId) (prepare : Fleet → Act Fleet)
    (enqueue : Fleet → Act Unit)
    (henergy : ¬ energy ≤ ((db.planets fleet.originPlanet).energy : Numeric)) :
    (depart w self fleet mission energy prepare enqueue).run db =
      (do
        let _ ← self.mergeFleet w (some fleet)
        raise "Not enough energy to move the fleet" : Act Unit).run db := by
  rw [depart]
  dsimp only
  rw [run_bind_get, if_neg henergy]

/-- The parts of a branch that can be carried out make up the branch. -/
theorem depart_ok {energy : Numeric} (mission : MissionId) {prepare : Fleet → Act Fleet}
    {enqueue : Fleet → Act Unit} {First : Cargo → Prop} {Second : Cargo → Cargo → Prop}
    (hget : db.fleets.get fleet.id = some row)
    (henergy : energy ≤ ((db.planets fleet.originPlanet).energy : Numeric))
    (hprepare : ∀ paid : Db, paid.fleets.get fleet.id = some row → (db.Stocked → paid.Stocked) →
      ∃ cargo loaded attributes, (prepare fleet).run paid = .ok (fleet.withCargo cargo) loaded ∧
        loaded.board = paid.board.putFleet fleet.id ⟨attributes, row.shipfleets⟩ ∧ First cargo ∧
        (db.Stocked → loaded.Stocked))
    (henqueue : ∀ (saved : Db) (cargo : Cargo),
      saved.fleets.get fleet.id =
        some ⟨(fleet.sent mission cargo).toAttributes, row.shipfleets⟩ →
      saved.board.userSetting = db.board.userSetting → (db.Stocked → saved.Stocked) →
      ∃ final next, (enqueue (fleet.sent mission cargo)).run saved = .ok ⟨⟩ next ∧
        next.board = (saved.board.putFleet fleet.id
          ⟨(fleet.sent mission final).toAttributes, row.shipfleets⟩).addJobs
            [⟨fleet.arrivalTime, (fleet.sent mission final).missionJob
              (db.users fleet.user).userSetting.increasedSpypower⟩] ∧
        Second cargo final ∧ (db.Stocked → next.Stocked)) :
    ∃ first final next,
      (depart w self fleet mission energy prepare enqueue).run db = .ok ⟨⟩ next ∧
        next.board = departedBoard db fleet row.shipfleets mission energy final ∧
        First first ∧ Second first final ∧ (db.Stocked → next.Stocked) := by
  obtain ⟨paid, hpaid, hstocked, hrun⟩ :=
    depart_paid w mission prepare enqueue henergy
  have hpaidFleets : paid.fleets = db.fleets := congrArg Board.fleets hpaid
  obtain ⟨cargo, loaded, attributes, hload, hloaded, hfirst, hstocked'⟩ :=
    hprepare paid (hpaidFleets ▸ hget) hstocked
  have hrow : loaded.fleets.get (fleet.sent mission cargo).id =
      some ⟨attributes, row.shipfleets⟩ := by
    have hfleets : loaded.fleets = paid.fleets.put fleet.id ⟨attributes, row.shipfleets⟩ :=
      congrArg Board.fleets hloaded
    rw [hfleets, hpaidFleets, sent_id, Table.get_put _ hget, if_pos rfl]
  obtain ⟨saved, hsave, hsaved, hstocked''⟩ := save_board hrow
  have hsavedBoard : saved.board = (paidBoard db fleet energy).putFleet fleet.id
      ⟨(fleet.sent mission cargo).toAttributes, row.shipfleets⟩ := by
    rw [hsaved, hloaded, hpaid]
    exact Board.putFleet_putFleet _ _ _ _
  have hsavedRow : saved.fleets.get fleet.id =
      some ⟨(fleet.sent mission cargo).toAttributes, row.shipfleets⟩ := by
    have hfleets : saved.fleets = db.fleets.put fleet.id
        ⟨(fleet.sent mission cargo).toAttributes, row.shipfleets⟩ :=
      congrArg Board.fleets hsavedBoard
    rw [hfleets, Table.get_put _ hget, if_pos rfl]
  obtain ⟨final, next, henqueue, hnext, hsecond, hstocked⟩ :=
    henqueue saved cargo hsavedRow
      ((congrArg Board.userSetting hsavedBoard).trans rfl) fun hdb => hstocked'' (hstocked' hdb)
  refine ⟨cargo, final, next, ?_, ?_, hfirst, hsecond, hstocked⟩
  · rw [hrun, run_bind_of_ok hload]
    exact (run_bind_of_ok hsave _).trans henqueue
  · rw [hnext, hsavedBoard]
    exact congrArg (Board.addJobs · _) (Board.putFleet_putFleet _ _ _ _)

/-! ## The branches -/

theorem prepare_nothing (paid : Db)
    (hpaid : paid.fleets.get fleet.id = some row) (hstocked : db.Stocked → paid.Stocked) :
    ∃ cargo loaded attributes, (pure fleet : Act Fleet).run paid = .ok (fleet.withCargo cargo) loaded ∧
      loaded.board = paid.board.putFleet fleet.id ⟨attributes, row.shipfleets⟩ ∧
      cargo = fleet.toCargo ∧ (db.Stocked → loaded.Stocked) :=
  ⟨fleet.toCargo, paid, row.attributes, rfl, (Board.putFleet_self hpaid).symm, rfl, hstocked⟩

theorem prepare_load {ore crystal credit : ℤ} (hload : ¬ (ore < 0 ∨ crystal < 0 ∨ credit < 0))
    (paid : Db) (hpaid : paid.fleets.get fleet.id = some row)
    (hstocked : db.Stocked → paid.Stocked) :
    ∃ cargo loaded attributes,
      (fleet.loadRessources ore crystal credit fleet.originPlanet).run paid =
        .ok (fleet.withCargo cargo) loaded ∧
      loaded.board = paid.board.putFleet fleet.id ⟨attributes, row.shipfleets⟩ ∧
      LoadsTo db.Stocked fleet cargo ∧ (db.Stocked → loaded.Stocked) := by
  obtain ⟨cargo, loaded, hrun, hboard, hloads, hstocked'⟩ :=
    loadRessources_board hpaid fleet.originPlanet hload
  exact ⟨cargo, loaded, _, hrun, hboard, hloads.of_imp hstocked, fun hdb => hstocked' (hstocked hdb)⟩

/-- Enqueuing the job of a mission that has all it needs. -/
theorem enqueue_job {mission : MissionId} (enqueue : Fleet → Act Unit)
    (henqueue : ∀ (saved : Db) (cargo : Cargo),
      saved.fleets.get fleet.id =
        some ⟨(fleet.sent mission cargo).toAttributes, row.shipfleets⟩ →
      saved.board.userSetting = db.board.userSetting →
      (enqueue (fleet.sent mission cargo)).run saved =
        (Resque.enqueueAt fleet.arrivalTime ((fleet.sent mission cargo).missionJob
          (db.users fleet.user).userSetting.increasedSpypower)).run saved)
    (saved : Db) (cargo : Cargo)
    (hsaved : saved.fleets.get fleet.id =
      some ⟨(fleet.sent mission cargo).toAttributes, row.shipfleets⟩)
    (hsetting : saved.board.userSetting = db.board.userSetting)
    (hstocked : db.Stocked → saved.Stocked) :
    ∃ final next, (enqueue (fleet.sent mission cargo)).run saved = .ok ⟨⟩ next ∧
      next.board = (saved.board.putFleet fleet.id
        ⟨(fleet.sent mission final).toAttributes, row.shipfleets⟩).addJobs
          [⟨fleet.arrivalTime, (fleet.sent mission final).missionJob
            (db.users fleet.user).userSetting.increasedSpypower⟩] ∧
      final = cargo ∧ (db.Stocked → next.Stocked) := by
  obtain ⟨next, hrun, hnext, hstocked'⟩ := enqueueAt_board fleet.arrivalTime
    ((fleet.sent mission cargo).missionJob (db.users fleet.user).userSetting.increasedSpypower) saved
  refine ⟨cargo, next, (henqueue saved cargo hsaved hsetting).trans hrun, ?_, rfl,
    fun hdb => hstocked' (hstocked hdb)⟩
  rw [hnext]
  exact congrArg (Board.addJobs · _) (Board.putFleet_self hsaved).symm

theorem costs_not_negative (ship : Ship) :
    ¬ ((ship.oreCost : ℤ) < 0 ∨ (ship.crystalCost : ℤ) < 0 ∨ (ship.creditCost : ℤ) < 0) := by
  simp [not_or]

theorem colonizePlanetIn_ok (hcolony : colonyShip ∈ (shipsOf row.shipfleets).keys)
    (harrival : 0 ≤ fleet.arrivalTime) (saved : Db) (cargo : Cargo)
    (hsaved : saved.fleets.get fleet.id = some ⟨(fleet.sent 2 cargo).toAttributes, row.shipfleets⟩)
    (hstocked : db.Stocked → saved.Stocked) :
    ∃ final next, ((fleet.sent 2 cargo).colonizePlanetIn w fleet.arrivalTime
          fleet.targetPlanet).run saved = .ok ⟨⟩ next ∧
      next.board = (saved.board.putFleet fleet.id
        ⟨(fleet.sent 2 final).toAttributes, row.shipfleets⟩).addJobs
          [⟨fleet.arrivalTime, (fleet.sent 2 final).missionJob
            (db.users fleet.user).userSetting.increasedSpypower⟩] ∧
      LoadsTo db.Stocked (fleet.withCargo cargo) final ∧ (db.Stocked → next.Stocked) := by
  have hget : saved.fleets.get (fleet.sent 2 cargo).id =
      some ⟨(fleet.sent 2 cargo).toAttributes, row.shipfleets⟩ := hsaved
  have hships := getShips_apply hget
  obtain ⟨final, loaded, hload, hboard, hloads, hstocked'⟩ := loadRessources_board
    hget (fleet.sent 2 cargo).originPlanet (costs_not_negative (w.ship colonyShip))
  obtain ⟨next, henqueue, hnext, hstocked''⟩ :=
    enqueueAt_board fleet.arrivalTime (.colonizePlanet fleet.id fleet.targetPlanet) loaded
  refine ⟨final, next, ?_, ?_, hloads.of_imp hstocked,
    fun hdb => hstocked'' (hstocked' (hstocked hdb))⟩
  · rw [colonizePlanetIn, run_bind_of_ok hships, if_neg (not_not.mpr hcolony)]
    dsimp only
    rw [if_neg (not_lt.mpr harrival)]
    exact (run_bind_of_ok hload _).trans henqueue
  · rw [hnext, hboard]
    rfl

theorem spyPlanetIn_ok (hdrone : shipsOf row.shipfleets = .single spyDrone 1)
    (harrival : 0 ≤ fleet.arrivalTime) (saved : Db) (cargo : Cargo)
    (hsaved : saved.fleets.get fleet.id = some ⟨(fleet.sent 5 cargo).toAttributes, row.shipfleets⟩)
    (hsetting : saved.board.userSetting = db.board.userSetting) :
    ((fleet.sent 5 cargo).spyPlanetIn fleet.arrivalTime fleet.targetPlanet).run saved =
      (Resque.enqueueAt fleet.arrivalTime ((fleet.sent 5 cargo).missionJob
        (db.users fleet.user).userSetting.increasedSpypower)).run saved := by
  have hships := getShips_apply (show saved.fleets.get (fleet.sent 5 cargo).id = _ from hsaved)
  have husers : (saved.users fleet.user).userSetting = (db.users fleet.user).userSetting :=
    congrFun hsetting fleet.user
  rw [spyPlanetIn, run_bind_of_ok hships, if_neg (not_not.mpr hdrone)]
  dsimp only
  rw [if_neg (not_lt.mpr harrival)]
  refine Eq.trans rfl ?_
  rw [← husers]
  rfl

/-- A branch that loads nothing. -/
theorem depart_plain {energy : Numeric} (mission : MissionId) (enqueue : Fleet → Act Unit)
    (hget : db.fleets.get fleet.id = some row)
    (henergy : energy ≤ ((db.planets fleet.originPlanet).energy : Numeric))
    (henqueue : ∀ (saved : Db) (cargo : Cargo),
      saved.fleets.get fleet.id =
        some ⟨(fleet.sent mission cargo).toAttributes, row.shipfleets⟩ →
      saved.board.userSetting = db.board.userSetting →
      (enqueue (fleet.sent mission cargo)).run saved =
        (Resque.enqueueAt fleet.arrivalTime ((fleet.sent mission cargo).missionJob
          (db.users fleet.user).userSetting.increasedSpypower)).run saved) :
    ∃ next, (depart w self fleet mission energy pure enqueue).run db = .ok ⟨⟩ next ∧
      next.board = departedBoard db fleet row.shipfleets mission energy fleet.toCargo ∧
      (db.Stocked → next.Stocked) := by
  obtain ⟨_, _, next, hrun, hnext, rfl, rfl, hstocked⟩ :=
    depart_ok w mission hget henergy prepare_nothing (enqueue_job enqueue henqueue)
  exact ⟨next, hrun, hnext, hstocked⟩

/-- A mission that is paid for and has what it needs leaves. -/
theorem launch_ok {mission : MissionId} {energy : Numeric} {ore crystal credit : ℤ}
    (hget : db.fleets.get fleet.id = some row) (harrival : 0 ≤ fleet.arrivalTime)
    (hstarts : Starts mission)
    (henergy : MissionsController.doubled mission energy ≤
      ((db.planets fleet.originPlanet).energy : Numeric))
    (hready : MissionReady mission (shipsOf row.shipfleets) ore crystal credit) :
    ∃ cargo next,
      (launch w self fleet mission energy fleet.targetPlanet ore crystal credit).run db =
        .ok ⟨⟩ next ∧
      next.board = departedBoard db fleet row.shipfleets mission
        (MissionsController.doubled mission energy) cargo ∧
      LeavesWith db.Stocked mission fleet cargo ∧ (db.Stocked → next.Stocked) := by
  rcases starts_iff.mp hstarts with rfl | rfl | rfl | rfl | rfl
  · obtain ⟨first, final, next, hrun, hnext, hfirst, hfinal, hstocked⟩ := @depart_ok w
      db self fleet row _ 2
      (fun fleet' => fleet'.loadRessources ore crystal credit fleet'.originPlanet)
      (fun fleet' => fleet'.colonizePlanetIn w fleet'.arrivalTime fleet.targetPlanet)
      _ _ hget henergy (prepare_load (hready.1 (.inl rfl)))
      (fun saved cargo hsaved _ hstocked =>
        colonizePlanetIn_ok w (hready.2.1 rfl) harrival saved cargo hsaved hstocked)
    exact ⟨final, next, hrun, hnext, ⟨first, hfirst, hfinal⟩, hstocked⟩
  · obtain ⟨next, hrun, hnext, hstocked⟩ := depart_plain w 3
      (fun fleet' => fleet'.attackPlanetIn fleet'.arrivalTime fleet.targetPlanet) hget henergy
      fun saved cargo _ _ => congrArg (EStateM.run · saved) (if_neg (not_lt.mpr harrival))
    exact ⟨_, next, hrun, hnext, rfl, hstocked⟩
  · obtain ⟨next, hrun, hnext, hstocked⟩ := depart_plain w 4
      (fun fleet' => fleet'.travelToPlanetIn fleet'.arrivalTime fleet.targetPlanet) hget henergy
      fun saved cargo _ _ => congrArg (EStateM.run · saved) (if_neg (not_lt.mpr harrival))
    exact ⟨_, next, hrun, hnext, rfl, hstocked⟩
  · obtain ⟨next, hrun, hnext, hstocked⟩ := depart_plain w 5
      (fun fleet' => fleet'.spyPlanetIn fleet'.arrivalTime fleet.targetPlanet) hget henergy
      (spyPlanetIn_ok (hready.2.2 rfl) harrival)
    exact ⟨_, next, hrun, hnext, rfl, hstocked⟩
  · obtain ⟨first, _, next, hrun, hnext, hfirst, rfl, hstocked⟩ := @depart_ok w
      db self fleet row _ 6
      (fun fleet' => fleet'.loadRessources ore crystal credit fleet'.originPlanet)
      (fun fleet' => fleet'.transportToPlanetIn fleet'.arrivalTime fleet.targetPlanet)
      _ _ hget henergy (prepare_load (hready.1 (.inr rfl)))
      (enqueue_job (fun fleet' => fleet'.transportToPlanetIn fleet'.arrivalTime fleet.targetPlanet)
        fun saved cargo _ _ =>
        congrArg (EStateM.run · saved) (if_neg (not_lt.mpr harrival)))
    exact ⟨_, next, hrun, hnext, hfirst, hstocked⟩

theorem depart_stopped {energy : Numeric} {mission : MissionId} (prepare : Fleet → Act Fleet)
    (enqueue : Fleet → Act Unit)
    (henergy : energy ≤ ((db.planets fleet.originPlanet).energy : Numeric))
    (hstopped : ∀ paid : Db, paid.fleets = db.fleets → ∃ err next old,
      (do
        let fleet ← prepare fleet
        let fleet : Fleet := { fleet with missionId := mission }
        fleet.save
        enqueue fleet : Act Unit).run paid = .error err next ∧
      next.fleets.get fleet.id = some old) :
    ∃ err next old, (depart w self fleet mission energy prepare enqueue).run db = .error err next ∧
      next.fleets.get fleet.id = some old := by
  obtain ⟨paid, hpaid, -, hrun⟩ := depart_paid w mission prepare enqueue henergy
  rw [hrun]
  exact hstopped paid (congrArg Board.fleets hpaid)

/-- The row of a fleet that could load and was saved with its mission. -/
theorem saved_of_prepared {mission : MissionId} (prepare : Fleet → Act Fleet) {paid loaded : Db}
    {cargo : Cargo} {attributes : Attributes} (hpaid : paid.fleets.get fleet.id = some row)
    (hload : (prepare fleet).run paid = .ok (fleet.withCargo cargo) loaded)
    (hloaded : loaded.board = paid.board.putFleet fleet.id ⟨attributes, row.shipfleets⟩)
    (enqueue : Fleet → Act Unit) :
    ∃ saved : Db,
      saved.fleets.get fleet.id =
        some ⟨(fleet.sent mission cargo).toAttributes, row.shipfleets⟩ ∧
      (do
        let fleet ← prepare fleet
        let fleet : Fleet := { fleet with missionId := mission }
        fleet.save
        enqueue fleet : Act Unit).run paid = (enqueue (fleet.sent mission cargo)).run saved := by
  have hfleets : loaded.fleets = paid.fleets.put fleet.id ⟨attributes, row.shipfleets⟩ :=
    congrArg Board.fleets hloaded
  have hrow : loaded.fleets.get (fleet.sent mission cargo).id =
      some ⟨attributes, row.shipfleets⟩ := by
    rw [hfleets, sent_id, Table.get_put _ hpaid, if_pos rfl]
  refine ⟨_, ?_, (run_bind_of_ok hload _).trans (run_bind_of_ok (save_apply hrow) _)⟩
  exact (Table.get_put _ hrow _).trans (if_pos rfl)

/-- A mission that is paid for but lacks something is stopped with its fleet under way. -/
theorem launch_stopped {mission : MissionId} {energy : Numeric} {ore crystal credit : ℤ}
    (hget : db.fleets.get fleet.id = some row) (hstarts : Starts mission)
    (henergy : MissionsController.doubled mission energy ≤
      ((db.planets fleet.originPlanet).energy : Numeric))
    (hready : ¬ MissionReady mission (shipsOf row.shipfleets) ore crystal credit) :
    ∃ err next old,
      (launch w self fleet mission energy fleet.targetPlanet ore crystal credit).run db =
        .error err next ∧ next.fleets.get fleet.id = some old := by
  have hnegative : ∀ (paid : Db) (rest : Fleet → Act Unit), paid.fleets = db.fleets →
      (ore < 0 ∨ crystal < 0 ∨ credit < 0) → ∃ err next old,
        (fleet.loadRessources ore crystal credit fleet.originPlanet >>= rest).run paid =
          .error err next ∧ next.fleets.get fleet.id = some old := by
    intro paid rest hpaid hnegative
    obtain ⟨message, hraise⟩ :=
      loadRessources_negative fleet.originPlanet hnegative
    exact ⟨_, paid, row, run_bind_of_error hraise _, hpaid ▸ hget⟩
  rcases starts_iff.mp hstarts with rfl | rfl | rfl | rfl | rfl
  · refine depart_stopped w
      (fun fleet' => fleet'.loadRessources ore crystal credit fleet'.originPlanet)
      (fun fleet' => fleet'.colonizePlanetIn w fleet'.arrivalTime fleet.targetPlanet)
      henergy fun paid hpaid => ?_
    by_cases hload : ore < 0 ∨ crystal < 0 ∨ credit < 0
    · exact hnegative paid _ hpaid hload
    · have hcolony : colonyShip ∉ (shipsOf row.shipfleets).keys := by
        intro hcolony
        exact hready ⟨fun _ => hload, fun _ => hcolony, fun h => absurd h (by decide)⟩
      have hpaidRow : paid.fleets.get fleet.id = some row := hpaid ▸ hget
      obtain ⟨cargo, loaded, hrun, hboard, -⟩ :=
        loadRessources_board hpaidRow fleet.originPlanet hload
      obtain ⟨saved, hsaved, hrest⟩ := saved_of_prepared
        (fun fleet => fleet.loadRessources ore crystal credit fleet.originPlanet)
        hpaidRow hrun hboard
        fun fleet' => fleet'.colonizePlanetIn w fleet'.arrivalTime fleet.targetPlanet
      have hraise : ((fleet.sent 2 cargo).colonizePlanetIn w fleet.arrivalTime
          fleet.targetPlanet).run saved =
            .error (.runtimeError "Fleet has no Colony Ship") saved := by
        have hget : saved.fleets.get (fleet.sent 2 cargo).id = _ := hsaved
        rw [colonizePlanetIn, run_bind_of_ok (getShips_apply hget), if_pos hcolony, run_bind_raise]
      exact ⟨_, saved, _, hrest.trans hraise, hsaved⟩
  · exact absurd ⟨fun h => absurd h (by decide), fun h => absurd h (by decide),
      fun h => absurd h (by decide)⟩ hready
  · exact absurd ⟨fun h => absurd h (by decide), fun h => absurd h (by decide),
      fun h => absurd h (by decide)⟩ hready
  · refine depart_stopped w pure
      (fun fleet' => fleet'.spyPlanetIn fleet'.arrivalTime fleet.targetPlanet)
      henergy fun paid hpaid => ?_
    have hdrone : shipsOf row.shipfleets ≠ .single spyDrone 1 := by
      intro hdrone
      exact hready ⟨fun h => absurd h (by decide), fun h => absurd h (by decide), fun _ => hdrone⟩
    have hpaidRow : paid.fleets.get fleet.id = some row := hpaid ▸ hget
    obtain ⟨saved, hsaved, hrest⟩ := saved_of_prepared pure hpaidRow rfl
      (Board.putFleet_self hpaidRow).symm
      fun fleet' => fleet'.spyPlanetIn fleet'.arrivalTime fleet.targetPlanet
    have hraise : ((fleet.sent 5 fleet.toCargo).spyPlanetIn fleet.arrivalTime
        fleet.targetPlanet).run saved =
          .error (.runtimeError "Only one Spy Drone for spy-missions allowed") saved := by
      have hget : saved.fleets.get (fleet.sent 5 fleet.toCargo).id = _ := hsaved
      rw [spyPlanetIn, run_bind_of_ok (getShips_apply hget), if_pos hdrone, run_bind_raise]
    exact ⟨_, saved, _, hrest.trans hraise, hsaved⟩
  · refine depart_stopped w
      (fun fleet' => fleet'.loadRessources ore crystal credit fleet'.originPlanet)
      (fun fleet' => fleet'.transportToPlanetIn fleet'.arrivalTime fleet.targetPlanet)
      henergy fun paid hpaid => ?_
    refine hnegative paid _ hpaid (by_contra fun hload => hready ⟨fun _ => hload,
      fun h => absurd h (by decide), fun h => absurd h (by decide)⟩)

theorem launch_eq_depart {mission : MissionId} (hstarts : Starts mission) (energy : Numeric)
    (planet : PlanetId) (ore crystal credit : ℤ) :
    ∃ prepare enqueue, launch w self fleet mission energy planet ore crystal credit =
      depart w self fleet mission (MissionsController.doubled mission energy) prepare enqueue := by
  unfold launch
  rcases starts_iff.mp hstarts with rfl | rfl | rfl | rfl | rfl
  all_goals exact ⟨_, _, rfl⟩

/-- Any other mission ends with the two fleets merged. -/
theorem launch_merges {mission : MissionId} {energy : Numeric} {ore crystal credit : ℤ}
    {whole : Fleet} {next : Db}
    (hstarts : ¬ (Starts mission ∧ MissionsController.doubled mission energy ≤
      ((db.planets fleet.originPlanet).energy : Numeric)))
    (hmerge : (self.mergeFleet w (some fleet)).run db = .ok whole next) (planet : PlanetId) :
    ∃ err, (launch w self fleet mission energy planet ore crystal credit).run db =
      .error err next := by
  by_cases hmission : Starts mission
  · have henergy : ¬ MissionsController.doubled mission energy ≤
        ((db.planets fleet.originPlanet).energy : Numeric) :=
      fun henergy => hstarts ⟨hmission, henergy⟩
    have hraise : (do
        let _ ← self.mergeFleet w (some fleet)
        raise "Not enough energy to move the fleet" : Act Unit).run db =
          .error (.runtimeError "Not enough energy to move the fleet") next :=
      run_bind_of_ok hmerge _
    obtain ⟨prepare, enqueue, hbranch⟩ :=
      launch_eq_depart w hmission energy planet ore crystal credit
    rw [hbranch, depart_poor w mission prepare enqueue henergy]
    exact ⟨_, hraise⟩
  · have hraise : (do
        let _ ← self.mergeFleet w (some fleet)
        throw .noMethodError : Act Unit).run db = .error .noMethodError next :=
      run_bind_of_ok hmerge _
    refine ⟨.noMethodError, ?_⟩
    rw [launch]
    · exact hraise
    all_goals
      rintro rfl
      exact hmission (by decide)

end Depart

/-! ## The whole of it -/

section Move

variable {db : Db} {self : Fleet} {row : FleetRow} {shipHash : Hash ShipId ℤ} {user : UserId}
variable {mission : MissionId} {destination : PlanetId} {ore crystal credit : ℤ}

theorem atHome_iff {attributes : Attributes} :
    atHome attributes = true ↔ attributes.originPlanet = attributes.startPlanet ∧
      attributes.originPlanet = attributes.targetPlanet := by
  rw [atHome, decide_eq_true_iff]
  exact ⟨fun h => ⟨h.2.symm, h.1.symm⟩, fun h => ⟨h.2.symm, h.1.symm⟩⟩

/-- The fleet that `move` sends, with its destination and times. -/
def outbound (db : Db) (leaves : Fleet) (time : Numeric) (destination : PlanetId) : Fleet :=
  { leaves with
    departureTime := db.now
    arrivalTime := (((db.now : ℤ) : Numeric) + time).toI
    targetPlanet := destination }

theorem outbound_setFleets (db : Db) (t : Table FleetRow) : outbound (db.setFleets t) = outbound db :=
  rfl

/-- The flight of the new fleet after a split. -/
theorem flight_leaving (db : Db) (shipHash : Hash ShipId ℤ) (user : UserId)
    (rows : List Shipfleet) (self : Fleet) (cargo : Cargo) (distance : Numeric) :
    (((leaving w db shipHash user self).withCargo cargo).flight w distance).run
        (db.setFleets (splitTable w db shipHash user rows self)) =
      match flightOf w (leaving w db shipHash user self).velocityFactor (added shipHash [])
          distance with
      | some needed => .ok needed (db.setFleets (splitTable w db shipHash user rows self))
      | none => .error .noMethodError (db.setFleets (splitTable w db shipHash user rows self)) := by
  have hget : (db.setFleets (splitTable w db shipHash user rows self)).fleets.get
      ((leaving w db shipHash user self).withCargo cargo).id =
        some ⟨(leaving w db shipHash user self).toAttributes, added shipHash []⟩ :=
    Table.get_create_self _ _
  exact flight_apply w hget distance

theorem move_away (haway : ¬ atHome self.toAttributes = true) :
    ∃ message, (self.move w mission destination shipHash ore crystal credit).run db =
      .error (.runtimeError message) db := by
  have hcheck : (!decide (self.originPlanet = self.startPlanet ∧
      self.originPlanet = self.targetPlanet)) = true := by
    rw [Bool.not_eq_true', decide_eq_false_iff_not]
    exact mt atHome_iff.mpr haway
  rw [move, if_pos hcheck, run_bind_raise]
  exact ⟨_, rfl⟩

/-- The part of `move` that comes after the split. -/
def launchFrom (mission : MissionId) (destination : PlanetId) (ore crystal credit : ℤ)
    (fleets : Fleet × Fleet) : Act Unit := do
  let (time, energy) ← fleets.2.flight w (w.getDistance fleets.2.originPlanet destination)
  launch w fleets.1 (outbound (← get) fleets.2 time destination) mission energy destination
    ore crystal credit

theorem launchFrom_apply {stays leaves : Fleet} {time energy : Numeric}
    (hflight : (leaves.flight w (w.getDistance leaves.originPlanet destination)).run db =
      .ok (time, energy) db) :
    (launchFrom w mission destination ore crystal credit (stays, leaves)).run db =
      (launch w stays (outbound db leaves time destination) mission energy destination
        ore crystal credit).run db := by
  rw [launchFrom, run_bind_of_ok hflight]
  exact run_bind_get _ db

theorem move_eq (hhome : atHome self.toAttributes = true) :
    self.move w mission destination shipHash ore crystal credit =
      self.splitFleet w shipHash >>= launchFrom w mission destination ore crystal credit := by
  rw [move, if_neg (by simpa using atHome_iff.mp hhome)]
  rfl

theorem move_not_enough (hget : db.fleets.get self.id = some row)
    (hhome : atHome self.toAttributes = true)
    (henough : ¬ enoughShips? row.shipfleets shipHash = true) :
    (self.move w mission destination shipHash ore crystal credit).run db =
      .error (.runtimeError "Not enough ships for a split") db := by
  rw [move_eq w hhome]
  exact run_bind_of_error (splitFleet_not_enough w hget henough) _

theorem move_of_unowned (hget : db.fleets.get self.id = some row)
    (hhome : atHome self.toAttributes = true)
    (henough : enoughShips? row.shipfleets shipHash = true)
    (howner : (db.planets self.originPlanet).user = none) :
    (self.move w mission destination shipHash ore crystal credit).run db =
      .error .noMethodError (db.setFleets (db.fleets.put self.id
        ⟨valued w db row.shipfleets self.toAttributes, row.shipfleets⟩)) := by
  rw [move_eq w hhome]
  exact run_bind_of_error (splitFleet_of_unowned w hget henough howner) _

section Owned

variable (hget : db.fleets.get self.id = some row) (hhome : atHome self.toAttributes = true)
variable (henough : enoughShips? row.shipfleets shipHash = true)
variable (howner : (db.planets self.originPlanet).user = some user)
include hget hhome henough howner

theorem move_split_fails (hfails : SplitFails w db shipHash row.shipfleets self) :
    (self.move w mission destination shipHash ore crystal credit).run db =
      .error .floatDomainError
        (db.setFleets (splitTable w db shipHash user row.shipfleets self)) := by
  rw [move_eq w hhome]
  exact run_bind_of_error (splitFleet_fails w hget henough howner hfails) _

variable (hfails : ¬ SplitFails w db shipHash row.shipfleets self)
include hfails

/-- Without ships there is no velocity to fly with. -/
theorem move_no_ships (hships : shipHash.entries = []) :
    (self.move w mission destination shipHash ore crystal credit).run db =
      .error .noMethodError
        (db.setFleets (splitTable w db shipHash user row.shipfleets self)) := by
  have hempty : shipHash = Hash.empty := Hash.ext hships
  rw [move_eq w hhome, run_bind_of_ok (splitFleet_ok w hget henough howner hfails)]
  refine run_bind_of_error ?_ _
  rw [flight_leaving, hempty]
  rfl

theorem move_launch {time energy : Numeric}
    (hflight : flightOf w (leaving w db shipHash user self).velocityFactor (added shipHash [])
      (w.getDistance self.originPlanet destination) = some (time, energy)) :
    (self.move w mission destination shipHash ore crystal credit).run db =
      (launch w
        ((staying w db shipHash row.shipfleets self).withCargo
          (splitCargo w db shipHash user row.shipfleets self).1)
        (outbound db ((leaving w db shipHash user self).withCargo
          (splitCargo w db shipHash user row.shipfleets self).2) time destination)
        mission energy destination ore crystal credit).run
        (db.setFleets (splitTable w db shipHash user row.shipfleets self)) := by
  rw [move_eq w hhome, run_bind_of_ok (splitFleet_ok w hget henough howner hfails)]
  have hrun := flight_leaving w db shipHash user row.shipfleets self
    (splitCargo w db shipHash user row.shipfleets self).2 (w.getDistance self.originPlanet destination)
  rw [hflight, ← leaving_originPlanet w db shipHash user self] at hrun
  rw [launchFrom_apply w hrun, outbound_setFleets]

end Owned

end Move

end Fleet

end Mmog
