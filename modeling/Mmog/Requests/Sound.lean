import Mmog.Requests.Check

/-!
# A mission that was checked

`send_fleet` starts the mission when the check finds nothing wrong.  The check
does not ask whether the fleet is at home, and it lets the mission of a based
fleet pass; `move` refuses both.  Apart from these, what the check has seen is
all that `move` needs.
-/

namespace Mmog

open Ruby Action Fleet

namespace MissionsController

variable (w : World) {db : Db} {params : Params} {row : FleetRow} {user : UserId}

/-! ## What the check has seen -/

theorem find_eq_some_iff {id mission : MissionId} :
    Mission.find id = some mission ↔ (1 ≤ id ∧ id ≤ 6) ∧ id = mission := by
  unfold Mission.find
  split <;> simp_all

/-- The request of a check without complaints. -/
structure Accepted (w : World) (db : Db) (params : Params) (fleet : Fleet) (user : UserId) :
    Prop where
  mission : 1 ≤ params.mission ∧ params.mission ≤ 6
  planet : ∃ planet, params.planet = some planet ∧ fleet.originPlanet ≠ planet
  ready : MissionReady params.mission (params.shipHash w) params.ore params.crystal params.credit
  energy : ∀ time energy, checkNeeds w db params fleet user = some (time, energy) →
    doubled params.mission energy ≤ ((db.planets fleet.originPlanet).energy : Numeric)

/-- A complaint that is not there was not due. -/
theorem not_of_complaint {condition : Prop} [Decidable condition] {complaint : String}
    (hnone : (if condition then [complaint] else []) = []) : ¬ condition := by
  intro hcondition
  rw [if_pos hcondition] at hnone
  cases hnone

theorem accepted_of_allErrors {self : Fleet}
    (hnone : allErrors w db params self row user = []) : Accepted w db params self user := by
  rw [allErrors, List.append_eq_nil_iff, earlyErrors, List.append_eq_nil_iff,
    List.append_eq_nil_iff, harmlessErrors, List.append_eq_nil_iff, List.append_eq_nil_iff] at hnone
  obtain ⟨⟨⟨hmission, hplanet⟩, ⟨hnegative, haway⟩, hmissions⟩, hcritical⟩ := hnone
  obtain ⟨mission, hfind⟩ : ∃ mission, Mission.find params.mission = some mission :=
    Option.ne_none_iff_exists'.mp (by simpa using not_of_complaint hmission)
  obtain ⟨planet, hplanet'⟩ : ∃ planet, params.planet = some planet :=
    Option.ne_none_iff_exists'.mp (by simpa using not_of_complaint hplanet)
  obtain ⟨hrange, rfl⟩ := find_eq_some_iff.mp hfind
  rw [hfind] at hmissions
  simp only [List.append_eq_nil_iff] at hmissions
  obtain ⟨⟨⟨⟨hcolony, hdrone⟩, -⟩, -⟩, -⟩ := hmissions
  refine ⟨hrange, ⟨planet, hplanet', fun heq => ?_⟩, ⟨fun _ => ?_, fun htwo => ?_, fun hfive => ?_⟩,
    fun time energy hneeds => ?_⟩
  · exact not_of_complaint haway (heq ▸ hplanet'.symm)
  · have hamounts := not_of_complaint hnegative
    tauto
  · exact by_contra fun hnot => not_of_complaint hcolony ⟨htwo, hnot⟩
  · exact by_contra fun hnot => not_of_complaint hdrone ⟨hfive, hnot⟩
  · rw [hneeds, Option.map_some] at hcritical
    have hpoor : ¬ ((db.planets self.originPlanet).energy : Numeric) < comparedEnergy params energy :=
      not_of_complaint (List.append_eq_nil_iff.mp hcritical).1
    rw [comparedEnergy, hfind] at hpoor
    exact Numeric.not_lt_iff.mp hpoor

/-! ## The second split -/

section Again

variable (db params row user) in
/-- The row of the fleet after a check that got to its end. -/
def checkedRow : FleetRow :=
  restored w db row.shipfleets (ofRow params.fleet row)
    ((splitCargo w db (params.shipHash w) user row.shipfleets (ofRow params.fleet row)).1 +
      (splitCargo w db (params.shipHash w) user row.shipfleets (ofRow params.fleet row)).2)

variable (db params row user) in
/-- The state after a check that got to its end. -/
def checkedDb : Db :=
  db.setFleets (db.fleets.put params.fleet (checkedRow w db params row user)).skip

variable (params user) in
theorem valued_checkedRow (t : Table FleetRow) (rows : List Shipfleet) :
    valued w (db.setFleets t) rows (checkedRow w db params row user).attributes =
      { valued w db rows row.attributes with
        toCargo := (checkedRow w db params row user).attributes.toCargo } := by
  rw [valued_setFleets]
  unfold checkedRow restored
  rw [valued_withCargo, valued_valued]
  rfl

variable (db params row user) in
theorem checkedRow_toRoute :
    (checkedRow w db params row user).attributes.toRoute = row.attributes.toRoute :=
  valued_toRoute w db row.shipfleets row.attributes

variable (user) in
theorem get_checkedDb (hget : db.fleets.get params.fleet = some row) :
    (checkedDb w db params row user).fleets.get params.fleet =
      some (checkedRow w db params row user) := by
  rw [checkedDb, Db.fleets_setFleets, Table.get_skip, Table.get_put _ hget, if_pos rfl]

variable (db params row user) in
theorem getCapacity_again (rows : List Shipfleet) :
    (revalued w (checkedDb w db params row user) rows
        (ofRow params.fleet (checkedRow w db params row user))).getCapacity =
      (revalued w db rows (ofRow params.fleet row)).getCapacity := by
  unfold revalued getCapacity checkedDb
  rw [ofRow_toAttributes, valued_checkedRow]
  rfl

/-- The second split does not divide by zero when the first one did not. -/
theorem not_splitFails_again
    (hfails : ¬ SplitFails w db (params.shipHash w) row.shipfleets (ofRow params.fleet row)) :
    ¬ SplitFails w (checkedDb w db params row user) (params.shipHash w) row.shipfleets
      (ofRow params.fleet (checkedRow w db params row user)) := by
  rintro ⟨hover, hzero⟩
  rw [getCapacity_again] at hzero
  have hfits : ¬ Overloaded w db (params.shipHash w) row.shipfleets (ofRow params.fleet row) :=
    fun hover => hfails ⟨hover, hzero⟩
  -- then the first split handed no cargo over, and the second one sees the same fleet
  have hcargo : (checkedRow w db params row user).attributes.toCargo = row.attributes.toCargo := by
    unfold checkedRow splitCargo
    rw [if_neg hfits]
    exact Cargo.add_nothing _
  have hamount : (ofRow params.fleet (checkedRow w db params row user)).getAmountOfRessources =
      (ofRow params.fleet row).getAmountOfRessources :=
    congrArg (fun cargo : Cargo => cargo.ore + cargo.credit + cargo.crystal) hcargo
  unfold Overloaded staying at hover hfits
  rw [getCapacity_again, hamount] at hover
  exact hfits hover

variable (db params row user) in
theorem moveNeeds_again {planet : PlanetId} (hplanet : params.planet = some planet) :
    moveNeeds w (checkedDb w db params row user)
        (ofRow params.fleet (checkedRow w db params row user)) planet (params.shipHash w) user =
      checkNeeds w db params (ofRow params.fleet row) user := by
  have horigin : (ofRow params.fleet (checkedRow w db params row user)).originPlanet =
      (ofRow params.fleet row).originPlanet :=
    congrArg Route.originPlanet (checkedRow_toRoute w db params row user)
  unfold moveNeeds checkNeeds leaving checkedDb
  rw [horigin, hplanet, valued_setFleets]
  rfl

end Again

/-! ## The outcomes of a request -/

section Send

variable (db params)

/-- A check of a fleet that was split, without complaints. -/
structure Passed (row : FleetRow) (user : UserId) : Prop where
  get : db.fleets.get params.fleet = some row
  ships : (params.shipHash w).entries ≠ []
  enough : enoughShips? row.shipfleets (params.shipHash w) = true
  owner : (db.planets row.attributes.originPlanet).user = some user
  split : ¬ SplitFails w db (params.shipHash w) row.shipfleets (ofRow params.fleet row)
  accepted : Accepted w db params (ofRow params.fleet row) user

/-- The ways a request can end. -/
inductive SendOutcome : EStateM.Result Err Db Unit → Prop
  | raised (err : Err) (next : Db) (hrun : (checkHelper w params).run db = .error err next)
      (hcheck : CheckOutcome w db params (.error err next)) :
      SendOutcome (.error err next)
  | complained (fehler : List String) (next : Db)
      (hrun : (checkHelper w params).run db = .ok fehler next)
      (hcheck : CheckOutcome w db params (.ok fehler next)) (hfehler : fehler ≠ []) :
      SendOutcome (.ok ⟨⟩ next)
  | away (row : FleetRow) (user : UserId) (message : String) (hpassed : Passed w db params row user)
      (haway : ¬ atHome row.attributes = true) :
      SendOutcome (.error (.runtimeError message) (checkedDb w db params row user))
  | based (row : FleetRow) (user : UserId) (err : Err) (hpassed : Passed w db params row user)
      (hhome : atHome row.attributes = true) (hmission : params.mission = 1) :
      SendOutcome (.error err (checkedDb w (checkedDb w db params row user) params
        (checkedRow w db params row user) user))
  | left (row : FleetRow) (user : UserId) (planet : PlanetId) (next : Db)
      (hpassed : Passed w db params row user) (hhome : atHome row.attributes = true)
      (hmission : params.mission ≠ 1) (hplanet : params.planet = some planet)
      (hmove : MoveOutcome w (checkedDb w db params row user)
        (ofRow params.fleet (checkedRow w db params row user)) (checkedRow w db params row user)
        params.mission planet (params.shipHash w) params.ore params.crystal params.credit
        (.ok ⟨⟩ next)) :
      SendOutcome (.ok ⟨⟩ next)

variable {db params}

theorem run_sendFleet_of_error {err : Err} {next : Db}
    (hcheck : (checkHelper w params).run db = .error err next) :
    (sendFleet w params).run db = .error err next := by
  rw [sendFleet, run_bind_of_error hcheck]

theorem run_sendFleet_of_complaints {fehler : List String} {next : Db}
    (hcheck : (checkHelper w params).run db = .ok fehler next) (hfehler : fehler ≠ []) :
    (sendFleet w params).run db = .ok ⟨⟩ next := by
  rw [sendFleet, run_bind_of_ok hcheck, if_neg hfehler]
  rfl

theorem run_sendFleet_of_passed (hpassed : Passed w db params row user) {planet : PlanetId}
    (hplanet : params.planet = some planet)
    (hcheck : (checkHelper w params).run db = .ok [] (checkedDb w db params row user)) :
    (sendFleet w params).run db =
      ((ofRow params.fleet (checkedRow w db params row user)).move w params.mission planet
        (params.shipHash w) params.ore params.crystal params.credit).run
          (checkedDb w db params row user) := by
  rw [sendFleet, run_bind_of_ok hcheck, if_pos rfl,
    run_bind_of_ok (find_of_some (get_checkedDb w user hpassed.get)),
    find_eq_some_iff.mpr ⟨hpassed.accepted.mission, rfl⟩, hplanet]

variable (db params) in
/-- Every request has one of the outcomes. -/
theorem send_outcome : SendOutcome w db params ((sendFleet w params).run db) := by
  have hcheck := check_outcome w db params
  cases hrun : (checkHelper w params).run db with
  | error err next =>
      rw [run_sendFleet_of_error w hrun]
      exact .raised err next hrun (hrun ▸ hcheck)
  | ok fehler next =>
      by_cases hfehler : fehler = []
      swap
      · rw [run_sendFleet_of_complaints w hrun hfehler]
        exact .complained fehler next hrun (hrun ▸ hcheck) hfehler
      rw [hrun] at hcheck
      cases hcheck with
      | early row fehler hget hne hearly => exact absurd hfehler hne
      | undone row user hget hships henough howner hfails =>
          have hpassed : Passed w db params row user :=
            ⟨hget, hships, henough, howner, hfails, accepted_of_allErrors w hfehler⟩
          obtain ⟨planet, hplanet, -⟩ := hpassed.accepted.planet
          have hget' := get_checkedDb w user hget
          have hmove := move_outcome w (ofRow params.fleet (checkedRow w db params row user)) hget'
            params.mission planet (params.shipHash w) params.ore params.crystal params.credit
          have hroute := checkedRow_toRoute w db params row user
          rw [run_sendFleet_of_passed w hpassed hplanet (hfehler ▸ hrun)]
          generalize ((ofRow params.fleet (checkedRow w db params row user)).move w
            params.mission planet (params.shipHash w) params.ore params.crystal
            params.credit).run (checkedDb w db params row user) = result at hmove ⊢
          have horigin : (checkedRow w db params row user).attributes.originPlanet =
              row.attributes.originPlanet := congrArg Route.originPlanet hroute
          have hhome : atHome (checkedRow w db params row user).attributes =
              atHome row.attributes := by
            unfold atHome
            rw [hroute]
          have howner' : ((checkedDb w db params row user).planets
              (ofRow params.fleet (checkedRow w db params row user)).originPlanet).user =
                some user := by
            rw [show (ofRow params.fleet (checkedRow w db params row user)).originPlanet =
              row.attributes.originPlanet from horigin]
            exact howner
          have hsame := hmove
          cases hmove with
          | refused message hrefused =>
              refine .away row user message hpassed fun h => hrefused ⟨?_, henough⟩
              exact hhome.trans h
          | unowned hhome' henough' hunowned =>
              rw [howner'] at hunowned
              cases hunowned
          | leftSplit user' err hhome' henough' howner'' hstuck =>
              exact absurd hstuck (not_or.mpr ⟨not_splitFails_again w hfails, hships⟩)
          | mergedBack user' time energy err hhome' henough' howner'' hfails' hships' hneeds hpoor =>
              obtain rfl : user = user' := Option.some.inj (howner'.symm.trans howner'')
              rw [moveNeeds_again w db params row user hplanet] at hneeds
              have henergy := hpassed.accepted.energy time energy hneeds
              have hstarts : ¬ Starts params.mission := by
                intro hstarts
                refine hpoor ⟨hstarts, ?_⟩
                rw [show (ofRow params.fleet (checkedRow w db params row user)).originPlanet =
                  row.attributes.originPlanet from horigin]
                exact henergy
              have hmission : params.mission = 1 := by
                have hrange := hpassed.accepted.mission
                unfold Starts at hstarts
                have hone : ∀ n : ℕ, 1 ≤ n ∧ n ≤ 6 → ¬ (2 ≤ n ∧ n ≤ 6) → n = 1 := by
                  intro n
                  omega
                exact hone params.mission hrange hstarts
              exact .based row user err hpassed (hhome ▸ hhome') hmission
          | stopped user' time energy err next old hhome' henough' howner'' hfails' hships' hneeds
              hpaid hready hnew =>
              exact absurd hpassed.accepted.ready hready
          | left user' time energy cargo next hhome' henough' howner'' hfails' hships' hneeds hpaid
              hready hboard hcargo hstocked =>
              refine .left row user planet next hpassed (hhome ▸ hhome') ?_ hplanet hsame
              intro hone
              have hstarts := hpaid.1
              rw [hone] at hstarts
              exact absurd hstarts (by decide)

end Send

/-! ## Soundness of the check -/

/-- The energy that the check compares with that of the planet. -/
def neededEnergy (params : Params) : Act Numeric := do
  let fleet ← Fleet.find params.fleet
  let (_, newFleet) ← fleet.splitFleet w (params.shipHash w)
  let (_, energy) ← newFleet.flight w (w.distanceTo fleet.originPlanet params.planet)
  return comparedEnergy params energy

/-- One new fleet is on its way, with one job, and the other fleets are where they were. -/
def OneFleetLeft (db next : Db) : Prop :=
  ∃ id row spypower, db.fleets.get id = none ∧ next.fleets.get id = some row ∧
    row.attributes.startPlanet ≠ row.attributes.targetPlanet ∧
    next.delayed = db.delayed ++
      [⟨row.attributes.arrivalTime, (ofRow id row).missionJob spypower⟩] ∧
    next.ready = db.ready ∧
    ∀ other, other ≠ id → (next.fleets.get other).map (fun row => row.attributes.toRoute) =
      (db.fleets.get other).map fun row => row.attributes.toRoute

/-- The request starts the mission, for the energy that was compared. -/
def StartsMission (db checked : Db) (params : Params) : Prop :=
  ∃ next row energy middle, (sendFleet w params).run db = .ok ⟨⟩ next ∧
    db.fleets.get params.fleet = some row ∧
    (neededEnergy w params).run db = .ok energy middle ∧
    (fun p => (next.planets p).energy) =
      Function.update (fun p => (db.planets p).energy) row.attributes.originPlanet
        (Planet.energyAfter (db.planets row.attributes.originPlanet).energy energy) ∧
    OneFleetLeft checked next

/-- The fleet is at home and is not asked to stay there. -/
def MayLeave (db : Db) (params : Params) : Prop :=
  params.mission ≠ 1 ∧
    ∀ row, db.fleets.get params.fleet = some row → atHome row.attributes = true

theorem run_neededEnergy (hpassed : Passed w db params row user) {time energy : Numeric}
    (hneeds : checkNeeds w db params (ofRow params.fleet row) user = some (time, energy)) :
    (neededEnergy w params).run db = .ok (comparedEnergy params energy)
      (db.setFleets (splitTable w db (params.shipHash w) user row.shipfleets
        (ofRow params.fleet row))) := by
  have hflight := flight_leaving w db (params.shipHash w) user row.shipfleets
    (ofRow params.fleet row)
    (splitCargo w db (params.shipHash w) user row.shipfleets (ofRow params.fleet row)).2
    (w.distanceTo (ofRow params.fleet row).originPlanet params.planet)
  unfold checkNeeds at hneeds
  rw [hneeds] at hflight
  rw [neededEnergy, run_bind_of_ok (find_of_some hpassed.get),
    run_bind_of_ok (splitFleet_ok w hpassed.get hpassed.enough
      hpassed.owner hpassed.split)]
  exact run_bind_of_ok hflight _

theorem oneFleetLeft_of_departed {self : Fleet} {shipHash : Hash ShipId ℤ} {planet : PlanetId}
    {mission : MissionId} {energy time : Numeric} {cargo : Cargo} {next : Db}
    (hget : db.fleets.get self.id = some row) (hself : self.toAttributes = row.attributes)
    (haway : self.originPlanet ≠ planet)
    (hboard : next.board = departedBoard
      (db.setFleets (splitTable w db shipHash user row.shipfleets self))
      (mover w db self row planet shipHash user time) (added shipHash []) mission energy cargo) :
    OneFleetLeft db next := by
  have hfleets : next.fleets = (splitTable w db shipHash user row.shipfleets self).put
      db.fleets.nextId ⟨((mover w db self row planet shipHash user time).sent mission
        cargo).toAttributes, added shipHash []⟩ :=
    congrArg Board.fleets hboard
  have hnew := get_splitTable_new w db self row shipHash user
  have hstart : (mover w db self row planet shipHash user time).startPlanet = self.originPlanet :=
    (congrArg Route.startPlanet (leaving_toRoute w db shipHash user self)).trans rfl
  refine ⟨db.fleets.nextId,
    ⟨((mover w db self row planet shipHash user time).sent mission cargo).toAttributes,
      added shipHash []⟩,
    (db.users (mover w db self row planet shipHash user time).user).userSetting.increasedSpypower,
    db.fleets.fresh _ (le_refl _), by rw [hfleets, Table.get_put _ hnew, if_pos rfl], ?_,
    congrArg Board.delayed hboard, congrArg Board.ready hboard, fun other hother => ?_⟩
  · exact fun heq => haway (hstart.symm.trans heq)
  · rw [hfleets, Table.get_put _ hnew, if_neg hother]
    by_cases heq : other = self.id
    · rw [heq, get_splitTable_self w hget, hget]
      exact congrArg some ((staying_toRoute w db shipHash row.shipfleets self).trans
        (congrArg Attributes.toRoute hself))
    · rw [get_splitTable_of_ne w heq hother]

theorem comparedEnergy_eq (hmission : 1 ≤ params.mission ∧ params.mission ≤ 6)
    (energy : Numeric) : comparedEnergy params energy = doubled params.mission energy := by
  rw [comparedEnergy, find_eq_some_iff.mpr ⟨hmission, rfl⟩]
  rfl

theorem user_of_checkOutcome {checked : Db} {fehler : List String}
    (hcheck : CheckOutcome w db params (.ok fehler checked)) (hfehler : fehler = []) :
    ∃ row user, Passed w db params row user ∧ checked = checkedDb w db params row user := by
  cases hcheck with
  | early row fehler hget hne hearly => exact absurd hfehler hne
  | undone row user hget hships henough howner hfails =>
      exact ⟨row, user,
        ⟨hget, hships, henough, howner, hfails, accepted_of_allErrors w hfehler⟩, rfl⟩

/-- A check without complaints is sound exactly for a fleet at home that is not to be based. -/
theorem check_is_sound {checked : Db}
    (hcheck : (checkHelper w params).run db = .ok [] checked) :
    StartsMission w db checked params ↔ MayLeave db params := by
  have houtcome := check_outcome w db params
  rw [hcheck] at houtcome
  obtain ⟨row, user, hpassed, rfl⟩ := user_of_checkOutcome w houtcome rfl
  have hsend := send_outcome w db params
  constructor
  · rintro ⟨next, -, -, -, hreturns, -⟩
    rw [hreturns] at hsend
    cases hsend with
    | complained fehler next hrun hchecked hfehler =>
        rw [hcheck] at hrun
        cases hrun
        exact absurd rfl hfehler
    | left row' user' planet next hpassed' hhome hmission hplanet hmove =>
        refine ⟨hmission, fun row'' hget => ?_⟩
        obtain rfl : row' = row'' := Option.some.inj (hpassed'.get.symm.trans hget)
        exact hhome
  · rintro ⟨hmission, hhome⟩
    generalize hresult : (sendFleet w params).run db = result at hsend
    cases hsend with
    | raised err next hrun hchecked =>
        rw [hcheck] at hrun
        cases hrun
    | complained fehler next hrun hchecked hfehler =>
        rw [hcheck] at hrun
        cases hrun
        exact absurd rfl hfehler
    | away row' user' message hpassed' haway => exact absurd (hhome row' hpassed'.get) haway
    | based row' user' err hpassed' hhome' hone => exact absurd hone hmission
    | left row' user' planet next hpassed' hhome' hmission' hplanet hmove =>
        obtain rfl : row = row' := Option.some.inj (hpassed.get.symm.trans hpassed'.get)
        obtain rfl : user = user' := Option.some.inj (hpassed.owner.symm.trans hpassed'.owner)
        cases hmove with
        | left user' time energy cargo next hhome' henough howner hfails hships hneeds hpaid hready
            hboard hcargo hstocked =>
            have hroute := checkedRow_toRoute w db params row user
            have horigin : (checkedRow w db params row user).attributes.originPlanet =
                row.attributes.originPlanet := congrArg Route.originPlanet hroute
            obtain ⟨planet', hplanet', haway⟩ := hpassed.accepted.planet
            obtain rfl : planet = planet' := Option.some.inj (hplanet.symm.trans hplanet')
            have howner' : (db.planets row.attributes.originPlanet).user = some user' :=
              horigin ▸ howner
            obtain rfl : user = user' := Option.some.inj (hpassed.owner.symm.trans howner')
            rw [moveNeeds_again w db params row user hplanet] at hneeds
            refine ⟨next, row, _, _, hresult, hpassed.get, run_neededEnergy w hpassed hneeds, ?_,
              oneFleetLeft_of_departed w (get_checkedDb w user hpassed.get) rfl ?_ hboard⟩
            · have henergy : next.board.energy = Function.update db.board.energy
                  (checkedRow w db params row user).attributes.originPlanet
                  (Planet.energyAfter
                    (db.planets (checkedRow w db params row user).attributes.originPlanet).energy
                    (doubled params.mission energy)) := by
                rw [congrArg Board.energy hboard, departedBoard, paidBoard, mover_originPlanet]
                rfl
              rw [horigin] at henergy
              rw [comparedEnergy_eq hpassed.accepted.mission]
              exact henergy
            · intro heq
              exact haway (horigin.symm.trans heq)

theorem check_is_sound_sample :
    StartsMission Seeds.world (ladenDb 5000)
      (after ((checkHelper Seeds.world sampleParams).run (ladenDb 5000))) sampleParams :=
  (check_is_sound Seeds.world (eq_ok_of_value? (by decide +kernel))).mpr
    ⟨by decide, fun row hget => by
      obtain rfl : ladenRow 5000 = row := Option.some.inj hget
      decide⟩

/-- Nobody complains about the mission of a based fleet until `move` does not know it. -/
theorem check_is_not_sound :
    ¬ ∀ (w : World) (db checked : Db) (params : Params),
      (checkHelper w params).run db = .ok [] checked → StartsMission w db checked params := by
  intro hall
  obtain ⟨next, -, -, -, hreturns, -⟩ := hall Seeds.world (ladenDb 5000) _
    { sampleParams with mission := 1 } (eq_ok_of_value? (by decide +kernel))
  have hraises : returned ((sendFleet Seeds.world { sampleParams with mission := 1 }).run
      (ladenDb 5000)) = false := by
    decide +kernel
  rw [hreturns] at hraises
  cases hraises

end MissionsController

end Mmog
