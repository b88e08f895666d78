import Mmog.Missions.Flights

/-!
# Errands

A fleet under way needs one job: that of its mission until it arrives, and then
its return.  A fleet that is at home or stays with an ally needs none.  What
happens to other fleets does not change what a fleet needs.
-/

namespace Mmog

open Ruby Action Fleet Fight

/-! ## What a fleet needs -/

/-- The job of the mission of a fleet for its target planet. -/
def Job.IsMission (job : Job) (id : FleetId) (route : Route) : Prop :=
  match route.missionId with
  | 2 => job = .colonizePlanet id route.targetPlanet
  | 3 => job = .attackPlanet id route.targetPlanet
  | 4 => job = .travelToPlanet id route.targetPlanet
  | 5 => ∃ factor, job = .spyPlanet id route.targetPlanet factor
  | 6 => job = .transportToPlanet id route.targetPlanet
  | _ => False

theorem Job.IsMission.of_starts {self : Fleet} (hstarts : Starts self.missionId) (spypower : Factor) :
    (self.missionJob spypower).IsMission self.id self.toRoute := by
  rcases starts_iff.mp hstarts with heq | heq | heq | heq | heq <;> simp [missionJob, IsMission, heq]

theorem Job.IsMission.fleet? {job : Job} {id : FleetId} {route : Route} (hjob : job.IsMission id route) :
    job.fleet? = some id := by
  unfold IsMission at hjob
  split at hjob
  · exact hjob ▸ rfl
  · exact hjob ▸ rfl
  · exact hjob ▸ rfl
  · obtain ⟨factor, rfl⟩ := hjob
    rfl
  · exact hjob ▸ rfl
  · cases hjob

theorem Job.IsMission.mission_ne {job : Job} {id : FleetId} {route : Route} (hjob : job.IsMission id route) :
    route.missionId ≠ 1 := by
  intro hmission
  rw [IsMission, hmission] at hjob
  exact hjob

/-- The planet that a job of a mission leads to. -/
def Job.planet? : Job → Option PlanetId
  | .attackPlanet _ planet => some planet
  | .colonizePlanet _ planet => some planet
  | .travelToPlanet _ planet => some planet
  | .spyPlanet _ planet _ => some planet
  | .transportToPlanet _ planet => some planet
  | _ => none

theorem Job.IsMission.planet? {job : Job} {id : FleetId} {route : Route} (hjob : job.IsMission id route) :
    job.planet? = some route.targetPlanet := by
  unfold IsMission at hjob
  split at hjob
  · exact hjob ▸ rfl
  · exact hjob ▸ rfl
  · exact hjob ▸ rfl
  · obtain ⟨factor, rfl⟩ := hjob
    rfl
  · exact hjob ▸ rfl
  · cases hjob

theorem Fleet.missionJob_fleet? (self : Fleet) (spypower : Factor) : (self.missionJob spypower).fleet? = some self.id := by
  unfold missionJob
  split <;> rfl

theorem Fleet.missionJob_ne_returnToOrigin (self : Fleet) (spypower : Factor) (id : FleetId) :
    self.missionJob spypower ≠ .returnToOrigin id := by
  unfold missionJob
  split <;> exact fun heq => by cases heq

/-- Where a fleet is, and the jobs that it needs there. -/
inductive Errand (id : FleetId) (row : FleetRow) : List Job → Prop
  | home (hstart : row.attributes.startPlanet = row.attributes.originPlanet) (hhome : row.attributes.Returning)
      (hmission : row.attributes.missionId = 1) : Errand id row []
  | out (job : Job) (houtward : row.attributes.Outward) (hjob : job.IsMission id row.attributes.toRoute)
      (hmanned : row.shipfleets ≠ []) : Errand id row [job]
  | stationed (hstationed : row.attributes.Stationed) (hmission : row.attributes.missionId ≠ 1) : Errand id row []
  | back (haway : row.attributes.startPlanet ≠ row.attributes.originPlanet) (hreturning : row.attributes.Returning)
      (hmission : row.attributes.missionId ≠ 1) : Errand id row [.returnToOrigin id]

/-- The row of a fleet that goes on as before. -/
structure GoesOn (row new : FleetRow) : Prop where
  route : new.attributes.toRoute = row.attributes.toRoute
  manned : row.shipfleets ≠ [] → new.shipfleets ≠ []

/-- The row of a home fleet. -/
structure BasedRow (new : FleetRow) : Prop where
  start : new.attributes.startPlanet = new.attributes.originPlanet
  home : new.attributes.Returning
  mission : new.attributes.missionId = 1

theorem GoesOn.refl (row : FleetRow) : GoesOn row row := ⟨rfl, id⟩

theorem GoesOn.trans {row mid new : FleetRow} (hfirst : GoesOn row mid) (hsecond : GoesOn mid new) : GoesOn row new :=
  ⟨hsecond.route.trans hfirst.route, fun hmanned => hsecond.manned (hfirst.manned hmanned)⟩

theorem Errand.goesOn {id : FleetId} {row new : FleetRow} {jobs : List Job} (herrand : Errand id row jobs)
    (hnew : GoesOn row new) : Errand id new jobs := by
  cases herrand with
  | home hstart hhome hmission => exact .home (hnew.route ▸ hstart) (hnew.route ▸ hhome) (hnew.route ▸ hmission)
  | out job houtward hjob hmanned => exact .out job (hnew.route ▸ houtward) (hnew.route ▸ hjob) (hnew.manned hmanned)
  | stationed hstationed hmission => exact .stationed (hnew.route ▸ hstationed) (hnew.route ▸ hmission)
  | back haway hreturning hmission => exact .back (hnew.route ▸ haway) (hnew.route ▸ hreturning) (hnew.route ▸ hmission)

/-- The order of the jobs does not matter. -/
theorem Errand.perm {id : FleetId} {row : FleetRow} {jobs other : List Job} (herrand : Errand id row jobs)
    (hperm : jobs.Perm other) : Errand id row other := by
  cases herrand with
  | home hstart hhome hmission => exact hperm.nil_eq ▸ .home hstart hhome hmission
  | out job houtward hjob hmanned => exact (List.perm_singleton.mp hperm.symm) ▸ .out job houtward hjob hmanned
  | stationed hstationed hmission => exact hperm.nil_eq ▸ .stationed hstationed hmission
  | back haway hreturning hmission => exact (List.perm_singleton.mp hperm.symm) ▸ .back haway hreturning hmission

/-! ## Boards -/

namespace Board

/-- The jobs of a fleet that are still to run. -/
def jobsOf (board : Board) (id : FleetId) : List Job :=
  (board.delayed.map Enqueued.job ++ board.ready).filter fun job => job.fleet? = some id

theorem jobsOf_eq (board : Board) (id : FleetId) : board.jobsOf id =
    (board.delayed.map Enqueued.job).filter (fun job => job.fleet? = some id) ++
      board.ready.filter fun job => job.fleet? = some id :=
  List.filter_append ..

theorem mem_jobsOf_of_delayed {board : Board} {entry : Enqueued} (hentry : entry ∈ board.delayed) {id : FleetId}
    (hfleet : entry.job.fleet? = some id) : entry.job ∈ board.jobsOf id :=
  List.mem_filter.mpr ⟨List.mem_append_left _ (List.mem_map_of_mem hentry), decide_eq_true hfleet⟩

theorem jobsOf_addJobs_of_not (board : Board) {jobs : List Enqueued} {id : FleetId}
    (hjobs : ∀ entry ∈ jobs, entry.job.fleet? ≠ some id) : (board.addJobs jobs).jobsOf id = board.jobsOf id := by
  have hnone : (jobs.map Enqueued.job).filter (fun job => job.fleet? = some id) = [] := by
    rw [List.filter_eq_nil_iff]
    intro job hjob
    obtain ⟨entry, hentry, rfl⟩ := List.mem_map.mp hjob
    exact fun hfleet => hjobs entry hentry (of_decide_eq_true hfleet)
  rw [jobsOf_eq, jobsOf_eq, addJobs, List.map_append, List.filter_append, hnone, List.append_nil]

theorem jobsOf_addJobs_of_idle {board : Board} {id : FleetId} (hidle : board.jobsOf id = []) (timestamp : ℤ) {job : Job}
    (hjob : job.fleet? = some id) : (board.addJobs [⟨timestamp, job⟩]).jobsOf id = [job] := by
  rw [jobsOf_eq, List.append_eq_nil_iff] at hidle
  rw [jobsOf_eq, addJobs, List.map_append, List.filter_append, hidle.1, hidle.2, List.nil_append, List.append_nil]
  exact List.filter_cons_of_pos (decide_eq_true hjob)

theorem jobsOf_removeDelayed_of_ne (board : Board) {job : Job} {id : FleetId} (hjob : job.fleet? ≠ some id) :
    (board.removeDelayed job).jobsOf id = board.jobsOf id := by
  rw [jobsOf_eq, jobsOf_eq, removeDelayed, List.filter_map, List.filter_map, List.filter_filter]
  congr 2
  refine List.filter_congr fun entry _ => ?_
  by_cases hfleet : entry.job.fleet? = some id
  · have hne : entry.job ≠ job := fun heq => hjob (heq ▸ hfleet)
    simp [hfleet, hne]
  · simp [hfleet]

theorem jobsOf_removeDelayed_subset (board : Board) (job : Job) (id : FleetId) :
    (board.removeDelayed job).jobsOf id ⊆ board.jobsOf id := by
  refine List.filter_subset _ (List.append_subset.mpr ⟨?_, List.subset_append_right _ _⟩)
  exact List.Subset.trans (List.map_subset _ (List.filter_subset_self _)) (List.subset_append_left _ _)

/-- A delayed job that is the only one of its fleet leaves none when it is removed. -/
theorem jobsOf_removeDelayed_self {board : Board} {job : Job} {id : FleetId} (honly : board.jobsOf id = [job])
    (hdelayed : ∃ entry ∈ board.delayed, entry.job = job) : (board.removeDelayed job).jobsOf id = [] := by
  obtain ⟨entry, hentry, rfl⟩ := hdelayed
  have hfleet : entry.job.fleet? = some id :=
    of_decide_eq_true (List.mem_filter.mp (honly ▸ List.mem_singleton_self _ : entry.job ∈ board.jobsOf id)).2
  have hmem : entry.job ∈ (board.delayed.map Enqueued.job).filter (fun job => job.fleet? = some id) :=
    List.mem_filter.mpr ⟨List.mem_map_of_mem hentry, decide_eq_true hfleet⟩
  -- the only job is among the delayed ones, so none is ready
  have hready : board.ready.filter (fun job => job.fleet? = some id) = [] := by
    rw [jobsOf_eq, List.append_eq_singleton_iff] at honly
    obtain ⟨hnil, -⟩ | ⟨-, hnil⟩ := honly
    · rw [hnil] at hmem
      cases hmem
    · exact hnil
  rw [jobsOf_eq, show (board.removeDelayed entry.job).ready = board.ready from rfl, hready, List.append_nil,
    List.filter_eq_nil_iff]
  intro other hother hsame
  obtain ⟨found, hfound, rfl⟩ := List.mem_map.mp hother
  obtain ⟨hfound, hne⟩ := List.mem_filter.mp hfound
  have hothers := mem_jobsOf_of_delayed hfound (of_decide_eq_true hsame)
  rw [honly, List.mem_singleton] at hothers
  exact of_decide_eq_true hne hothers

/-- The jobs of a fleet when a ready job is taken. -/
theorem jobsOf_taken {db : Db} {index : ℕ} {job : Job} (hready : db.ready[index]? = some job) (id : FleetId) :
    (db.board.jobsOf id).Perm ((if job.fleet? = some id then [job] else []) ++
      { db with ready := db.ready.eraseIdx index }.board.jobsOf id) := by
  have hperm := (Db.jobs_take hready).filter fun job => job.fleet? = some id
  rw [List.filter_cons] at hperm
  by_cases hfleet : job.fleet? = some id
  · rw [if_pos (decide_eq_true hfleet)] at hperm
    rw [if_pos hfleet]
    exact hperm
  · rw [if_neg fun htrue => hfleet (of_decide_eq_true htrue)] at hperm
    rw [if_neg hfleet]
    exact hperm

/-- The jobs of a fleet when a delayed job gets ready. -/
theorem jobsOf_scheduled {db : Db} {index : ℕ} {entry : Enqueued} (hentry : db.delayed[index]? = some entry)
    (id : FleetId) :
    ({ db with delayed := db.delayed.eraseIdx index, ready := db.ready ++ [entry.job] }.board.jobsOf id).Perm
      (db.board.jobsOf id) := by
  have hperm := (Db.jobs_schedule hentry).filter fun job => job.fleet? = some id
  exact hperm

/-- Every fleet has the jobs that it needs at the time that it needs them, but for one that is busy. -/
structure Agrees (busy : Option FleetId) (board : Board) : Prop where
  known : ∀ id, board.fleets.nextId ≤ id → board.jobsOf id = []
  errands : ∀ id row, busy ≠ some id → board.fleets.get id = some row → Errand id row (board.jobsOf id)
  timely : ∀ entry ∈ board.delayed, ∀ id row, busy ≠ some id → entry.job.fleet? = some id →
    board.fleets.get id = some row → entry.timestamp = row.attributes.arrivalTime

namespace Agrees

variable {busy : Option FleetId} {board : Board} {id : FleetId} {row : FleetRow} {t : Table FleetRow}

/-- The fleets but for the busy one go on, and new ones are home fleets. -/
theorem setFleets (hagrees : Agrees busy board)
    (hfleets : Table.Descends (fun id row new => busy ≠ some id → GoesOn row new) BasedRow board.fleets t) :
    Agrees busy (board.setFleets t) where
  known id hid := hagrees.known id (hfleets.nextId_le.trans hid)
  errands id new hother hget := by
    obtain ⟨row, hrow, hgoesOn⟩ | ⟨hid, hbased⟩ := hfleets.origin id new hget
    · exact (hagrees.errands id row hother hrow).goesOn (hgoesOn hother)
    · rw [show (board.setFleets t).jobsOf id = [] from hagrees.known id hid]
      exact .home hbased.start hbased.home hbased.mission
  timely entry hentry id new hother hfleet hget := by
    obtain ⟨row, hrow, hgoesOn⟩ | ⟨hid, -⟩ := hfleets.origin id new hget
    · rw [(hgoesOn hother).route]
      exact hagrees.timely entry hentry id row hother hfleet hrow
    · have hmem : entry.job ∈ board.jobsOf id := mem_jobsOf_of_delayed hentry hfleet
      rw [hagrees.known id hid] at hmem
      cases hmem

theorem put (hagrees : Agrees busy board) (hget : board.fleets.get id = some row) {new : FleetRow}
    (hnew : busy ≠ some id → GoesOn row new) : Agrees busy (board.putFleet id new) :=
  hagrees.setFleets (.put (fun _ row _ => .refl row) hget hnew)

theorem destroy (hagrees : Agrees busy board) (id : FleetId) :
    Agrees busy (board.setFleets (board.fleets.destroy id)) :=
  hagrees.setFleets (.destroy (fun _ row _ => .refl row) _ id)

theorem setOwner (hagrees : Agrees busy board) (p : PlanetId) (user : Option UserId) :
    Agrees busy (board.setOwner p user) :=
  ⟨hagrees.known, hagrees.errands, hagrees.timely⟩

theorem setEnergy (hagrees : Agrees busy board) (p : PlanetId) (energy : ℤ) :
    Agrees busy (board.setEnergy p energy) :=
  ⟨hagrees.known, hagrees.errands, hagrees.timely⟩

/-- More jobs come, but none of them for a fleet that is not busy. -/
theorem addJobs (hagrees : Agrees busy board) {jobs : List Enqueued} (hjobs : ∀ entry ∈ jobs, ∀ id,
      entry.job.fleet? = some id → busy = some id ∧ id < board.fleets.nextId) : Agrees busy (board.addJobs jobs) where
  known id hid := by
    rw [jobsOf_addJobs_of_not board fun entry hentry hfleet => (hjobs entry hentry id hfleet).2.not_ge hid]
    exact hagrees.known id hid
  errands id row hother hget := by
    rw [jobsOf_addJobs_of_not board fun entry hentry hfleet => hother (hjobs entry hentry id hfleet).1]
    exact hagrees.errands id row hother hget
  timely entry hentry id row hother hfleet hget := by
    rcases List.mem_append.mp hentry with hold | hnew
    · exact hagrees.timely entry hold id row hother hfleet hget
    · exact absurd (hjobs entry hnew id hfleet).1 hother

theorem removeDelayed (hagrees : Agrees (some id) board) {job : Job} (hjob : job.fleet? = some id) :
    Agrees (some id) (board.removeDelayed job) where
  known other hother := List.eq_nil_of_subset_nil (hagrees.known other hother ▸ jobsOf_removeDelayed_subset board job other)
  errands other row hother hget := by
    rw [jobsOf_removeDelayed_of_ne board fun hfleet => hother (hjob.symm.trans hfleet)]
    exact hagrees.errands other row hother hget
  timely entry hentry := hagrees.timely entry (List.mem_filter.mp hentry).1

/-- The queue changes, but only for the busy fleet. -/
theorem requeue (hagrees : Agrees none board) {next : Board} (hfleets : next.fleets = board.fleets)
    (hsubset : ∀ id, next.jobsOf id ⊆ board.jobsOf id)
    (hperm : ∀ id, busy ≠ some id → (board.jobsOf id).Perm (next.jobsOf id)) (hdelayed : next.delayed ⊆ board.delayed) :
    Agrees busy next where
  known id hid := List.eq_nil_of_subset_nil (hagrees.known id (hfleets ▸ hid) ▸ hsubset id)
  errands id row hother hget :=
    (hagrees.errands id row (Option.some_ne_none _).symm (hfleets ▸ hget)).perm (hperm id hother)
  timely entry hentry id row _ hfleet hget :=
    hagrees.timely entry (hdelayed hentry) id row (Option.some_ne_none _).symm hfleet (hfleets ▸ hget)

/-- A fleet gets busy. -/
theorem hold (hagrees : Agrees none board) (id : FleetId) : Agrees (some id) board :=
  ⟨hagrees.known, fun other row _ => hagrees.errands other row (Option.some_ne_none _).symm,
    fun entry hentry other row _ => hagrees.timely entry hentry other row (Option.some_ne_none _).symm⟩

/-- The busy fleet is done. -/
theorem release (hagrees : Agrees (some id) board)
    (hdone : ∀ row, board.fleets.get id = some row → Errand id row (board.jobsOf id) ∧
      ∀ entry ∈ board.delayed, entry.job.fleet? = some id → entry.timestamp = row.attributes.arrivalTime) :
    Agrees none board where
  known := hagrees.known
  errands other row _ hget := by
    by_cases heq : other = id
    · exact heq ▸ (hdone row (heq ▸ hget)).1
    · exact hagrees.errands other row (fun hbusy => heq (Option.some.inj hbusy).symm) hget
  timely entry hentry other row _ hfleet hget := by
    by_cases heq : other = id
    · exact (hdone row (heq ▸ hget)).2 entry hentry (heq ▸ hfleet)
    · exact hagrees.timely entry hentry other row (fun hbusy => heq (Option.some.inj hbusy).symm) hfleet hget

/-- The busy fleet is gone. -/
theorem gone (hagrees : Agrees (some id) board) (hget : board.fleets.get id = none) : Agrees none board :=
  hagrees.release fun row hrow => absurd (hget.symm.trans hrow) (Option.some_ne_none row).symm

/-- A busy fleet without jobs comes to rest. -/
theorem rest (hagrees : Agrees (some id) board) (hidle : board.jobsOf id = []) (hget : board.fleets.get id = some row)
    (herrand : Errand id row []) : Agrees none board := by
  refine hagrees.release fun found hfound => ?_
  obtain rfl := Option.some.inj (hget.symm.trans hfound)
  refine ⟨hidle.symm ▸ herrand, fun entry hentry hfleet => ?_⟩
  have hmem := mem_jobsOf_of_delayed hentry hfleet
  rw [hidle] at hmem
  cases hmem

/-- A busy fleet without jobs sets off, and gets the job that it needs when it arrives. -/
theorem setOff (hagrees : Agrees (some id) board) (hidle : board.jobsOf id = []) (hget : board.fleets.get id = some row)
    {job : Job} (herrand : Errand id row [job]) (hjob : job.fleet? = some id) :
    Agrees none (board.addJobs [⟨row.attributes.arrivalTime, job⟩]) := by
  have hadded : Agrees (some id) (board.addJobs [⟨row.attributes.arrivalTime, job⟩]) := by
    refine hagrees.addJobs fun entry hentry other hother => ?_
    rw [List.mem_singleton.mp hentry] at hother
    obtain rfl := Option.some.inj (hjob.symm.trans hother)
    exact ⟨rfl, Table.lt_nextId hget⟩
  refine hadded.release fun found hfound => ?_
  obtain rfl := Option.some.inj (hget.symm.trans hfound)
  refine ⟨(jobsOf_addJobs_of_idle hidle _ hjob).symm ▸ herrand, fun entry hentry hfleet => ?_⟩
  rcases List.mem_append.mp hentry with hold | hnew
  · have hmem := mem_jobsOf_of_delayed hold hfleet
    rw [hidle] at hmem
    cases hmem
  · rw [List.mem_singleton.mp hnew]

end Agrees

end Board

end Mmog
