import Mmog.Buildings.Count
import Mmog.Game.Holdings
import Mmog.Ruby.Run
import Mmog.Ruby.Stamps
import Mmog.Model.Seeds

/-!
# Refunds

An order for a building that is aborted gives back at most half of what it cost.
Every job is followed from the order on: it is executed once, or cancelled once,
or still pending.
-/

namespace Mmog

open Ruby Action Game

namespace Planet

/-! ## What an abort gives -/

/-- A planet got at most this much of a resource, and nothing of the others. -/
structure Raised (p : PlanetId) (type : Resource) (number : ℕ) (db next : Db) : Prop where
  delayed : next.delayed = db.delayed
  ready : next.ready = db.ready
  holding : ∀ found, next.holding p found ≤ db.holding p found + if found = type then number else 0

theorem Raised.none (p : PlanetId) (type : Resource) (number : ℕ) (db : Db) : Raised p type number db db := by
  refine ⟨rfl, rfl, fun found => ?_⟩
  split <;> omega

theorem holding_setMoney (db : Db) {p : PlanetId} {u : UserId} (huser : (db.planets p).user = some u)
    (money : ℤ) (found : Resource) :
    (db.setMoney u money).holding p found = if found = .money then money else db.holding p found := by
  cases found <;> simp [Db.holding, Db.setMoney, huser]

theorem holding_setPlanet (db : Db) (p : PlanetId) {type : Resource} (htype : type ≠ .money)
    (hother : type ≠ .other) (n : ℤ) (found : Resource) :
    (db.setPlanet p ((db.planets p).setStock type n)).holding p found =
      if found = type then n else db.holding p found := by
  cases type <;> cases found <;> simp_all [Db.holding, Db.setPlanet, setStock, stock]

theorem given_int_le (old maximum number : ℤ) :
    (given old maximum number number).1 ≤ old + number := by
  unfold given
  simp only [Numeric.int_add_int, Numeric.le_iff, Numeric.value_int, Int.cast_le, Numeric.toI_int]
  split
  · assumption
  · exact le_refl _

theorem give_raises (p : PlanetId) (type : Resource) (number : ℕ) (db : Db) :
    ∃ back next, (give p type (.int number)).run db = .ok back next ∧ Raised p type number db next := by
  unfold give
  by_cases hnumber : (Numeric.int number) ≤ 0
  · rw [if_pos hnumber]
    exact ⟨0, db, rfl, .none p type number db⟩
  rw [if_neg hnumber, run_bind_get]
  have hstored : type ≠ .money → type ≠ .other → Raised p type number db (db.setPlanet p
      ((db.planets p).setStock type (given ((db.planets p).stock type) ((db.planets p).maximum type)
        (.int number) (.int number)).1)) := by
    intro hmoney hother
    refine ⟨rfl, rfl, fun found => ?_⟩
    rw [holding_setPlanet db p hmoney hother]
    split
    · rename_i heq
      subst heq
      have hold : db.holding p found = (db.planets p).stock found := by
        cases found <;> first | rfl | exact absurd rfl hmoney
      rw [hold]
      exact given_int_le _ _ _
    · omega
  cases type with
  | other => exact ⟨_, db, rfl, .none p .other number db⟩
  | money =>
      dsimp only
      cases huser : (db.planets p).user with
      | none => exact ⟨_, db, rfl, .none p .money number db⟩
      | some u =>
          refine ⟨_, _, rfl, rfl, rfl, fun found => ?_⟩
          rw [holding_setMoney db huser, Numeric.int_add_int, Numeric.toI_int]
          split
          · rename_i heq
            subst heq
            simp [Db.holding, huser]
          · omega
  | ore => exact ⟨_, _, rfl, hstored (by decide) (by decide)⟩
  | crystal => exact ⟨_, _, rfl, hstored (by decide) (by decide)⟩
  | population => exact ⟨_, _, rfl, hstored (by decide) (by decide)⟩
  | energy => exact ⟨_, _, rfl, hstored (by decide) (by decide)⟩

/-- The jobs are gone, and at most half of what one costs came to the planet, if it was only one. -/
structure Refunded (rules : Rules) (p : PlanetId) (buildingtype : ℕ) (db next : Db) : Prop where
  delayed : next.delayed = db.delayed.filter fun entry => entry.job ≠ .buildBuildings p buildingtype
  ready : next.ready = db.ready
  holding : ∀ type, 2 * (next.holding p type - db.holding p type) ≤
    ((rules.buildingtype buildingtype).map fun destroyMe => destroyMe.cost type).getD 0
  unpaid : (db.delayed.filter fun entry => entry.job = .buildBuildings p buildingtype).length ≠ 1 →
    ∀ type, next.holding p type = db.holding p type

/-- What `remove_delayed` leaves. -/
def removed (db : Db) (p : PlanetId) (buildingtype : ℕ) : Db :=
  { db with delayed := db.delayed.filter fun entry => entry.job ≠ .buildBuildings p buildingtype }

theorem onDb_give_raises (p : PlanetId) (type : Resource) (number : ℕ) (game : Game) :
    ∃ back next, (onDb (give p type (.int number))).run game = .ok back (game.setDb next) ∧
      Raised p type number game.db next := by
  obtain ⟨back, next, hrun, hraised⟩ := give_raises p type number game.db
  exact ⟨back, next, run_onDb_of_ok hrun, hraised⟩

theorem deleteBuildingJob_of_many {rules : Rules} {p : PlanetId} {buildingtype : ℕ} {game : Game}
    (hmany : (game.db.delayed.filter fun entry => entry.job = .buildBuildings p buildingtype).length ≠ 1) :
    (deleteBuildingJob rules p buildingtype).run game =
      .ok false (game.setDb (removed game.db p buildingtype)) := by
  rw [deleteBuildingJob, run_bind_get]
  have hremove : (onDb (Resque.removeDelayed (.buildBuildings p buildingtype))).run game =
      .ok ⟨⟩ (game.setDb (removed game.db p buildingtype)) := rfl
  refine (run_bind_of_ok hremove _).trans ?_
  rw [if_neg hmany]
  rfl

/-- The only job that was removed is refunded, one resource after the other. -/
theorem deleteBuildingJob_of_one {rules : Rules} {p : PlanetId} {buildingtype : ℕ} {game : Game}
    {destroyMe : Buildingtype}
    (hone : (game.db.delayed.filter fun entry => entry.job = .buildBuildings p buildingtype).length = 1)
    (htype : rules.buildingtype buildingtype = some destroyMe) :
    ∃ db₁ db₂ db₃ db₄, (deleteBuildingJob rules p buildingtype).run game = .ok true (game.setDb db₄) ∧
      Raised p .ore (destroyMe.buildCostOre / 2) (constructing (removed game.db p buildingtype) p 0) db₁ ∧
      Raised p .crystal (destroyMe.buildCostCrystal / 2) db₁ db₂ ∧
      Raised p .population (destroyMe.buildCostPopulation / 2) db₂ db₃ ∧
      Raised p .money (destroyMe.buildCostMoney / 2) db₃ db₄ := by
  obtain ⟨ore, db₁, hrun₁, hore⟩ := onDb_give_raises p .ore (destroyMe.buildCostOre / 2)
    (game.setDb (constructing (removed game.db p buildingtype) p 0))
  obtain ⟨crystal, db₂, hrun₂, hcrystal⟩ :=
    onDb_give_raises p .crystal (destroyMe.buildCostCrystal / 2) (game.setDb db₁)
  obtain ⟨population, db₃, hrun₃, hpopulation⟩ :=
    onDb_give_raises p .population (destroyMe.buildCostPopulation / 2) (game.setDb db₂)
  obtain ⟨money, db₄, hrun₄, hmoney⟩ :=
    onDb_give_raises p .money (destroyMe.buildCostMoney / 2) (game.setDb db₃)
  refine ⟨db₁, db₂, db₃, db₄, ?_, hore, hcrystal, hpopulation, hmoney⟩
  have hremove : (onDb (Resque.removeDelayed (.buildBuildings p buildingtype))).run game =
      .ok ⟨⟩ (game.setDb (removed game.db p buildingtype)) := rfl
  rw [deleteBuildingJob, run_bind_get, run_bind_of_ok hremove, if_pos hone, run_bind_modify, htype]
  refine (run_bind_of_ok hrun₁ _).trans ((run_bind_of_ok hrun₂ _).trans ?_)
  exact (run_bind_of_ok hrun₃ _).trans ((run_bind_of_ok hrun₄ _).trans rfl)

/-- An abort gives back at most half of what one job cost. -/
theorem deleteBuildingJob_refunds (rules : Rules) (p : PlanetId) (buildingtype : ℕ) (game : Game) :
    Refunded rules p buildingtype game.db
      (after ((deleteBuildingJob rules p buildingtype).run game)).db := by
  by_cases hone : (game.db.delayed.filter fun entry =>
      entry.job = .buildBuildings p buildingtype).length = 1
  · cases htype : rules.buildingtype buildingtype with
    | none =>
        have hremove : (onDb (Resque.removeDelayed (.buildBuildings p buildingtype))).run game =
            .ok ⟨⟩ (game.setDb (removed game.db p buildingtype)) := rfl
        rw [deleteBuildingJob, run_bind_get, run_bind_of_ok hremove, if_pos hone, run_bind_modify, htype]
        refine ⟨rfl, rfl, fun type => ?_, fun hmany => absurd hone hmany⟩
        change 2 * ((constructing (removed game.db p buildingtype) p 0).holding p type - _) ≤ _
        rw [holding_constructing, htype]
        exact (mul_nonpos_of_nonneg_of_nonpos zero_le_two (sub_self _).le)
    | some destroyMe =>
        obtain ⟨db₁, db₂, db₃, db₄, hrun, hore, hcrystal, hpopulation, hmoney⟩ :=
          deleteBuildingJob_of_one hone htype
        rw [hrun]
        refine ⟨?_, ?_, fun type => ?_, fun hmany => absurd hone hmany⟩
        · exact hmoney.delayed.trans (hpopulation.delayed.trans (hcrystal.delayed.trans hore.delayed))
        · exact hmoney.ready.trans (hpopulation.ready.trans (hcrystal.ready.trans hore.ready))
        · have hfirst := hore.holding type
          have hsecond := hcrystal.holding type
          have hthird := hpopulation.holding type
          have hfourth := hmoney.holding type
          rw [holding_constructing] at hfirst
          rw [htype, Option.map_some, Option.getD_some]
          change db₁.holding p type ≤ game.db.holding p type + _ at hfirst
          change 2 * (db₄.holding p type - _) ≤ _
          -- each resource is given by one of the four
          cases type <;> simp [Buildingtype.cost] at hfirst hsecond hthird hfourth ⊢ <;> omega
  · rw [deleteBuildingJob_of_many hone]
    refine ⟨rfl, rfl, fun type => ?_, fun _ _ => rfl⟩
    exact (mul_nonpos_of_nonneg_of_nonpos zero_le_two (sub_self _).le).trans (Int.natCast_nonneg _)

theorem abortUpgrade_run (rules : Rules) (p : PlanetId) (buildingtype : ℕ) (game : Game) :
    (after ((abortUpgrade rules p buildingtype).run game)).db =
        (after ((deleteBuildingJob rules p buildingtype).run game)).db ∨
      (after ((abortUpgrade rules p buildingtype).run game)).db =
        constructing (after ((deleteBuildingJob rules p buildingtype).run game)).db p 0 := by
  rw [abortUpgrade, run_bind]
  cases (deleteBuildingJob rules p buildingtype).run game with
  | error err next => exact Or.inl rfl
  | ok removed next =>
      cases removed with
      | true => exact Or.inl rfl
      | false => exact Or.inr rfl

/-- The action of the controller sets the flag back and gives nothing more. -/
theorem abortUpgrade_refunds (rules : Rules) (p : PlanetId) (buildingtype : ℕ) (game : Game) :
    Refunded rules p buildingtype game.db
      (after ((abortUpgrade rules p buildingtype).run game)).db := by
  have hrefunds := deleteBuildingJob_refunds rules p buildingtype game
  rcases abortUpgrade_run rules p buildingtype game with hsame | hflag
  · rw [hsame]
    exact hrefunds
  · rw [hflag]
    refine ⟨hrefunds.delayed, hrefunds.ready, fun type => ?_, fun hmany type => ?_⟩
    · rw [holding_constructing]
      exact hrefunds.holding type
    · rw [holding_constructing]
      exact hrefunds.unpaid hmany type

end Planet

/-! ## The ledger -/

inductive Fate where
  | executed
  /-- The job was cancelled, and this was given back for it. -/
  | cancelled (refund : Resource → ℤ)

/-- What became of a job. -/
structure Deed where
  job : Job
  fate : Fate

namespace Deed

variable (rules : Rules) (deed : Deed) (type : Resource)

def refund : ℤ :=
  match deed.fate with
  | .executed => 0
  | .cancelled refund => refund type

/-- What the job cost, if it was cancelled. -/
def cancelledCost : ℕ :=
  match deed.fate, deed.job with
  | .cancelled _, .buildBuildings _ buildingtype =>
      ((rules.buildingtype buildingtype).map fun cancelled => cancelled.cost type).getD 0
  | _, _ => 0

end Deed

/-- A game whose jobs have ids. -/
structure Site where
  game : Game
  stamps : Stamps Job

namespace Site

def of (game : Game) : Site := ⟨game, Stamps.of (game.db.delayed.map Enqueued.job) game.db.ready⟩

/-- A job that is new at the end of the delayed set gets an id. -/
def enqueueNew (stamps : Stamps Job) (next : Game) : Stamps Job :=
  match next.db.delayed[stamps.waiting.length]? with
  | some entry => stamps.enqueue entry.job
  | none => stamps

/-- The ids after an event. -/
def follow (stamps : Stamps Job) (next : Game) : GameEvent → Stamps Job
  | .createBuildingJob _ _ => enqueueNew stamps next
  | .deleteBuildingJob p buildingtype => stamps.remove (.buildBuildings p buildingtype)
  | .abortUpgrade p buildingtype => stamps.remove (.buildBuildings p buildingtype)
  | .fleets (.schedule index) => stamps.schedule index
  | .workPlanet index => enqueueNew (stamps.take index) next
  | _ => stamps

def step (rules : Rules) (site : Site) (event : GameEvent) : Option Site :=
  (event.step rules site.game).map fun next => ⟨next, follow site.stamps next event⟩

/-- Following the jobs does not change the game. -/
theorem run_game (rules : Rules) (site : Site) (events : List GameEvent) :
    (run (step rules) site events).map Site.game = run (GameEvent.step rules) site.game events := by
  refine map_run Site.game (fun state event => ?_) site events
  rw [step]
  cases event.step rules state.game <;> rfl

/-- What came to a planet and its owner. -/
def gain (db next : Db) (p : PlanetId) (type : Resource) : ℤ := next.holding p type - db.holding p type

/-- The records of a deletion.  What is given without exactly one cancelled job is the refund of none. -/
def deletion (site : Site) (next : Db) (p : PlanetId) (buildingtype : ℕ) : List (Option ℕ × Deed) :=
  let job : Job := .buildBuildings p buildingtype
  let refund := gain site.game.db next p
  match site.stamps.matching job with
  | [id] => [(some id, ⟨job, .cancelled refund⟩)]
  | ids =>
      (ids.map fun id => (some id, ⟨job, .cancelled fun _ => 0⟩)) ++
        if [Resource.ore, .crystal, .population, .money].all fun type => refund type = 0 then []
        else [(none, ⟨job, .cancelled refund⟩)]

/-- What an event does with which jobs. -/
def deeds (rules : Rules) (site : Site) : GameEvent → List (Option ℕ × Deed)
  | .deleteBuildingJob p buildingtype => site.deletion
      (after ((Planet.deleteBuildingJob rules p buildingtype).run site.game)).db p buildingtype
  | .abortUpgrade p buildingtype => site.deletion
      (after ((Planet.abortUpgrade rules p buildingtype).run site.game)).db p buildingtype
  | .workPlanet index =>
      match site.stamps.due[index]?, site.game.db.ready[index]? with
      | some id, some job => [(some id, ⟨job, .executed⟩)]
      | _, _ => []
  | _ => []

end Site

/-- The ids agree with the queues, every job that is gone was dealt with once, and half was paid. -/
structure Accounted (rules : Rules) (log : List (Option ℕ × Deed)) (site : Site) : Prop where
  agrees : site.stamps.Agrees (site.game.db.delayed.map Enqueued.job) site.game.db.ready
  ledger : OnceEach 0 log site.stamps.jobs
  half : ∀ record ∈ log, ∀ type, 2 * record.2.refund type ≤ record.2.cancelledCost rules type

namespace Site

variable {rules : Rules} {log : List (Option ℕ × Deed)} {site : Site} {stamps : Stamps Job} {next : Game}

/-! ## New jobs -/

theorem enqueueNew_agrees {delayed : List Enqueued} {ready : List Job}
    (hagrees : stamps.Agrees (delayed.map Enqueued.job) ready)
    (hdelayed : next.db.delayed = delayed ∨ ∃ entry, next.db.delayed = delayed ++ [entry])
    (hready : next.db.ready = ready) :
    (enqueueNew stamps next).Agrees (next.db.delayed.map Enqueued.job) next.db.ready := by
  have hlength : stamps.waiting.length = delayed.length := by
    have hmap := congrArg List.length hagrees.waiting
    simpa using hmap
  rw [enqueueNew, hlength, hready]
  rcases hdelayed with hsame | ⟨entry, hnew⟩
  · rw [hsame, List.getElem?_eq_none (le_refl _)]
    exact hagrees
  · rw [hnew, List.getElem?_concat_length, List.map_append]
    exact hagrees.enqueue entry.job

theorem enqueueNew_ledger (hledger : OnceEach 0 log stamps.jobs) (next : Game) :
    OnceEach 0 log (enqueueNew stamps next).jobs := by
  rw [enqueueNew]
  split
  · exact hledger.create _
  · exact hledger

theorem createBuildingJob_delayed (w : World) (p : PlanetId) (name : BuildingName) (db : Db) :
    let next := after ((Planet.createBuildingJob w p name).run db)
    (next.delayed = db.delayed ∨ ∃ entry, next.delayed = db.delayed ++ [entry]) ∧ next.ready = db.ready := by
  intro next
  rcases Planet.createBuildingJob_outcome w p name db with hsame | ⟨type, u, -, -, -, hordered⟩
  · rw [show next = _ from hsame]
    exact ⟨Or.inl rfl, rfl⟩
  · rw [show next = _ from hordered]
    exact ⟨Or.inr ⟨_, rfl⟩, rfl⟩

theorem buildBuilding_delayed (rules : Rules) (p : PlanetId) (buildingtype : ℕ) (game : Game) :
    let next := (after ((Planet.buildBuilding rules p buildingtype).run game)).db
    next.delayed = game.db.delayed ∧ next.ready = game.db.ready := by
  intro next
  have hfinished : ∀ (buildMe : Buildingtype) (buildings : List Building) (db : Db),
      (Planet.finished rules p buildMe buildings db).delayed = db.delayed ∧
        (Planet.finished rules p buildMe buildings db).ready = db.ready := by
    intro buildMe buildings db
    rw [Planet.finished]
    dsimp only
    split <;> exact ⟨rfl, rfl⟩
  rcases Planet.buildBuilding_outcome rules p buildingtype game with hsame | ⟨buildMe, new, -, -, hbuilt⟩
  · rw [show next = _ from hsame]
    exact ⟨rfl, rfl⟩
  · rw [show next = _ from hbuilt]
    exact hfinished buildMe new (Planet.constructing game.db p 0)

/-- A tick enqueues the next one, unless it raises before. -/
theorem updateResources_delayed (rules : Rules) (p : PlanetId) (game : Game) :
    let next := (after ((Planet.updateResources rules p).run game)).db
    (next.delayed = game.db.delayed ∨ ∃ entry, next.delayed = game.db.delayed ++ [entry]) ∧
      next.ready = game.db.ready := by
  let I (state : Game) : Prop := state.db.delayed = game.db.delayed ∧ state.db.ready = game.db.ready
  let J (state : Game) : Prop :=
    (state.db.delayed = game.db.delayed ∨ ∃ entry, state.db.delayed = game.db.delayed ++ [entry]) ∧
      state.db.ready = game.db.ready
  have hraised : ∀ state, I state → J state := fun state hstate => ⟨Or.inl hstate.1, hstate.2⟩
  have hrest : ∀ (planet : Planet) (state : Game), I state → J (after ((do
      let power ← Planet.getProduction rules p planet .powerplant
      let planet := { planet with energy := Planet.grow planet.energy power planet.maxenergy }
      onDb (Planet.createProductionJob p)
      modify fun game => game.setDb (game.db.setPlanet p planet) : GameAct Unit).run state)) := by
    intro planet state hstate
    refine (Planet.getProduction_reads rules p planet .powerplant).after_bind hstate hraised ?_
    rintro power middle - ⟨hdelayed, hready⟩
    exact ⟨Or.inr ⟨⟨middle.db.now + 30, .produceResources p⟩, congrArg (· ++ _) hdelayed⟩, hready⟩
  change J (after ((Planet.updateResources rules p).run game))
  rw [Planet.updateResources, run_bind_get]
  dsimp only
  split
  · refine (Planet.produce_safe (I := fun db => db.delayed = game.db.delayed ∧ db.ready = game.db.ready)
      (fun _ _ _ hdb => hdb) rules p _).after_bind ⟨rfl, rfl⟩ hraised fun planet middle _ hmiddle => ?_
    exact hrest planet middle hmiddle
  · rw [run_bind_pure]
    exact hrest _ game ⟨rfl, rfl⟩

end Site

/-- Orders for buildings, their ends, and what lies between. -/
def GameEvent.isConstruction : GameEvent → Bool
  | .createBuildingJob _ _ => true
  | .deleteBuildingJob _ _ => true
  | .abortUpgrade _ _ => true
  | .workPlanet _ => true
  | .fleets (.wait _) => true
  | .fleets (.schedule _) => true
  | _ => false

namespace Accounted

variable {rules : Rules} {log : List (Option ℕ × Deed)} {site : Site}

theorem of (rules : Rules) (game : Game) : Accounted rules [] (Site.of game) where
  agrees := Stamps.Agrees.of _ _
  ledger := OnceEach.of _ _
  half _ hrecord := absurd hrecord List.not_mem_nil

/-- A deletion cancels all the delayed jobs of its arguments and gives at most half for one. -/
theorem delete (haccounted : Accounted rules log site) {p : PlanetId} {buildingtype : ℕ} {next : Game}
    (hrefunded : Planet.Refunded rules p buildingtype site.game.db next.db) :
    Accounted rules (log ++ site.deletion next.db p buildingtype)
      ⟨next, site.stamps.remove (.buildBuildings p buildingtype)⟩ := by
  set job : Job := .buildBuildings p buildingtype with hjob
  have hagrees : (site.stamps.remove job).Agrees (next.db.delayed.map Enqueued.job) next.db.ready := by
    rw [hrefunded.delayed, hrefunded.ready]
    have hremove := haccounted.agrees.remove job
    rw [List.filter_map] at hremove
    exact hremove
  have hlength := haccounted.agrees.length_matching job
  rw [List.filter_map, List.length_map] at hlength
  have hledger := haccounted.ledger.remove haccounted.agrees job
  rw [Site.deletion]
  split
  · rename_i id hone
    refine ⟨hagrees, ?_, fun record hrecord type => ?_⟩
    · have hdestroyed := hledger fun _ => ⟨job, .cancelled (Site.gain site.game.db next.db p)⟩
      rw [hone] at hdestroyed
      exact hdestroyed
    · rcases List.mem_append.mp hrecord with hold | hnew
      · exact haccounted.half record hold type
      · rw [List.mem_singleton.mp hnew]
        exact hrefunded.holding type
  · rename_i hmany
    have hunpaid : ∀ type, Site.gain site.game.db next.db p type = 0 := by
      intro type
      refine sub_eq_zero_of_eq (hrefunded.unpaid (fun hone => ?_) type)
      obtain ⟨id, hid⟩ := List.length_eq_one_iff.mp (hlength.trans hone)
      exact hmany id hid
    rw [if_pos (List.all_eq_true.mpr fun type _ => decide_eq_true (hunpaid type)), List.append_nil]
    refine ⟨hagrees, hledger fun _ => ⟨job, .cancelled fun _ => 0⟩, fun record hrecord type => ?_⟩
    rcases List.mem_append.mp hrecord with hold | hnew
    · exact haccounted.half record hold type
    · obtain ⟨id, -, rfl⟩ := List.mem_map.mp hnew
      exact Int.natCast_nonneg _

/-- A job that a worker takes is executed, whatever comes of it. -/
theorem take (haccounted : Accounted rules log site) {index : ℕ} {job : Job}
    (hget : site.game.db.ready[index]? = some job) {next : Game}
    (hdelayed : next.db.delayed = site.game.db.delayed ∨
      ∃ entry, next.db.delayed = site.game.db.delayed ++ [entry])
    (hready : next.db.ready = site.game.db.ready.eraseIdx index) :
    Accounted rules (log ++ site.deeds rules (.workPlanet index))
      ⟨next, Site.enqueueNew (site.stamps.take index) next⟩ := by
  obtain ⟨id, hid, hjob⟩ := haccounted.agrees.getElem?_due hget
  have hdeeds : site.deeds rules (.workPlanet index) = [(some id, ⟨job, .executed⟩)] := by
    rw [Site.deeds, hid, hget]
  have htaken : OnceEach 0 (log ++ [(some id, ⟨job, .executed⟩)]) (site.stamps.take index).jobs := by
    rw [Stamps.take, hid]
    exact haccounted.ledger.destroy hjob _
  rw [hdeeds]
  refine ⟨Site.enqueueNew_agrees (haccounted.agrees.take hget) hdelayed hready,
    Site.enqueueNew_ledger htaken next, fun record hrecord type => ?_⟩
  rcases List.mem_append.mp hrecord with hold | hnew
  · exact haccounted.half record hold type
  · rw [List.mem_singleton.mp hnew]
    exact le_refl _

theorem schedule (haccounted : Accounted rules log site) {index : ℕ} {entry : Enqueued}
    (hget : site.game.db.delayed[index]? = some entry) :
    Accounted rules log ⟨site.game.setDb { site.game.db with
      delayed := site.game.db.delayed.eraseIdx index
      ready := site.game.db.ready ++ [entry.job] }, site.stamps.schedule index⟩ := by
  have hjob : (site.game.db.delayed.map Enqueued.job)[index]? = some entry.job := by
    rw [List.getElem?_map, hget]
    rfl
  have hjobs : (site.stamps.schedule index).jobs = site.stamps.jobs := by
    rw [Stamps.schedule]
    split <;> rfl
  have hagrees := haccounted.agrees.schedule hjob
  rw [List.eraseIdx_map] at hagrees
  refine ⟨hagrees, ?_, haccounted.half⟩
  rw [hjobs]
  exact haccounted.ledger

theorem step (haccounted : Accounted rules log site) {event : GameEvent} {next : Site}
    (hkind : event.isConstruction = true) (hstep : Site.step rules site event = some next) :
    Accounted rules (log ++ site.deeds rules event) next := by
  obtain ⟨game, hgame, rfl⟩ := Option.map_eq_some_iff.mp hstep
  have hquiet : ∀ {next : Site}, Accounted rules log next → Accounted rules (log ++ []) next := by
    intro next hnext
    rwa [List.append_nil]
  cases event with
  | createBuildingJob p name =>
      cases hgame
      obtain ⟨hdelayed, hready⟩ := Site.createBuildingJob_delayed rules.toWorld p name site.game.db
      refine hquiet ⟨Site.enqueueNew_agrees haccounted.agrees ?_ ?_,
        Site.enqueueNew_ledger haccounted.ledger _, haccounted.half⟩
      · rw [after_onDb]
        exact hdelayed
      · rw [after_onDb]
        exact hready
  | deleteBuildingJob p buildingtype =>
      cases hgame
      exact haccounted.delete (Planet.deleteBuildingJob_refunds rules p buildingtype site.game)
  | abortUpgrade p buildingtype =>
      cases hgame
      exact haccounted.delete (Planet.abortUpgrade_refunds rules p buildingtype site.game)
  | fleets event =>
      obtain ⟨db, hdb, rfl⟩ := Option.map_eq_some_iff.mp hgame
      cases event with
      | wait seconds =>
          cases hdb
          exact hquiet ⟨haccounted.agrees, haccounted.ledger, haccounted.half⟩
      | schedule index =>
          simp only [Mmog.step] at hdb
          split at hdb
          · split at hdb
            · cases hdb
              exact hquiet (haccounted.schedule ‹_›)
            · cases hdb
          · cases hdb
      | _ => cases hkind
  | workPlanet index =>
      simp only [GameEvent.step] at hgame
      split at hgame
      · rename_i job hget
        cases job with
        | buildBuildings p buildingtype =>
            cases hgame
            obtain ⟨hdelayed, hready⟩ := Site.buildBuilding_delayed rules p buildingtype
              (site.game.setDb { site.game.db with ready := site.game.db.ready.eraseIdx index })
            rw [after_bind_pure]
            exact haccounted.take hget (Or.inl hdelayed) hready
        | produceResources p =>
            cases hgame
            obtain ⟨hdelayed, hready⟩ := Site.updateResources_delayed rules p
              (site.game.setDb { site.game.db with ready := site.game.db.ready.eraseIdx index })
            exact haccounted.take hget hdelayed hready
        | _ => cases hgame
      · cases hgame
  | _ => cases hkind

/-- What is true of every record is true of the sums. -/
theorem total (haccounted : Accounted rules log site) (type : Resource) :
    2 * (log.map fun record => record.2.refund type).sum ≤
      ((log.map fun record => record.2.cancelledCost rules type).sum : ℕ) := by
  have hhalf := fun record hrecord => haccounted.half record hrecord type
  clear haccounted
  induction log with
  | nil => exact le_refl _
  | cons record log ih =>
      have hrest := ih fun other hother => hhalf other (List.mem_cons_of_mem record hother)
      have hfirst := hhalf record List.mem_cons_self
      simp only [List.map_cons, List.sum_cons]
      push_cast
      push_cast at hrest
      linarith

end Accounted

/-- In every run, every job is executed once, cancelled once or neither; only cancelled ones are
refunded, each by at most half of its costs; and so is the total at most half of their costs. -/
theorem aborted_buildings_never_pay {rules : Rules} {start final : Game} {events : List GameEvent}
    (hkind : ∀ event ∈ events, event.isConstruction = true)
    (hrun : run (GameEvent.step rules) start events = some final) :
    let log := collect (Site.step rules) (Site.deeds rules) (Site.of start) events
    (∀ record ∈ log, record.1 ≠ none) ∧ (∀ id, (doneWith log id).length ≤ 1) ∧
      (∀ record ∈ log, ∀ type, 2 * record.2.refund type ≤ record.2.cancelledCost rules type) ∧
        ∀ type, 2 * (log.map fun record => record.2.refund type).sum ≤
          ((log.map fun record => record.2.cancelledCost rules type).sum : ℕ) := by
  intro log
  have hsites := (Site.run_game rules (Site.of start) events).trans hrun
  obtain ⟨last, hlast, -⟩ := Option.map_eq_some_iff.mp hsites
  have haccounted : Accounted rules ([] ++ log) last := by
    refine run_collects (Accounted rules) ?_ (Accounted.of rules start) (along_of_forall hkind) hlast
    exact fun _ _ _ _ haccounted hevent hstep => haccounted.step hevent hstep
  rw [List.nil_append] at haccounted
  exact ⟨haccounted.ledger.known, haccounted.ledger.length_doneWith_le_one, haccounted.half,
    haccounted.total⟩

/-- User 1 has claimed planet 2, whose first four buildings are ordered. -/
def claimed : Game := after ((onDb (Planet.claim Seeds.rules.toWorld 2 1)).run deserted)

/-- The first buildings are finished; a depot is ordered and aborted, and another one is built. -/
def abortedDepot : List GameEvent :=
  [.fleets (.schedule 0), .fleets (.schedule 0), .fleets (.schedule 0), .fleets (.schedule 0),
    .workPlanet 0, .workPlanet 0, .workPlanet 0, .workPlanet 0, .createBuildingJob 2 .depot,
    .abortUpgrade 2 40, .createBuildingJob 2 .depot, .fleets (.wait 250), .fleets (.schedule 1),
    .deleteBuildingJob 2 40, .workPlanet 0]

theorem aborted_buildings_never_pay_sample :
    let log := collect (Site.step Seeds.rules) (Site.deeds Seeds.rules) (Site.of claimed) abortedDepot
    (doneWith log 5).length ≤ 1 ∧ 2 * (log.map fun record => record.2.refund .ore).sum ≤
      ((log.map fun record => record.2.cancelledCost Seeds.rules .ore).sum : ℕ) := by
  let final := (run (GameEvent.step Seeds.rules) claimed abortedDepot).get (by decide)
  have hrun : run (GameEvent.step Seeds.rules) claimed abortedDepot = some final :=
    (Option.some_get _).symm
  obtain ⟨-, honce, -, htotal⟩ := aborted_buildings_never_pay (by decide) hrun
  exact ⟨honce 5, htotal .ore⟩

end Mmog
