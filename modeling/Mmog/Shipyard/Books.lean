import Mathlib.Algebra.Group.Pi.Lemmas
import Mmog.Game.Build
import Mmog.Ships.Conservation
import Mmog.Shipyard.Settlement

/-!
# The books of the shipyard

A ship is ordered, waits in the queue, is delivered to a fleet, and is lost in
the end.  Over the whole game, whatever players build and research meanwhile,
the ships that fly and those that wait are the ones that were ordered, less the
cancelled and the lost ones.
-/

namespace Mmog

open Ruby Action Game ShipBuildingQueue

/-! ## What does not touch ships -/

namespace Planet

variable {t : Table FleetRow}

theorem take_fleets (p : PlanetId) (type : Resource) (number : Numeric) :
    Safe (fun db : Db => db.fleets = t) (take p type number) anything := by
  intro db hdb
  refine ⟨?_, fun _ _ => trivial⟩
  unfold take
  by_cases hnumber : number ≤ 0
  · rw [if_pos hnumber]
    exact hdb
  · rw [if_neg hnumber, run_bind_get]
    cases type with
    | money => cases huser : (db.planets p).user <;> exact hdb
    | _ => exact hdb

theorem give_fleets (p : PlanetId) (type : Resource) (number : Numeric) :
    Safe (fun db : Db => db.fleets = t) (give p type number) anything := by
  intro db hdb
  refine ⟨?_, fun _ _ => trivial⟩
  unfold give
  by_cases hnumber : number ≤ 0
  · rw [if_pos hnumber]
    exact hdb
  · rw [if_neg hnumber, run_bind_get]
    cases type with
    | money => cases huser : (db.planets p).user <;> exact hdb
    | _ => exact hdb

theorem createBuildingJob_fleets (w : World) (p : PlanetId) (name : BuildingName) :
    Safe (fun db : Db => db.fleets = t) (createBuildingJob w p name) anything := by
  refine fun db hdb => ⟨?_, fun _ _ => trivial⟩
  rcases createBuildingJob_outcome w p name db with houtcome | ⟨type, u, -, -, -, houtcome⟩
  · rw [houtcome]
    exact hdb
  · rw [houtcome]
    exact hdb

theorem claim_fleets (w : World) (p : PlanetId) (u : UserId) :
    Safe (fun db : Db => db.fleets = t) (claim w p u) anything :=
  claim_safe (fun _ hdb => hdb) (createBuildingJob_fleets w p) (fun _ hdb => hdb) (Safe.modify fun _ hdb => hdb)

end Planet

/-- What is known of ships: the fleets, the entries of the queue and their jobs. -/
structure Yard where
  fleets : Table FleetRow
  queue : Table ShipBuildingQueue
  addShips : Backlog AddShip

def Game.yard (game : Game) : Yard := ⟨game.db.fleets, game.queue, game.addShips⟩

/-- The action does not touch ships. -/
def ShipsApart {α : Type} (action : GameAct α) : Prop :=
  ∀ yard, Safe (fun game => game.yard = yard) action anything

namespace ShipsApart

variable {α β : Type} {yard : Yard} (rules : Rules)

theorem onDb {action : Act α} (hsafe : ∀ t, Safe (fun db : Db => db.fleets = t) action anything) :
    ShipsApart (onDb action) := by
  refine fun yard game hgame => ⟨?_, fun _ _ => trivial⟩
  rw [after_onDb, ← hgame]
  exact congrArg (fun fleets => Yard.mk fleets game.queue game.addShips) ((hsafe _).after rfl)

theorem quietly {change : Game → Game} (hchange : ∀ game, (change game).yard = game.yard) :
    ShipsApart (modify change) :=
  fun _ => Safe.modify fun game hgame => (hchange game).trans hgame

theorem give (p : PlanetId) (type : Resource) (number : Numeric) :
    ShipsApart (Game.onDb (Planet.give p type number)) :=
  onDb fun _ => Planet.give_fleets p type number

/-! ### Buildings -/

theorem deleteBuildingJob (p : PlanetId) (buildingtype : ℕ) :
    ShipsApart (Planet.deleteBuildingJob rules p buildingtype) := by
  intro yard
  have hremove : ShipsApart (Game.onDb (Resque.removeDelayed (.buildBuildings p buildingtype))) :=
    onDb fun _ => Safe.modify fun _ hdb => hdb
  refine Safe.get.bind fun game _ => (hremove yard).bind fun _ _ => ?_
  refine Safe.ite (fun _ => ?_) fun _ => Safe.pure trivial
  refine (Safe.modify fun game hgame => ?_).bind fun _ _ => ?_
  · exact hgame
  cases rules.buildingtype buildingtype with
  | none => exact Safe.throw _ _
  | some destroyMe =>
      refine (give p .ore _ yard).bind fun _ _ => (give p .crystal _ yard).bind fun _ _ => ?_
      refine (give p .population _ yard).bind fun _ _ => (give p .money _ yard).bind fun _ _ => ?_
      exact Safe.pure trivial

theorem abortUpgrade (p : PlanetId) (buildingtype : ℕ) :
    ShipsApart (Planet.abortUpgrade rules p buildingtype) := by
  refine fun yard => (deleteBuildingJob rules p buildingtype yard).bind fun removed _ => ?_
  exact Safe.ite (fun _ => Safe.pure trivial) fun _ => quietly (fun _ => rfl) yard

theorem finishBuilding (p : PlanetId) (buildMe : Buildingtype) (buildings : List Building) :
    ShipsApart (Planet.finishBuilding rules p buildMe buildings) := by
  refine fun yard game hgame => ⟨?_, fun _ _ => trivial⟩
  rw [Planet.finishBuilding, run_bind_modify]
  dsimp only
  split
  · rw [run_bind_modify, run_bind_get]
    split <;> exact hgame
  · rw [run_bind_get]
    split <;> exact hgame

theorem buildBuilding (p : PlanetId) (buildingtype : ℕ) :
    ShipsApart (Planet.buildBuilding rules p buildingtype) := by
  intro yard
  refine (Safe.modify fun game hgame => ?_).bind fun _ _ => ?_
  · exact hgame
  cases rules.buildingtype buildingtype with
  | none => exact Safe.pure trivial
  | some buildMe =>
      refine Safe.get.bind fun game _ => ?_
      dsimp only
      split
      · exact Safe.throw _ _
      · exact finishBuilding rules p buildMe _ yard
      · exact Safe.ite (fun _ => finishBuilding rules p buildMe _ yard) fun _ => Safe.pure trivial

theorem claimStartplanetFor (u : UserId) (markerPos : ℕ) :
    ShipsApart (Planet.claimStartplanetFor rules u markerPos) := by
  intro yard
  refine Safe.get.bind fun game _ => Safe.ite (fun _ => Safe.pure trivial) fun _ => ?_
  cases Planet.searchStartplanet rules game.db markerPos with
  | none => exact Safe.pure trivial
  | some p =>
      refine (onDb (fun _ => Planet.claim_fleets rules.toWorld p u) yard).bind fun _ _ => ?_
      refine (Safe.modify fun game hgame => ?_).bind fun _ _ => Safe.pure trivial
      exact hgame

/-! ### Ticks -/

theorem produce (p : PlanetId) (planet : Planet) : ShipsApart (Planet.produce rules p planet) := by
  intro yard
  have hreads : ∀ planet name, Safe (fun game : Game => game.yard = yard)
      (Planet.getProduction rules p planet name) anything :=
    fun planet name => Planet.getProduction_reads rules p planet name
  refine (hreads _ .oremine).bind fun ore _ => (hreads _ .city).bind fun population _ => ?_
  refine (hreads _ .crystalmine).bind fun crystal _ => (hreads _ .headquarter).bind fun income _ => ?_
  dsimp only
  cases planet.user with
  | none => exact Safe.throw _ _
  | some u =>
      refine (Safe.modify fun game hgame => ?_).bind fun _ _ => Safe.get.bind fun game _ => ?_
      · exact hgame
      · split
        · exact Safe.throw _ _
        · exact Safe.pure trivial

theorem updateResources (p : PlanetId) : ShipsApart (Planet.updateResources rules p) := by
  intro yard
  have hrest : ∀ planet : Planet, Safe (fun game : Game => game.yard = yard) (do
      let power ← Planet.getProduction rules p planet .powerplant
      let planet := { planet with energy := Planet.grow planet.energy power planet.maxenergy }
      Game.onDb (Planet.createProductionJob p)
      modify fun game => game.setDb (game.db.setPlanet p planet) : GameAct Unit) anything := by
    intro planet
    refine (Planet.getProduction_reads rules p planet .powerplant).bind fun power _ => ?_
    have hnext : ShipsApart (Game.onDb (Planet.createProductionJob p)) := onDb fun _ => Safe.modify fun _ hdb => hdb
    refine (hnext yard).bind fun _ _ => Safe.modify fun game hgame => ?_
    exact hgame
  refine Safe.get.bind fun game _ => ?_
  dsimp only
  split
  · exact (produce rules p _ yard).bind fun planet _ => hrest planet
  · exact hrest _

/-! ### Research -/

theorem upgradeTechnology (id : TechnologyId) (user : UserId) :
    ShipsApart (Technology.upgradeTechnology rules id user) := by
  refine fun yard => (Technology.findRow_safe rules id).bind fun row _ => Safe.get.bind fun game hgame => ?_
  split
  · exact Safe.throw _ _
  · exact Safe.pure trivial
  · exact Safe.ite (fun _ => Safe.pure trivial) fun _ => Safe.set hgame

theorem abortTechnology (id : TechnologyId) (user : UserId) :
    ShipsApart (Technology.abortTechnology rules id user) :=
  fun _ => (Technology.findRow_safe rules id).bind fun _ _ => Safe.get.bind fun _ hgame => Safe.set hgame

theorem updateUservalues (id : TechnologyId) (user : UserId) :
    ShipsApart (Technology.updateUservalues rules id user) := by
  refine fun yard => (Technology.findRow_safe rules id).bind fun row _ => Safe.get.bind fun game hgame => Safe.set ?_
  unfold Technology.updateSetting
  split <;> exact hgame

/-! ### Jobs -/

theorem performPlanet {job : Job} {action : GameAct Unit} (hperform : GameEvent.performPlanet rules job = some action) :
    ShipsApart action := by
  cases job with
  | buildBuildings p buildingtype =>
      cases hperform
      exact fun yard => (buildBuilding rules p buildingtype yard).bind fun _ _ => Safe.pure trivial
  | produceResources p =>
      cases hperform
      exact updateResources rules p
  | _ => cases hperform

end ShipsApart

/-! ## Ships in the queue -/

/-- The ship of an entry. -/
def ShipBuildingQueue.one (q : ShipBuildingQueue) : ShipId → ℤ := Pi.single q.ship 1

namespace Game

/-- The ships that wait in the queue. -/
def queued (game : Game) : ShipId → ℤ := game.queue.total one

/-- The ships that fly and those that wait. -/
def navy (game : Game) : ShipId → ℤ := game.db.ships + game.queued

end Game

namespace ShipBuildingQueue

variable (rules : Rules)

/-- The ships of an order; a negative amount orders none. -/
def orderedShips (ships : List (ShipId × ℤ)) : ShipId → ℤ :=
  (ships.map fun entry => Pi.single entry.1 (entry.2.toNat : ℤ)).sum

theorem queued_append (game : Game) (new : List ShipBuildingQueue) :
    (append game new).queued = game.queued + (new.map one).sum := by
  have hfoldl : ∀ t : Table ShipBuildingQueue,
      (new.foldl Table.create t).total one = t.total one + (new.map one).sum := by
    induction new with
    | nil => exact fun t => (add_zero _).symm
    | cons q new ih =>
        intro t
        rw [List.foldl_cons, ih, Table.total_create, List.map_cons, List.sum_cons, add_assoc]
  exact hfoldl game.queue

theorem ships_entriesFor (ship : ShipId) (planet : PlanetId) (n : ℕ) (plus : ℤ) (qid : ℕ) :
    ((entriesFor rules ship planet n plus qid).map one).sum = Pi.single ship (n : ℤ) := by
  induction n generalizing plus qid with
  | zero => exact (Pi.single_zero ship).symm
  | succ n ih =>
      rw [entriesFor, List.map_cons, List.sum_cons, ih, one, ← Pi.single_add, Nat.cast_succ]
      exact congrArg (Pi.single ship) (add_comm 1 (n : ℤ))

theorem queued_placed (planet : PlanetId) (ships : List (ShipId × ℤ)) (game : Game) :
    (placed rules planet game ships).queued = game.queued + orderedShips ships := by
  induction ships generalizing game with
  | nil => exact (add_zero _).symm
  | cons entry ships ih =>
      rw [placed, ih, queued_append, ships_entriesFor, orderedShips, orderedShips, List.map_cons, List.sum_cons,
        add_assoc]

theorem db_placed (planet : PlanetId) (ships : List (ShipId × ℤ)) (game : Game) :
    (placed rules planet game ships).db = game.db := by
  induction ships generalizing game with
  | nil => rfl
  | cons entry ships ih => exact ih _

/-! ## Orders -/

/-- Where an action on planets returns, the game goes on with the same fleets. -/
theorem returns_fleets {action : Act Numeric} (hreturns : ∀ db, ∃ back next, action.run db = .ok back next)
    (hsafe : ∀ t, Safe (fun db : Db => db.fleets = t) action anything) (game : Game) (before : Db) :
    ∃ back db, db.fleets = before.fleets ∧ (onDb action).run (game.setDb before) = .ok back (game.setDb db) := by
  obtain ⟨back, db, hrun⟩ := hreturns before
  have hfleets : (after (action.run before)).fleets = before.fleets := (hsafe before.fleets).after rfl
  rw [hrun] at hfleets
  exact ⟨back, db, hfleets, run_onDb_of_ok hrun⟩

/-- An order that is accepted is queued as a whole, and one that is refused is not queued. -/
theorem insert_returns (s : Hash ShipId ℤ) (planet : PlanetId) (game : Game) :
    ∃ db, db.fleets = game.db.fleets ∧
      ((insert rules s planet).run game = .ok true (placed rules planet (game.setDb db) s.entries) ∨
        (insert rules s planet).run game = .ok false (game.setDb db)) := by
  have htake := fun type number =>
    returns_fleets (Planet.take_returns planet type number) (fun _ => Planet.take_fleets planet type number) game
  have hgive := fun type number =>
    returns_fleets (Planet.give_returns planet type number) (fun _ => Planet.give_fleets planet type number) game
  rw [insert, ← setDb_db game]
  obtain ⟨o, db₁, hdb₁, hore⟩ := htake .ore (cost (fun ship => (rules.ship ship).oreCost) s) game.db
  obtain ⟨c, db₂, hdb₂, hcrystal⟩ := htake .crystal (cost (fun ship => (rules.ship ship).crystalCost) s) db₁
  obtain ⟨m, db₃, hdb₃, hmoney⟩ := htake .money (cost (fun ship => (rules.ship ship).creditCost) s) db₂
  obtain ⟨crew, db₄, hdb₄, hcrew⟩ := htake .population (cost rules.crewCapacity s) db₃
  have htaken : db₄.fleets = game.db.fleets := ((hdb₄.trans hdb₃).trans hdb₂).trans hdb₁
  rw [run_bind_of_ok hore, run_bind_of_ok hcrystal, run_bind_of_ok hmoney, run_bind_of_ok hcrew]
  split
  · rw [run_bind_of_ok (insertAll_apply rules planet _ s.entries)]
    exact ⟨db₄, htaken, .inl rfl⟩
  · obtain ⟨_, db₅, hdb₅, hore⟩ := hgive .ore o db₄
    obtain ⟨_, db₆, hdb₆, hcrystal⟩ := hgive .crystal c db₅
    obtain ⟨_, db₇, hdb₇, hmoney⟩ := hgive .money m db₆
    obtain ⟨_, db₈, hdb₈, hcrew⟩ := hgive .population crew db₇
    have hback : db₈.fleets = db₄.fleets := ((hdb₈.trans hdb₇).trans hdb₆).trans hdb₅
    rw [run_bind_of_ok hore, run_bind_of_ok hcrystal, run_bind_of_ok hmoney, run_bind_of_ok hcrew]
    exact ⟨db₈, hback.trans htaken, .inr rfl⟩

theorem removeQueue_fleets (t : Table FleetRow) (id : ℕ) :
    Safe (fun game => game.db.fleets = t) (removeQueue rules id) anything := by
  refine Safe.get.bind fun game _ => ?_
  cases game.queue.get id with
  | none => exact Safe.throw _ _
  | some self =>
      have hgive : ∀ type number, Safe (fun game : Game => game.db.fleets = t)
          (onDb (Planet.give self.planet type number)) anything :=
        fun type number => safe_onDb (Planet.give_fleets self.planet type number)
      have hupdate : ∀ end' now, Safe (fun game : Game => game.db.fleets = t)
          (updateTime end' self.planet now) anything :=
        fun end' now => Safe.get.bind fun state hstate => Safe.set hstate
      refine (Safe.modify fun state hstate => ?_).bind fun _ _ => (hupdate _ _).bind fun _ _ => ?_
      · exact hstate
      refine (hgive .ore _).bind fun _ _ => (hgive .crystal _).bind fun _ _ => ?_
      refine (hgive .money _).bind fun _ _ => (hgive .population _).bind fun _ _ => ?_
      refine Safe.modify fun state hstate => ?_
      exact hstate

end ShipBuildingQueue

/-! ## Events -/

/-- Entries and jobs of the queue agree, and no fleet has less than no ships. -/
structure Game.Sound (game : Game) : Prop where
  queue : game.QueueInv
  valid : game.db.fleets.All fun row => Fleet.Valid row.shipfleets

namespace Game.Sound

variable {rules : Rules} {game next : Game}

/-- Where ships are not touched, none come or go. -/
theorem of_yard (hsound : game.Sound) (hyard : next.yard = game.yard) : next.Sound ∧ next.navy = game.navy := by
  have hfleets : next.db.fleets = game.db.fleets := congrArg Yard.fleets hyard
  have hqueue : next.queue = game.queue := congrArg Yard.queue hyard
  have hjobs : next.addShips = game.addShips := congrArg Yard.addShips hyard
  have hentries : next.entries = game.entries := by rw [entries, hqueue, entries]
  refine ⟨⟨⟨?_, ?_, ?_⟩, ?_⟩, ?_⟩
  · rw [hentries]
    exact hsound.queue.increasing
  · rw [hentries, hjobs]
    exact hsound.queue.jobs
  · rw [hentries, hjobs]
    exact hsound.queue.onTime
  · rw [hfleets]
    exact hsound.valid
  · rw [navy, navy, queued, queued, Db.ships, Db.ships, hfleets, hqueue]

theorem apartFrom {α : Type} {action : GameAct α} (hsound : game.Sound) (hyard : next.yard = game.yard)
    (hapart : ShipsApart action) : (after (action.run next)).Sound ∧ (after (action.run next)).navy = game.navy :=
  hsound.of_yard ((hapart game.yard).after hyard)

theorem apart {α : Type} {action : GameAct α} (hsound : game.Sound) (hapart : ShipsApart action) :
    (after (action.run game)).Sound ∧ (after (action.run game)).navy = game.navy :=
  hsound.apartFrom rfl hapart

/-- The tables of planets may change, but not that of the fleets. -/
theorem setDb (hsound : game.Sound) {db : Db} (hfleets : db.fleets = game.db.fleets) :
    (game.setDb db).Sound ∧ (game.setDb db).navy = game.navy :=
  hsound.of_yard (congrArg (fun fleets => Yard.mk fleets game.queue game.addShips) hfleets)

theorem place (rules : Rules) (hsound : game.Sound) (planet : PlanetId) (ships : List (ShipId × ℤ)) :
    (placed rules planet game ships).Sound ∧
      (placed rules planet game ships).navy = game.navy + orderedShips ships := by
  refine ⟨⟨queueInv_placed rules hsound.queue ships, ?_⟩, ?_⟩
  · rw [db_placed]
    exact hsound.valid
  · rw [navy, navy, queued_placed, db_placed, add_assoc]

theorem cancel (hsound : game.Sound) {id : ℕ} {self : ShipBuildingQueue} (hget : game.queue.get id = some self)
    (hself : self.job ∉ game.addShips.ready) (hbehind : ∀ q ∈ behind game self, q.job ∉ game.addShips.ready) :
    (cancelled game id self).Sound ∧ (cancelled game id self).navy = game.navy + -self.one := by
  refine ⟨⟨hsound.queue.cancel hget hself hbehind, hsound.valid⟩, ?_⟩
  have hmoved : ∀ q : ShipBuildingQueue, (moved game.db.now self q).one = q.one :=
    fun q => congrArg (fun job : AddShip => Pi.single job.ship 1) (job_moved game.db.now self q)
  have hmap : (game.queue.mapRows (moved game.db.now self)).total one = game.queue.total one := by
    unfold Table.total
    refine Finset.sum_congr rfl fun place _ => congrArg (Option.getD · 0) ?_
    exact (Option.map_map ..).trans (Option.map_congr fun q _ => hmoved q)
  have hrow : (game.queue.mapRows (moved game.db.now self)).get id = some (moved game.db.now self self) :=
    congrArg (Option.map _) hget
  have hqueued : (cancelled game id self).queued = game.queued + -self.one := by
    rw [queued, cancelled, Table.total_destroy one hrow, hmap, hmoved, sub_eq_add_neg, queued]
  rw [navy, hqueued, ← add_assoc]
  rfl

/-- A ship that is delivered no longer waits. -/
theorem deliver (hsound : game.Sound) {job : AddShip} {rest : Backlog AddShip}
    (htake : game.addShips.pending.Perm (job :: rest.pending))
    (hdelayed : ∀ entry ∈ rest.delayed, entry ∈ game.addShips.delayed) (hreceives : game.db.Receives job.planet) :
    (after ((job.perform rules).run { game with addShips := rest })).Sound ∧
      (after ((job.perform rules).run { game with addShips := rest })).navy = game.navy := by
  have hpending : job ∈ game.addShips.pending := htake.mem_iff.mpr List.mem_cons_self
  obtain ⟨id, q, hget, rfl, hqid, -⟩ := hsound.queue.row_of_pending hpending
  have hreceives : game.db.Receives q.planet := hreceives
  obtain ⟨_, hadd⟩ := exists_of_returned ((Fleet.addShipToPlanet_returned_iff rules.toWorld q.ship).mpr hreceives)
  let db := after ((Fleet.addShipToPlanet rules.toWorld q.ship q.planet).run game.db)
  have hafter : after ((q.job.perform rules).run { game with addShips := rest }) =
      ({ game with addShips := rest, queue := game.queue.destroy id } : Game).setDb db := by
    have hdropped : dropped (({ game with addShips := rest } : Game).setDb db) q.job.qid =
        ({ game with addShips := rest, queue := game.queue.destroy id } : Game).setDb db := by
      unfold dropped
      rw [show (({ game with addShips := rest } : Game).setDb db).queue.last _ = _ from hqid]
      rfl
    have hrun : (onDb (Fleet.addShipToPlanet rules.toWorld q.ship q.planet)).run { game with addShips := rest } =
        .ok _ (({ game with addShips := rest } : Game).setDb db) := run_onDb_of_ok hadd
    exact (congrArg after (run_bind_of_ok hrun _)).trans hdropped
  have hchanges : Changes game.db.fleets db.fleets _ := Changes.addShipToPlanet q.ship q.planet
  obtain ⟨hvalid, hships⟩ := hchanges hsound.valid
  rw [if_pos hreceives] at hships
  have hqueue := (hsound.queue.deliver hget htake hdelayed).setDb db
  rw [hafter]
  refine ⟨⟨hqueue, hvalid⟩, ?_⟩
  -- the entry leaves the queue as its ship enters the fleet
  have hqueued : (game.queue.destroy id).total one = game.queued - q.one := Table.total_destroy one hget
  calc db.ships + (game.queue.destroy id).total one = (game.db.ships + q.one) + (game.queued - q.one) := by
        rw [hqueued]
        exact congrArg (· + (game.queued - q.one)) hships
    _ = game.navy := by
        rw [navy]
        abel

end Game.Sound

/-- The event of fleets that an event of the game is. -/
def GameEvent.ofFleets? : GameEvent → Option Event
  | .fleets event => some event
  | _ => none

/-- What an event enters in the books: accepted orders, cancelled entries, and what fleets lose. -/
def GameEvent.booked (rules : Rules) (game : Game) : GameEvent → ShipId → ℤ
  | .fleets event => gains rules.toWorld game.db event
  | .insert planet ships =>
      if value? ((ShipBuildingQueue.insert rules ships planet).run game) = some true then
        orderedShips ships.entries
      else 0
  | .removeQueue id => -((game.queue.get id).elim 0 one)
  | _ => 0

/-- An event changes the ships that fly and those that wait by what it enters in the books. -/
theorem GameEvent.step_booked {rules : Rules} {game next : Game} {event : GameEvent} (hsound : game.Sound)
    (hdelivers : game.Delivers event = true) (hcancels : game.CancelsInTime event = true)
    (hjoins : ∀ fleetEvent ∈ event.ofFleets?, JoinsOthers game.db fleetEvent)
    (hstep : event.step rules game = some next) :
    next.Sound ∧ next.navy = game.navy + event.booked rules game := by
  have hquiet : ∀ {game' : Game}, game'.Sound ∧ game'.navy = game.navy →
      game'.Sound ∧ game'.navy = game.navy + 0 := fun hgame' => ⟨hgame'.1, hgame'.2.trans (add_zero _).symm⟩
  cases event with
  | fleets event =>
      obtain ⟨db, hdb, rfl⟩ := Option.map_eq_some_iff.mp hstep
      obtain ⟨hvalid, hships⟩ := step_changes hsound.valid (hjoins event rfl) hdb hsound.valid
      refine ⟨⟨hsound.queue.setDb db, hvalid⟩, ?_⟩
      have hnavy : (game.setDb db).navy = shipsIn db.fleets + game.queued := rfl
      rw [hnavy, hships, navy, Db.ships, booked, add_right_comm]
  | claim planet user =>
      cases hstep
      exact hquiet (hsound.apart (.onDb fun _ => Planet.claim_fleets rules.toWorld planet user))
  | claimStartplanetFor user markerPos =>
      cases hstep
      exact hquiet (hsound.apart (.claimStartplanetFor rules user markerPos))
  | give planet type number =>
      cases hstep
      exact hquiet (hsound.apart (.onDb fun _ => Planet.give_fleets planet type _))
  | take planet type number =>
      cases hstep
      exact hquiet (hsound.apart (.onDb fun _ => Planet.take_fleets planet type _))
  | createBuildingJob planet name =>
      cases hstep
      exact hquiet (hsound.apart (.onDb fun _ => Planet.createBuildingJob_fleets rules.toWorld planet name))
  | deleteBuildingJob planet buildingtype =>
      cases hstep
      exact hquiet (hsound.apart (.deleteBuildingJob rules planet buildingtype))
  | abortUpgrade planet buildingtype =>
      cases hstep
      exact hquiet (hsound.apart (.abortUpgrade rules planet buildingtype))
  | updateResources planet =>
      cases hstep
      exact hquiet (hsound.apart (.updateResources rules planet))
  | workPlanet index =>
      simp only [step] at hstep
      split at hstep
      · rename_i job hready
        split at hstep
        · rename_i action hperform
          cases hstep
          exact hquiet (hsound.apartFrom rfl (.performPlanet rules hperform))
        · cases hstep
      · cases hstep
  | insert planet ships =>
      cases hstep
      obtain ⟨db, hfleets, hrun | hrun⟩ := insert_returns rules ships planet game
      · obtain ⟨hplaced, hnavy⟩ := (hsound.setDb hfleets).1.place rules planet ships.entries
        rw [booked, hrun, if_pos (show value? (.ok true _) = some true from rfl), after_ok]
        exact ⟨hplaced, hnavy.trans (congrArg (· + orderedShips ships.entries) (hsound.setDb hfleets).2)⟩
      · have hrefused : value? ((ShipBuildingQueue.insert rules ships planet).run game) ≠ some true := by
          rw [hrun]
          intro haccepted
          exact Bool.false_ne_true (Option.some.inj haccepted)
        rw [booked, if_neg hrefused, hrun, after_ok]
        exact hquiet (hsound.setDb hfleets)
  | removeQueue id =>
      cases hstep
      cases hget : game.queue.get id with
      | none =>
          rw [removeQueue_of_none rules hget, booked, hget, Option.elim_none, neg_zero]
          exact hquiet ⟨hsound, rfl⟩
      | some self =>
          obtain ⟨db, houtcome⟩ := removeQueue_outcome rules hget
          have hfleets : (after ((ShipBuildingQueue.removeQueue rules id).run game)).db.fleets = game.db.fleets :=
            (removeQueue_fleets rules game.db.fleets id).after rfl
          rw [CancelsInTime, hget, Option.all_some] at hcancels
          obtain ⟨hself, hbehind⟩ := of_decide_eq_true hcancels
          obtain ⟨hcancelled, hnavy⟩ := hsound.cancel hget hself hbehind
          rw [houtcome] at hfleets ⊢
          rw [booked, hget, Option.elim_some]
          exact ⟨(hcancelled.setDb hfleets).1, (hcancelled.setDb hfleets).2.trans hnavy⟩
  | fireShip index =>
      simp only [step] at hstep
      cases htake : game.addShips.takeDelayed index with
      | none =>
          rw [htake] at hstep
          cases hstep
      | some taken =>
          obtain ⟨job, rest⟩ := taken
          rw [htake] at hstep
          cases hstep
          obtain ⟨hperm, -, hdelayed⟩ := Backlog.takeDelayed_eq_some htake
          rw [Delivers, htake] at hdelivers
          exact hquiet (hsound.deliver hperm hdelayed (of_decide_eq_true hdelivers))
  | scheduleShip index =>
      obtain ⟨addShips, hschedule, rfl⟩ := Option.map_eq_some_iff.mp hstep
      refine hquiet ⟨⟨⟨hsound.queue.increasing, ?_, ?_⟩, hsound.valid⟩, rfl⟩
      · exact (Backlog.schedule_pending hschedule).trans hsound.queue.jobs
      · obtain ⟨entry, -, -, rfl⟩ := Backlog.schedule_eq_some hschedule
        intro other hother
        exact hsound.queue.onTime other (List.mem_of_mem_eraseIdx hother)
  | workShip index =>
      simp only [step] at hstep
      cases htake : game.addShips.takeReady index with
      | none =>
          rw [htake] at hstep
          cases hstep
      | some taken =>
          obtain ⟨job, rest⟩ := taken
          rw [htake] at hstep
          cases hstep
          obtain ⟨hperm, hdelayed⟩ := Backlog.takeReady_eq_some htake
          rw [Delivers, htake] at hdelivers
          refine hquiet (hsound.deliver hperm ?_ (of_decide_eq_true hdelivers))
          intro entry hentry
          rwa [hdelayed] at hentry
  | upgradeTechnology technology user =>
      cases hstep
      exact hquiet (hsound.apart (.upgradeTechnology rules technology user))
  | abortTechnology technology user =>
      cases hstep
      exact hquiet (hsound.apart (.abortTechnology rules technology user))
  | fireResearch index =>
      simp only [step] at hstep
      split at hstep
      · cases hstep
        exact hquiet (hsound.apartFrom rfl (.updateUservalues rules _ _))
      · cases hstep
  | scheduleResearch index =>
      obtain ⟨researches, -, rfl⟩ := Option.map_eq_some_iff.mp hstep
      exact hquiet (hsound.of_yard rfl)
  | workResearch index =>
      simp only [step] at hstep
      split at hstep
      · cases hstep
        exact hquiet (hsound.apartFrom rfl (.updateUservalues rules _ _))
      · cases hstep

/-- Of five fighters one is cancelled, three raid planet 11 and lose one, and one waits. -/
def fighters : List GameEvent :=
  [.insert 1 (.single 3 5), .insert 11 (.single 1 1), .createBuildingJob 1 .oremine, .upgradeTechnology 1 1,
    .removeQueue 4, .fleets (.wait 720), .scheduleShip 0, .scheduleShip 0, .scheduleShip 0, .scheduleShip 0,
    .workShip 0, .workShip 0, .workShip 0, .workShip 0, .fleets (.send raid), .fleets (.wait 100000),
    .fleets (.schedule 0), .workPlanet 0, .fleets (.schedule 0), .fleets (.work 0 { picks := [(0, 0)] })]

def raidedGame : Game := (run (GameEvent.step Seeds.rules) (Seeds.game Seeds.start) fighters).get (by decide +kernel)

end Mmog
