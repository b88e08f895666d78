import Mmog.Model.Universe
import Mmog.Ships.Delivery

/-!
# Entries of the ship queue

What an order, a cancellation and a delivery leave of the entries and of the
jobs.  Planets and users only change within `db`.
-/

namespace Mmog

open Ruby Action Game

/-- The live entries in the order of their ids. -/
def Game.entries (game : Game) : List ShipBuildingQueue := game.queue.rows.map Prod.snd

@[simp] theorem Game.entries_setDb (game : Game) (db : Db) : (game.setDb db).entries = game.entries :=
  rfl

namespace Planet

theorem take_returns (p : PlanetId) (type : Resource) (number : Numeric) (db : Db) :
    ∃ back next, (take p type number).run db = .ok back next := by
  rw [take]
  split
  · exact ⟨_, _, rfl⟩
  · rw [run_bind_get]
    cases type with
    | money =>
        dsimp only
        cases (db.planets p).user with
        | none => exact ⟨_, _, rfl⟩
        | some u => exact ⟨_, _, rfl⟩
    | ore => exact ⟨_, _, rfl⟩
    | crystal => exact ⟨_, _, rfl⟩
    | population => exact ⟨_, _, rfl⟩
    | energy => exact ⟨_, _, rfl⟩
    | other => exact ⟨_, _, rfl⟩

theorem give_returns (p : PlanetId) (type : Resource) (number : Numeric) (db : Db) :
    ∃ back next, (give p type number).run db = .ok back next := by
  rw [give]
  split
  · exact ⟨_, _, rfl⟩
  · rw [run_bind_get]
    cases type with
    | money =>
        dsimp only
        cases (db.planets p).user with
        | none => exact ⟨_, _, rfl⟩
        | some u => exact ⟨_, _, rfl⟩
    | ore => exact ⟨_, _, rfl⟩
    | crystal => exact ⟨_, _, rfl⟩
    | population => exact ⟨_, _, rfl⟩
    | energy => exact ⟨_, _, rfl⟩
    | other => exact ⟨_, _, rfl⟩

end Planet

namespace ShipBuildingQueue

variable (rules : Rules)

/-! ## Orders -/

theorem rows_foldl_create (t : Table ShipBuildingQueue) (l : List ShipBuildingQueue) :
    ((l.foldl Table.create t).rows.map Prod.snd) = t.rows.map Prod.snd ++ l := by
  induction l generalizing t with
  | nil => rw [List.foldl_nil, List.append_nil]
  | cons q l ih => rw [List.foldl_cons, ih, Table.rows_create, List.map_append, List.append_assoc]; rfl

theorem entries_append (game : Game) (new : List ShipBuildingQueue) :
    (append game new).entries = game.entries ++ new :=
  rows_foldl_create game.queue new

theorem addShips_append (game : Game) (new : List ShipBuildingQueue) :
    (append game new).addShips =
      ⟨game.addShips.delayed ++ new.map fun q => ⟨q.endTime, q.job⟩, game.addShips.ready⟩ :=
  Backlog.foldl_enqueueAt job endTime game.addShips new

variable {rules} in
theorem planet_of_mem_entriesFor {ship : ShipId} {planet : PlanetId} {n : ℕ} {plus : ℤ} {qid : ℕ}
    {q : ShipBuildingQueue} (hq : q ∈ entriesFor rules ship planet n plus qid) : q.planet = planet := by
  induction n generalizing plus qid with
  | zero => cases hq
  | succ n ih =>
      rcases List.mem_cons.mp hq with rfl | hq
      · rfl
      · exact ih hq

/-- The game with the ships of an order queued. -/
def placed (planet : PlanetId) : Game → List (ShipId × ℤ) → Game
  | game, [] => game
  | game, (ship, value) :: rest =>
      let (qid, plus) := nextSlot game planet
      placed planet (append game (entriesFor rules ship planet value.toNat plus qid)) rest

theorem insertAll_apply (planet : PlanetId) (game : Game) (ships : List (ShipId × ℤ)) :
    (insertAll rules planet ships).run game = .ok ⟨⟩ (placed rules planet game ships) := by
  induction ships generalizing game with
  | nil => rfl
  | cons entry rest ih => exact ih _

theorem onDb_take (p : PlanetId) (type : Resource) (number : Numeric) (game : Game) (before : Db) :
    ∃ back db, (onDb (Planet.take p type number)).run (game.setDb before) =
      .ok back (game.setDb db) := by
  obtain ⟨back, db, htake⟩ := Planet.take_returns p type number before
  exact ⟨back, db, run_onDb_of_ok htake⟩

theorem onDb_give (p : PlanetId) (type : Resource) (number : Numeric) (game : Game) (before : Db) :
    ∃ back db, (onDb (Planet.give p type number)).run (game.setDb before) =
      .ok back (game.setDb db) := by
  obtain ⟨back, db, hgive⟩ := Planet.give_returns p type number before
  exact ⟨back, db, run_onDb_of_ok hgive⟩

/-- An order is queued as a whole or leaves the queue as it was. -/
theorem insert_outcome (s : Hash ShipId ℤ) (planet : PlanetId) (game : Game) :
    ∃ db, after ((insert rules s planet).run game) = game.setDb db ∨
      after ((insert rules s planet).run game) = placed rules planet (game.setDb db) s.entries := by
  rw [insert, ← setDb_db game]
  obtain ⟨o, db₁, hore⟩ := onDb_take planet .ore
    (cost (fun ship => (rules.ship ship).oreCost) s) game game.db
  obtain ⟨c, db₂, hcrystal⟩ := onDb_take planet .crystal
    (cost (fun ship => (rules.ship ship).crystalCost) s) game db₁
  obtain ⟨m, db₃, hmoney⟩ := onDb_take planet .money
    (cost (fun ship => (rules.ship ship).creditCost) s) game db₂
  obtain ⟨crew, db₄, hcrew⟩ := onDb_take planet .population (cost rules.crewCapacity s) game db₃
  rw [run_bind_of_ok hore, run_bind_of_ok hcrystal, run_bind_of_ok hmoney, run_bind_of_ok hcrew]
  split
  · rw [run_bind_of_ok (insertAll_apply rules planet _ s.entries)]
    exact ⟨db₄, .inr rfl⟩
  · obtain ⟨_, db₅, hore⟩ := onDb_give planet .ore o game db₄
    obtain ⟨_, db₆, hcrystal⟩ := onDb_give planet .crystal c game db₅
    obtain ⟨_, db₇, hmoney⟩ := onDb_give planet .money m game db₆
    obtain ⟨_, db₈, hcrew⟩ := onDb_give planet .population crew game db₇
    rw [run_bind_of_ok hore, run_bind_of_ok hcrystal, run_bind_of_ok hmoney, run_bind_of_ok hcrew]
    exact ⟨db₈, .inl rfl⟩

/-! ## Cancellations -/

/-- An entry after `self` was cancelled: those of the planet that end later move forward. -/
def moved (now : ℕ) (self q : ShipBuildingQueue) : ShipBuildingQueue :=
  if endsAfter self.planet self.endTime q then { q with endTime := q.endTime - (self.endTime - now) }
  else q

@[simp] theorem job_moved (now : ℕ) (self q : ShipBuildingQueue) : (moved now self q).job = q.job := by
  unfold moved
  split <;> rfl

/-- The entries whose jobs are enqueued anew when `self` is cancelled. -/
def behind (game : Game) (self : ShipBuildingQueue) : List ShipBuildingQueue :=
  game.entries.filter (endsAfter self.planet self.endTime)

/-- The game after `self`, the entry under this id, was cancelled. -/
def cancelled (game : Game) (id : ℕ) (self : ShipBuildingQueue) : Game :=
  { game with
    addShips := Backlog.rescheduleAll job (fun q => q.endTime - (self.endTime - game.db.now))
      (game.addShips.removeDelayed self.job) (behind game self)
    queue := (game.queue.mapRows (moved game.db.now self)).destroy id }

theorem removeQueue_of_none {game : Game} {id : ℕ} (hget : game.queue.get id = none) :
    after ((removeQueue rules id).run game) = game := by
  rw [removeQueue, run_bind_get, hget]
  rfl

theorem removeQueue_outcome {game : Game} {id : ℕ} {self : ShipBuildingQueue}
    (hget : game.queue.get id = some self) :
    ∃ db, after ((removeQueue rules id).run game) = (cancelled game id self).setDb db := by
  rw [removeQueue, run_bind_get, hget]
  let shifted : Game := { game with
    addShips := (cancelled game id self).addShips
    queue := game.queue.mapRows (moved game.db.now self) }
  have hupdate : (updateTime self.endTime self.planet (self.endTime - game.db.now)).run
      { game with addShips := game.addShips.removeDelayed self.job } =
        .ok ⟨⟩ (shifted.setDb game.db) := rfl
  obtain ⟨_, db₁, hore⟩ := onDb_give self.planet .ore
    ((rules.ship self.ship).oreCost : ℤ) shifted game.db
  obtain ⟨_, db₂, hcrystal⟩ := onDb_give self.planet .crystal
    ((rules.ship self.ship).crystalCost : ℤ) shifted db₁
  obtain ⟨_, db₃, hmoney⟩ := onDb_give self.planet .money
    ((rules.ship self.ship).crystalCost : ℤ) shifted db₂
  obtain ⟨_, db₄, hcrew⟩ := onDb_give self.planet .population
    (rules.crewCapacity self.ship : ℤ) shifted db₃
  dsimp only
  rw [run_bind_modify, run_bind_of_ok hupdate, run_bind_of_ok hore, run_bind_of_ok hcrystal,
    run_bind_of_ok hmoney, run_bind_of_ok hcrew]
  exact ⟨db₄, rfl⟩

/-! ## Deliveries -/

/-- The game without the last entry of this qid. -/
def dropped (game : Game) (qid : ℕ) : Game :=
  match game.queue.last fun q => q.qid = qid with
  | some (id, _) => { game with queue := game.queue.destroy id }
  | none => game

end ShipBuildingQueue

open ShipBuildingQueue

theorem AddShip.perform_delivers (rules : Rules) {game : Game} {job : AddShip}
    (hreceives : game.db.Receives job.planet) :
    ∃ db, after ((job.perform rules).run game) = dropped (game.setDb db) job.qid := by
  obtain ⟨_, hadd⟩ := exists_of_returned
    ((Fleet.addShipToPlanet_returned_iff rules.toWorld job.ship).mpr hreceives)
  rw [AddShip.perform, run_bind_of_ok (run_onDb_of_ok hadd)]
  exact ⟨_, rfl⟩

theorem AddShip.perform_fails (rules : Rules) {game : Game} {job : AddShip}
    (hreceives : ¬ game.db.Receives job.planet) :
    ∃ db, after ((job.perform rules).run game) = game.setDb db := by
  cases hadd : (Fleet.addShipToPlanet rules.toWorld job.ship job.planet).run game.db with
  | ok value db =>
      refine absurd ((Fleet.addShipToPlanet_returned_iff rules.toWorld job.ship).mp ?_) hreceives
      rw [hadd, returned_ok]
  | error err db =>
      rw [AddShip.perform, run_bind_of_error (run_onDb_of_error hadd)]
      exact ⟨db, rfl⟩

end Mmog
