import Mmog.Model.Seeds
import Mmog.Shipyard.Agreement

/-!
# Settled orders

An entry of the ship queue is settled when its ship is delivered or paid back.
A run in which no job is out of reach when its entry is cancelled, and every
ship finds somebody to get it, settles every entry once.
-/

namespace Mmog

open Ruby Action Game ShipBuildingQueue

inductive Settlement where
  | delivered | refunded
  deriving DecidableEq

namespace Game

/-- The entry that a job is the job of. -/
def entryOf (game : Game) (job : AddShip) : Option ℕ :=
  (game.queue.last fun q => q.job = job).map Prod.fst

/-- The record of a job that is run: only a planet that gets the ship has one. -/
def deliveries (game : Game) (taken : Option (AddShip × Backlog AddShip)) :
    List (Option ℕ × Settlement) :=
  match taken with
  | some (job, _) => if game.db.Receives job.planet then [(game.entryOf job, .delivered)] else []
  | none => []

/-- Which entries an event settles, and how. -/
def settles (game : Game) : GameEvent → List (Option ℕ × Settlement)
  | .removeQueue id => if (game.queue.get id).isSome then [(some id, .refunded)] else []
  | .fireShip index => game.deliveries (game.addShips.takeDelayed index)
  | .workShip index => game.deliveries (game.addShips.takeReady index)
  | _ => []

/-- The planet that a taken job builds for gets the ship. -/
def getsShip (game : Game) (taken : Option (AddShip × Backlog AddShip)) : Bool :=
  taken.all fun (job, _) => game.db.Receives job.planet

/-- A job that is run is for a planet that gets the ship. -/
def Delivers (game : Game) : GameEvent → Bool
  | .fireShip index => game.getsShip (game.addShips.takeDelayed index)
  | .workShip index => game.getsShip (game.addShips.takeReady index)
  | _ => true

/-- The job of the entry that is cancelled, and of those that move forward, are still delayed. -/
def CancelsInTime (game : Game) : GameEvent → Bool
  | .removeQueue id => (game.queue.get id).all fun self =>
      self.job ∉ game.addShips.ready ∧ ∀ q ∈ behind game self, q.job ∉ game.addShips.ready
  | _ => true

/-- Entries and jobs agree, and the entries from `first` on were each settled once. -/
structure InOrder (first : ℕ) (log : List (Option ℕ × Settlement)) (game : Game) : Prop where
  queue : game.QueueInv
  settled : OnceEach first log game.queue

/-- Nothing is ordered. -/
structure NoOrders (game : Game) : Prop where
  queue : ∀ id, game.queue.get id = none
  addShips : game.addShips = .empty

theorem NoOrders.rows {game : Game} (hnone : game.NoOrders) : game.queue.rows = [] :=
  List.eq_nil_iff_forall_not_mem.mpr fun row hrow =>
    absurd (Table.mem_rows.mp hrow) (by rw [hnone.queue]; nofun)

theorem NoOrders.inOrder {game : Game} (hnone : game.NoOrders) :
    InOrder game.queue.nextId [] game where
  queue := by
    have hentries : game.entries = [] := congrArg (List.map Prod.snd) hnone.rows
    constructor
    · rw [hentries]
      exact List.Pairwise.nil
    · rw [hentries, hnone.addShips]
      exact List.Perm.nil
    · intro entry hentry
      rw [hnone.addShips] at hentry
      cases hentry
  settled := OnceEach.nil game.queue

end Game

/-- What the shipyard does, and what happens to planets and fleets meanwhile. -/
def GameEvent.atShipyard : GameEvent → Bool
  | .fleets _ => true
  | .claim _ _ => true
  | .give _ _ _ => true
  | .take _ _ _ => true
  | .insert _ _ => true
  | .removeQueue _ => true
  | .fireShip _ => true
  | .scheduleShip _ => true
  | .workShip _ => true
  | _ => false

namespace Game.InOrder

variable {rules : Rules} {first : ℕ} {log : List (Option ℕ × Settlement)} {game : Game}

theorem setDb (hinv : InOrder first log game) (db : Db) : InOrder first log (game.setDb db) :=
  ⟨hinv.queue.setDb db, hinv.settled⟩

theorem onceEach_foldl (new : List ShipBuildingQueue) {t : Table ShipBuildingQueue}
    (hledger : OnceEach first log t) : OnceEach first log (new.foldl Table.create t) := by
  induction new generalizing t with
  | nil => exact hledger
  | cons q new ih => exact ih (hledger.create q)

theorem place (hinv : InOrder first log game) (planet : PlanetId) (ships : List (ShipId × ℤ)) :
    InOrder first log (placed rules planet game ships) := by
  refine ⟨queueInv_placed rules hinv.queue ships, ?_⟩
  replace hinv := hinv.settled
  induction ships generalizing game with
  | nil => exact hinv
  | cons entry rest ih => exact ih (onceEach_foldl _ hinv)

theorem cancel (hinv : InOrder first log game) {id : ℕ} {self : ShipBuildingQueue}
    (hget : game.queue.get id = some self) (hself : self.job ∉ game.addShips.ready)
    (hbehind : ∀ q ∈ behind game self, q.job ∉ game.addShips.ready) :
    InOrder first (log ++ [(some id, .refunded)]) (cancelled game id self) := by
  refine ⟨hinv.queue.cancel hget hself hbehind, ?_⟩
  have hmap : (game.queue.mapRows (moved game.db.now self)).get id = _ :=
    congrArg (Option.map (moved game.db.now self)) hget
  exact (hinv.settled.mapRows (moved game.db.now self)).destroy hmap .refunded

/-- A job that is run delivers its ship and takes its entry with it. -/
theorem perform (hinv : InOrder first log game) {job : AddShip} {rest : Backlog AddShip}
    (htake : game.addShips.pending.Perm (job :: rest.pending))
    (hdelayed : ∀ entry ∈ rest.delayed, entry ∈ game.addShips.delayed)
    (hreceives : game.db.Receives job.planet) :
    InOrder first (log ++ game.deliveries (some (job, rest)))
      (after ((job.perform rules).run { game with addShips := rest })) := by
  have hpending : job ∈ game.addShips.pending := htake.mem_iff.mpr List.mem_cons_self
  obtain ⟨id, q, hget, rfl, hqid, hjob⟩ := hinv.queue.row_of_pending hpending
  obtain ⟨db, hafter⟩ := AddShip.perform_delivers rules
    (show ({ game with addShips := rest } : Game).db.Receives q.job.planet from hreceives)
  have hdropped : dropped (({ game with addShips := rest } : Game).setDb db) q.job.qid =
      ({ game with addShips := rest, queue := game.queue.destroy id } : Game).setDb db := by
    unfold dropped
    rw [show (({ game with addShips := rest } : Game).setDb db).queue.last _ = _ from hqid]
    rfl
  have hrecord : game.deliveries (some (q.job, rest)) = [(some id, .delivered)] := by
    rw [deliveries, if_pos hreceives, entryOf, hjob]
    rfl
  rw [hafter, hdropped, hrecord]
  exact ⟨(hinv.queue.deliver hget htake hdelayed).setDb db, hinv.settled.destroy hget .delivered⟩

/-- Every event of the shipyard that delivers and cancels in time keeps everything in order. -/
theorem step (hinv : InOrder first log game) {event : GameEvent} {next : Game}
    (hkind : event.atShipyard = true) (hdelivers : game.Delivers event = true)
    (hcancels : game.CancelsInTime event = true) (hstep : event.step rules game = some next) :
    InOrder first (log ++ game.settles event) next := by
  have hquiet : ∀ {game' : Game}, InOrder first log game' → InOrder first (log ++ []) game' := by
    intro game' hgame'
    rwa [List.append_nil]
  cases event with
  | fleets event =>
      obtain ⟨db, -, rfl⟩ := Option.map_eq_some_iff.mp hstep
      exact hquiet (hinv.setDb db)
  | claim planet user =>
      cases hstep
      rw [after_onDb]
      exact hquiet (hinv.setDb _)
  | give planet type number =>
      cases hstep
      rw [after_onDb]
      exact hquiet (hinv.setDb _)
  | take planet type number =>
      cases hstep
      rw [after_onDb]
      exact hquiet (hinv.setDb _)
  | insert planet ships =>
      cases hstep
      apply hquiet
      obtain ⟨db, houtcome | houtcome⟩ := insert_outcome rules ships planet game
      · rw [houtcome]
        exact hinv.setDb db
      · rw [houtcome]
        exact (hinv.setDb db).place planet ships.entries
  | removeQueue id =>
      cases hstep
      rw [settles]
      cases hget : game.queue.get id with
      | none =>
          rw [removeQueue_of_none rules hget]
          exact hquiet hinv
      | some self =>
          obtain ⟨db, houtcome⟩ := removeQueue_outcome rules hget
          rw [CancelsInTime, hget, Option.all_some] at hcancels
          obtain ⟨hself, hbehind⟩ := of_decide_eq_true hcancels
          rw [houtcome]
          exact (hinv.cancel hget hself hbehind).setDb db
  | fireShip index =>
      rw [settles]
      simp only [GameEvent.step] at hstep
      cases htake : game.addShips.takeDelayed index with
      | none =>
          rw [htake] at hstep
          cases hstep
      | some taken =>
          obtain ⟨job, rest⟩ := taken
          rw [htake] at hstep
          cases hstep
          obtain ⟨hperm, -, hdelayed⟩ := Backlog.takeDelayed_eq_some htake
          rw [Delivers, htake] at hdelivers
          exact hinv.perform hperm hdelayed (of_decide_eq_true hdelivers)
  | scheduleShip index =>
      obtain ⟨addShips, hschedule, rfl⟩ := Option.map_eq_some_iff.mp hstep
      refine hquiet ⟨⟨hinv.queue.increasing, ?_, ?_⟩, hinv.settled⟩
      · exact (Backlog.schedule_pending hschedule).trans hinv.queue.jobs
      · obtain ⟨entry, -, -, rfl⟩ := Backlog.schedule_eq_some hschedule
        intro entry' hentry'
        exact hinv.queue.onTime entry' (List.mem_of_mem_eraseIdx hentry')
  | workShip index =>
      rw [settles]
      simp only [GameEvent.step] at hstep
      cases htake : game.addShips.takeReady index with
      | none =>
          rw [htake] at hstep
          cases hstep
      | some taken =>
          obtain ⟨job, rest⟩ := taken
          rw [htake] at hstep
          cases hstep
          obtain ⟨hperm, hdelayed⟩ := Backlog.takeReady_eq_some htake
          rw [Delivers, htake] at hdelivers
          refine hinv.perform hperm ?_ (of_decide_eq_true hdelivers)
          intro entry hentry
          rwa [hdelayed] at hentry
  | _ => cases hkind

end Game.InOrder

end Mmog
