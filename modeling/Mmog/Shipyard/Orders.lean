import Mmog.Shipyard.Settlement

/-!
# Orders over whole runs

In every run in which ships find somebody to get them and no job is out of
reach when its entry is cancelled, queue and jobs agree and every entry is
settled once.
-/

namespace Mmog

open Ruby Action Game ShipBuildingQueue

/-- Jobs are run from the delayed set. -/
def GameEvent.fromDelayed : GameEvent → Bool
  | .scheduleShip _ => false
  | .workShip _ => false
  | event => event.atShipyard

theorem GameEvent.atShipyard_of_fromDelayed {event : GameEvent} (hkind : event.fromDelayed = true) :
    event.atShipyard = true := by
  cases event with
  | scheduleShip index => cases hkind
  | workShip index => cases hkind
  | _ => exact hkind

namespace Game

/-- No two entries have one qid, and the pending jobs are one for each entry, due at its end. -/
structure QueueAgrees (game : Game) : Prop where
  qids : ∀ id id' q q', game.queue.get id = some q → game.queue.get id' = some q' →
    q.qid = q'.qid → id = id'
  oneJob : ∀ id q, game.queue.get id = some q → game.addShips.pending.count q.job = 1
  onTime : ∀ id q, game.queue.get id = some q → ⟨q.endTime, q.job⟩ ∈ game.addShips.delayed
  belongs : ∀ job ∈ game.addShips.pending, ∃ id q, game.queue.get id = some q ∧ q.job = job

variable {rules : Rules} {game : Game}

theorem ready_placed (planet : PlanetId) (game : Game) (ships : List (ShipId × ℤ)) :
    (placed rules planet game ships).addShips.ready = game.addShips.ready := by
  induction ships generalizing game with
  | nil => rfl
  | cons entry rest ih =>
      refine (ih _).trans ?_
      rw [addShips_append]

theorem addShips_dropped (game : Game) (qid : ℕ) : (dropped game qid).addShips = game.addShips := by
  unfold dropped
  split <;> rfl

/-- Without the scheduler no job becomes ready. -/
theorem ready_step (hready : game.addShips.ready = []) {event : GameEvent} {next : Game}
    (hkind : event.fromDelayed = true) (hdelivers : game.Delivers event = true)
    (hstep : event.step rules game = some next) : next.addShips.ready = [] := by
  cases event with
  | fleets event =>
      obtain ⟨db, -, rfl⟩ := Option.map_eq_some_iff.mp hstep
      exact hready
  | claim planet user =>
      cases hstep
      rwa [after_onDb]
  | give planet type number =>
      cases hstep
      rwa [after_onDb]
  | take planet type number =>
      cases hstep
      rwa [after_onDb]
  | insert planet ships =>
      cases hstep
      obtain ⟨db, houtcome | houtcome⟩ := insert_outcome rules ships planet game
      · rwa [houtcome]
      · rwa [houtcome, ready_placed]
  | removeQueue id =>
      cases hstep
      cases hget : game.queue.get id with
      | none => rwa [removeQueue_of_none rules hget]
      | some self =>
          obtain ⟨db, houtcome⟩ := removeQueue_outcome rules hget
          rw [houtcome]
          exact (Backlog.ready_rescheduleAll _ _ _ _).trans hready
  | fireShip index =>
      simp only [GameEvent.step] at hstep
      cases htake : game.addShips.takeDelayed index with
      | none =>
          rw [htake] at hstep
          cases hstep
      | some taken =>
          obtain ⟨job, rest⟩ := taken
          rw [htake] at hstep
          cases hstep
          rw [Delivers, htake] at hdelivers
          obtain ⟨db, hafter⟩ := AddShip.perform_delivers rules
            (show ({ game with addShips := rest } : Game).db.Receives job.planet from
              of_decide_eq_true hdelivers)
          rw [hafter, addShips_dropped]
          exact (Backlog.takeDelayed_eq_some htake).2.1.trans hready
  | _ => cases hkind

theorem cancelsInTime_of_ready (hready : game.addShips.ready = []) (event : GameEvent) :
    game.CancelsInTime event = true := by
  cases event with
  | removeQueue id =>
      rw [CancelsInTime, hready]
      cases game.queue.get id with
      | none => rfl
      | some self => simp
  | _ => rfl

theorem QueueInv.agrees (hinv : game.QueueInv) (hready : game.addShips.ready = []) :
    game.QueueAgrees where
  qids id id' q q' hget hget' hqid := (hinv.row_of_qid hget hget' hqid).1
  oneJob id q hget :=
    List.count_eq_one_of_mem hinv.nodup_pending
      (hinv.pending_iff.mpr ⟨q, mem_entries_iff.mpr ⟨id, hget⟩, rfl⟩)
  onTime id q hget := by
    have hmem := mem_entries_iff.mpr ⟨id, hget⟩
    rcases Backlog.mem_pending.mp (hinv.pending_iff.mpr ⟨q, hmem, rfl⟩) with
      ⟨entry, hentry, hjob⟩ | hmem
    · rwa [← hinv.onTime entry hentry q hmem hjob.symm, ← hjob]
    · rw [hready] at hmem
      cases hmem
  belongs job hjob := by
    obtain ⟨q, hq, heq⟩ := hinv.pending_iff.mp hjob
    obtain ⟨id, hget⟩ := mem_entries_iff.mp hq
    exact ⟨id, q, hget, heq⟩

end Game

namespace ShipBuildingQueue

/-- Queue and jobs agree over every run whose jobs fire for planets that get their ships. -/
theorem queue_agrees (rules : Rules) {start game : Game} {events : List GameEvent}
    (hstart : start.NoOrders)
    (hgood : Along (GameEvent.step rules)
      (fun game event => event.fromDelayed = true ∧ game.Delivers event = true) start events)
    (hrun : run (GameEvent.step rules) start events = some game) :
    game.QueueAgrees ∧
      OnceEach start.queue.nextId (collect (GameEvent.step rules) Game.settles start events)
        game.queue := by
  have hfinal := run_collects
    (fun log game => InOrder start.queue.nextId log game ∧ game.addShips.ready = [])
    (fun log game event next hinv hgood hstep =>
      ⟨hinv.1.step (GameEvent.atShipyard_of_fromDelayed hgood.1) hgood.2
          (cancelsInTime_of_ready hinv.2 event) hstep,
        ready_step hinv.2 hgood.1 hgood.2 hstep⟩)
    ⟨hstart.inOrder, congrArg Backlog.ready hstart.addShips⟩ hgood hrun
  exact ⟨hfinal.1.queue.agrees hfinal.2, hfinal.1.settled⟩

/-- A run that orders three ships, cancels the second and gets the first. -/
def sampleOrders : List GameEvent :=
  [.insert 1 (.single 3 3), .removeQueue 2, .fleets (.wait 240), .fireShip 0]

def sampleGame : Game :=
  (run (GameEvent.step Seeds.rules) (Seeds.game Seeds.start) sampleOrders).get (by decide)

theorem queue_agrees_sample :
    sampleGame.QueueAgrees ∧
      OnceEach 1 [(some 2, Settlement.refunded), (some 1, Settlement.delivered)]
        sampleGame.queue := by
  have hlog : collect (GameEvent.step Seeds.rules) Game.settles (Seeds.game Seeds.start)
      sampleOrders = [(some 2, Settlement.refunded), (some 1, Settlement.delivered)] := by
    decide
  have hrun : run (GameEvent.step Seeds.rules) (Seeds.game Seeds.start) sampleOrders =
      some sampleGame := (Option.some_get _).symm
  have hagrees := queue_agrees Seeds.rules ⟨fun _ => rfl, rfl⟩ (by decide) hrun
  rwa [hlog] at hagrees

/-- A run in which a planet without an owner orders a ship that costs no money. -/
def unownedOrders : List GameEvent := [.insert 3 (.single 8 1), .fleets (.wait 480), .fireShip 0]

def unownedGame : Game :=
  (run (GameEvent.step Seeds.rules) (Seeds.game Seeds.start) unownedOrders).get (by decide)

/-- The job of a ship that nobody gets is gone, and its entry stays. -/
theorem queue_not_agrees :
    run (GameEvent.step Seeds.rules) (Seeds.game Seeds.start) unownedOrders = some unownedGame ∧
      (Seeds.game Seeds.start).NoOrders ∧
      (∀ event ∈ unownedOrders, event.fromDelayed = true) ∧ ¬ unownedGame.QueueAgrees := by
  refine ⟨(Option.some_get _).symm, ⟨fun _ => rfl, rfl⟩, by decide, fun hagrees => ?_⟩
  have hnone : unownedGame.addShips.pending.count ⟨8, 3, 0⟩ = 0 := by decide
  have hone := hagrees.oneJob 1 ⟨8, 3, 1480, 0⟩ (by decide)
  exact absurd (hone.symm.trans hnone) one_ne_zero

/-! ## The scheduler -/

/-- A run that orders two ships, cancels the second, and waits for the first. -/
def scheduledOrders : List GameEvent :=
  [.insert 1 (.single 3 2), .removeQueue 2, .fleets (.wait 240), .scheduleShip 0, .workShip 0]

def scheduledGame : Game :=
  (run (GameEvent.step Seeds.rules) (Seeds.game Seeds.start) scheduledOrders).get
    (by decide)

/-- A run in which an entry is cancelled while its job is ready. -/
def lateOrders : List GameEvent :=
  [.insert 1 (.single 3 1), .fleets (.wait 240), .scheduleShip 0, .removeQueue 1, .workShip 0]

end ShipBuildingQueue

end Mmog
