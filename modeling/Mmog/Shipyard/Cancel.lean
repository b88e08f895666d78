import Mmog.Shipyard.Agreement
import Mmog.Shipyard.Payment

/-!
# Cancelling an order

What is left when all entries of an accepted order are cancelled: the stocks are
what they were, the money is if the order costs as much money as crystal, and
so are queue and jobs unless a cancellation moves an entry that was there before.
-/

namespace Mmog

open Ruby Action Game Planet

/-- What a cancellation pays back; the money comes by the price in crystal. -/
def Rules.refund (rules : Rules) : Resource → ShipId → ℕ
  | .money, ship => rules.price .crystal ship
  | type, ship => rules.price type ship

namespace ShipBuildingQueue

variable (rules : Rules)

/-! ## One cancellation -/

/-- What there is after a ship was paid back. -/
def repaid (db : Db) (p : PlanetId) (ship : ShipId) (h : Resource → ℤ) (type : Resource) : ℤ :=
  grown db p type (h type) (rules.refund type ship)

theorem repaid_apply (db : Db) (p : PlanetId) (ship : ShipId) (h : Resource → ℤ) :
    ∃ (back₁ back₂ back₃ back₄ : Numeric) (db₁ db₂ db₃ : Db),
      (give p .ore ((rules.ship ship).oreCost : ℤ)).run (db.withHoldings p h) = .ok back₁ db₁ ∧
      (give p .crystal ((rules.ship ship).crystalCost : ℤ)).run db₁ = .ok back₂ db₂ ∧
      (give p .money ((rules.ship ship).crystalCost : ℤ)).run db₂ = .ok back₃ db₃ ∧
      (give p .population (rules.crewCapacity ship : ℤ)).run db₃ =
        .ok back₄ (db.withHoldings p (repaid rules db p ship h)) := by
  let h₁ := Function.update h .ore (repaid rules db p ship h .ore)
  let h₂ := Function.update h₁ .crystal (repaid rules db p ship h .crystal)
  let h₃ := Function.update h₂ .money (repaid rules db p ship h .money)
  have hback : Function.update h₃ .population (repaid rules db p ship h .population) =
      repaid rules db p ship h := by
    funext type
    cases type <;> rfl
  obtain ⟨back₁, hore⟩ : ∃ back, (give p .ore ((rules.ship ship).oreCost : ℤ)).run (db.withHoldings p h) =
      .ok back (db.withHoldings p h₁) := ⟨_, give_apply _ _ _ .ore _⟩
  obtain ⟨back₂, hcrystal⟩ : ∃ back, (give p .crystal ((rules.ship ship).crystalCost : ℤ)).run
      (db.withHoldings p h₁) = .ok back (db.withHoldings p h₂) := ⟨_, give_apply _ _ _ .crystal _⟩
  obtain ⟨back₃, hmoney⟩ : ∃ back, (give p .money ((rules.ship ship).crystalCost : ℤ)).run
      (db.withHoldings p h₂) = .ok back (db.withHoldings p h₃) := ⟨_, give_apply _ _ _ .money _⟩
  obtain ⟨back₄, hpopulation⟩ : ∃ back, (give p .population (rules.crewCapacity ship : ℤ)).run
      (db.withHoldings p h₃) = .ok back (db.withHoldings p (Function.update h₃ .population _)) :=
    ⟨_, give_apply _ _ _ .population _⟩
  refine ⟨back₁, back₂, back₃, back₄, _, _, _, hore, hcrystal, hmoney, ?_⟩
  rw [← hback]
  exact hpopulation

theorem removeQueue_apply {game : Game} {id : ℕ} {self : ShipBuildingQueue} {db : Db} {h : Resource → ℤ}
    (hget : game.queue.get id = some self) (hdb : game.db = db.withHoldings self.planet h) :
    after ((removeQueue rules id).run game) =
      (cancelled game id self).setDb (db.withHoldings self.planet (repaid rules db self.planet self.ship h)) := by
  let shifted : Game := { game with
    addShips := (cancelled game id self).addShips
    queue := game.queue.mapRows (moved game.db.now self) }
  have hupdate : (updateTime self.endTime self.planet (self.endTime - game.db.now)).run
      { game with addShips := game.addShips.removeDelayed self.job } = .ok ⟨⟩ shifted := rfl
  obtain ⟨back₁, back₂, back₃, back₄, db₁, db₂, db₃, hore, hcrystal, hmoney, hpopulation⟩ :=
    repaid_apply rules db self.planet self.ship h
  have hfirst : (onDb (give self.planet .ore ((rules.ship self.ship).oreCost : ℤ))).run shifted =
      .ok back₁ (shifted.setDb db₁) := run_onDb_of_ok (by rwa [← hdb] at hore)
  rw [removeQueue, run_bind_get, hget]
  dsimp only
  rw [run_bind_modify, run_bind_of_ok hupdate]
  refine (congrArg after (run_bind_of_ok hfirst _)).trans ?_
  refine (congrArg after (run_bind_of_ok (run_onDb_of_ok hcrystal) _)).trans ?_
  refine (congrArg after (run_bind_of_ok (run_onDb_of_ok hmoney) _)).trans ?_
  exact congrArg after (run_bind_of_ok (run_onDb_of_ok hpopulation) _)

/-! ## All cancellations -/

/-- The game some seconds later. -/
def later (game : Game) (seconds : ℕ) : Game :=
  game.setDb { game.db with now := game.db.now + seconds }

/-- Waiting for some seconds, and then the cancellation of the entry with this id. -/
def cancelling (game : Game) (event : ℕ × ℕ) : Option Game :=
  some (after ((removeQueue rules event.2).run (later game event.1)))

/-- The ids that the second game has given to entries and the first one had not. -/
def newIds (before after : Game) : List ℕ :=
  (after.queue.rows.filter fun row => before.queue.nextId ≤ row.1).map Prod.fst

/-- What paying back the entries with these ids comes to. -/
def owed (queue : Table ShipBuildingQueue) (ids : List ℕ) (type : Resource) : ℤ :=
  (ids.map fun id => ((queue.get id).map fun q => (rules.refund type q.ship : ℤ)).getD 0).sum

variable {rules}

theorem owed_cons {queue : Table ShipBuildingQueue} {id : ℕ} {q : ShipBuildingQueue}
    (hget : queue.get id = some q) (ids : List ℕ) (type : Resource) :
    owed rules queue (id :: ids) type = rules.refund type q.ship + owed rules queue ids type := by
  rw [owed, List.map_cons, List.sum_cons, hget]
  rfl

theorem owed_nonneg (queue : Table ShipBuildingQueue) (ids : List ℕ) (type : Resource) :
    0 ≤ owed rules queue ids type := by
  refine List.sum_nonneg fun amount hamount => ?_
  obtain ⟨id, -, rfl⟩ := List.mem_map.mp hamount
  cases queue.get id with
  | none => exact le_rfl
  | some q => exact Nat.cast_nonneg _

theorem owed_perm (queue : Table ShipBuildingQueue) {ids other : List ℕ} (hperm : ids.Perm other)
    (type : Resource) : owed rules queue ids type = owed rules queue other type :=
  (hperm.map _).sum_eq

theorem mem_newIds {before after : Game} {id : ℕ} :
    id ∈ newIds before after ↔ before.queue.nextId ≤ id ∧ ∃ q, after.queue.get id = some q := by
  rw [newIds, List.mem_map]
  constructor
  · rintro ⟨⟨id, q⟩, hrow, rfl⟩
    obtain ⟨hmem, hle⟩ := List.mem_filter.mp hrow
    exact ⟨of_decide_eq_true hle, q, Table.mem_rows.mp hmem⟩
  · rintro ⟨hle, q, hget⟩
    exact ⟨(id, q), List.mem_filter.mpr ⟨Table.mem_rows.mpr hget, decide_eq_true hle⟩, rfl⟩

theorem nodup_newIds (before after : Game) : (newIds before after).Nodup :=
  after.queue.rows_nodup.sublist (List.filter_sublist.map Prod.fst)

/-- All new entries together are owed what is paid back for each. -/
theorem owed_newIds (before after : Game) (type : Resource) :
    owed rules after.queue (newIds before after) type =
      ((newEntries before after).map fun q => (rules.refund type q.ship : ℤ)).sum := by
  rw [owed, newIds, newEntries, List.map_map, List.map_map]
  refine congrArg List.sum (List.map_congr_left fun row hrow => ?_)
  have hget := Table.mem_rows.mp (List.mem_filter.mp hrow).1
  change ((after.queue.get row.1).map _).getD 0 = _
  rw [hget]
  rfl

/-! ### What is paid back -/

section Owing

variable (rules) in
/-- The entries with these ids are still there, and together with what is owed for them the planet
and its owner have as much of everything as is given. -/
structure Owing (base : Db) (start : Table ShipBuildingQueue) (planet : PlanetId) (total : Resource → ℤ)
    (ids : List ℕ) (game : Game) : Prop where
  db : ∃ (now : ℕ) (h : Resource → ℤ), game.db = ({ base with now } : Db).withHoldings planet h ∧
    ∀ type, base.CanHold planet type → h type + owed rules start ids type = total type
  rows : ∀ id ∈ ids, ∃ q, game.queue.get id = some q ∧ q.planet = planet ∧ (start.get id).map job = some q.job

variable {base : Db} {start : Table ShipBuildingQueue} {planet : PlanetId} {total : Resource → ℤ}

/-- A row that is not cancelled keeps its job. -/
theorem get_cancelled_of_ne {game : Game} {id other : ℕ} (self : ShipBuildingQueue) (hne : other ≠ id) :
    (cancelled game id self).queue.get other = (game.queue.get other).map (moved game.db.now self) :=
  Table.get_destroy_of_ne _ hne

theorem repaid_eq {h : Resource → ℤ} {type : Resource} (hhold : base.CanHold planet type) {ship : ShipId}
    (hroom : type ≠ .money → type ≠ .energy →
      h type + rules.refund type ship ≤ (base.planets planet).maximum type) :
    repaid rules base planet ship h type = h type + rules.refund type ship := by
  unfold repaid grown
  by_cases hle : (rules.refund type ship : ℤ) ≤ 0
  · rw [if_pos hle, le_antisymm hle (Nat.cast_nonneg _), add_zero]
  · rw [if_neg hle]
    cases type with
    | money => exact if_pos hhold
    | other => exact absurd hhold id
    | energy => exact absurd le_rfl hle
    | ore => exact min_eq_right (hroom nofun nofun)
    | crystal => exact min_eq_right (hroom nofun nofun)
    | population => exact min_eq_right (hroom nofun nofun)

theorem planet_moved (now : ℕ) (self q : ShipBuildingQueue) : (moved now self q).planet = q.planet :=
  congrArg AddShip.planet (job_moved now self q)

theorem Owing.step {id : ℕ} {ids : List ℕ} {game next : Game} {seconds : ℕ}
    (hinv : Owing rules base start planet total (id :: ids) game) (hnot : id ∉ ids)
    (hroom : ∀ type, type ≠ .money → type ≠ .energy → base.CanHold planet type →
      total type ≤ (base.planets planet).maximum type)
    (hstep : cancelling rules game (seconds, id) = some next) :
    Owing rules base start planet total ids next := by
  obtain ⟨now, h, hdb, htotal⟩ := hinv.db
  obtain ⟨q, hget, hplanet, hjob⟩ := hinv.rows id List.mem_cons_self
  obtain ⟨original, horiginal, heq⟩ := Option.map_eq_some_iff.mp hjob
  have hship : original.ship = q.ship := congrArg AddShip.ship heq
  have hlater : (later game seconds).queue.get id = some q := hget
  have hwaited : (later game seconds).db =
      ({ base with now := game.db.now + seconds } : Db).withHoldings q.planet h := by
    rw [hplanet, later, db_setDb, hdb]
    rfl
  obtain rfl := Option.some.inj hstep
  dsimp only
  rw [removeQueue_apply rules hlater hwaited]
  refine ⟨⟨game.db.now + seconds, _, by rw [hplanet]; rfl, fun type hhold => ?_⟩, fun other hother => ?_⟩
  · have htype := htotal type hhold
    rw [owed_cons horiginal, hship] at htype
    have hmore : 0 ≤ owed rules start ids type := owed_nonneg start ids type
    change repaid rules base planet q.ship h type + _ = _
    rw [repaid_eq hhold fun hmoney henergy => ?_]
    · rw [add_assoc]
      exact htype
    · have hmaximum := hroom type hmoney henergy hhold
      omega
  · obtain ⟨found, hfound, hfoundPlanet, hfoundJob⟩ := hinv.rows other (List.mem_cons_of_mem id hother)
    have hne : other ≠ id := by
      rintro rfl
      exact hnot hother
    refine ⟨moved (later game seconds).db.now q found, ?_, ?_, ?_⟩
    · refine (get_cancelled_of_ne q hne).trans ?_
      exact congrArg (Option.map _) hfound
    · rw [planet_moved, hfoundPlanet]
    · rw [job_moved, hfoundJob]

/-- After all cancellations nothing is owed any more. -/
theorem Owing.run_cancelling {events : List (ℕ × ℕ)} {game final : Game}
    (hinv : Owing rules base start planet total (events.map Prod.snd) game)
    (hnodup : (events.map Prod.snd).Nodup)
    (hroom : ∀ type, type ≠ .money → type ≠ .energy → base.CanHold planet type →
      total type ≤ (base.planets planet).maximum type)
    (hrun : run (cancelling rules) game events = some final) :
    Owing rules base start planet total [] final := by
  induction events generalizing game with
  | nil =>
      cases hrun
      exact hinv
  | cons event events ih =>
      obtain ⟨next, hstep, hrest⟩ := run_cons hrun
      obtain ⟨hnot, hnodup⟩ := List.nodup_cons.mp hnodup
      exact ih (hinv.step hnot hroom hstep) hnodup hrest

end Owing

/-! ### What is moved -/

/-- No entry of the planet from before the order ends after the one that is cancelled. -/
def OldFirst (base : Game) (game : Game) (event : ℕ × ℕ) : Prop :=
  ∀ q, game.queue.get event.2 = some q → ∀ id < base.queue.nextId, ∀ old, game.queue.get id = some old →
    endsAfter q.planet q.endTime old = false

/-- The entry that is cancelled is not complete yet. -/
def InTime (game : Game) (event : ℕ × ℕ) : Prop :=
  ∀ q, game.queue.get event.2 = some q → (game.db.now : ℤ) + event.1 < q.endTime

instance (base game : Game) (event : ℕ × ℕ) : Decidable (OldFirst base game event) :=
  inferInstanceAs (Decidable (∀ q ∈ game.queue.get event.2, ∀ id < base.queue.nextId,
    ∀ old ∈ game.queue.get id, endsAfter q.planet q.endTime old = false))

instance (game : Game) (event : ℕ × ℕ) : Decidable (InTime game event) :=
  inferInstanceAs (Decidable (∀ q ∈ game.queue.get event.2, (game.db.now : ℤ) + event.1 < q.endTime))

section Queue

variable {base : Game} {start : Table ShipBuildingQueue}

/-- The entries from before are as they were, and of the others only these ids are left. -/
structure Remaining (base : Game) (ids : List ℕ) (game : Game) : Prop where
  old : ∀ id < base.queue.nextId, game.queue.get id = base.queue.get id
  gone : ∀ id, base.queue.nextId ≤ id → id ∉ ids → game.queue.get id = none

/-- The jobs from before are the first delayed ones, and the others are those of these ids. -/
structure JobsOf (base : Game) (start : Table ShipBuildingQueue) (ids : List ℕ) (game : Game) : Prop where
  delayed : ∃ rest, game.addShips.delayed = base.addShips.delayed ++ rest ∧
    ∀ entry ∈ rest, ∃ id ∈ ids, (start.get id).map job = some entry.job
  ready : game.addShips.ready = base.addShips.ready

theorem moved_of_not {now : ℕ} {self q : ShipBuildingQueue}
    (hends : endsAfter self.planet self.endTime q = false) : moved now self q = q := by
  rw [moved, if_neg (by simp [hends])]

theorem mem_behind {game : Game} {self q : ShipBuildingQueue} :
    q ∈ behind game self ↔ (∃ id, game.queue.get id = some q) ∧
      endsAfter self.planet self.endTime q = true := by
  rw [behind, List.mem_filter, Game.entries, List.mem_map]
  refine and_congr_left fun _ => ?_
  constructor
  · rintro ⟨⟨id, found⟩, hrow, rfl⟩
    exact ⟨id, Table.mem_rows.mp hrow⟩
  · rintro ⟨id, hget⟩
    exact ⟨(id, q), Table.mem_rows.mpr hget, rfl⟩

/-- What a cancellation does to the queue, without what it pays back. -/
theorem cancelling_outcome (rules : Rules) {game next : Game} {seconds id : ℕ} {q : ShipBuildingQueue}
    (hget : game.queue.get id = some q) (hstep : cancelling rules game (seconds, id) = some next) :
    next.queue = (cancelled (later game seconds) id q).queue ∧
      next.addShips = (cancelled (later game seconds) id q).addShips := by
  obtain ⟨db, houtcome⟩ := removeQueue_outcome rules (show (later game seconds).queue.get id = some q from hget)
  obtain rfl := Option.some.inj hstep
  dsimp only
  rw [houtcome]
  exact ⟨rfl, rfl⟩

theorem Remaining.step {rules : Rules} {ids : List ℕ} {game next : Game} {seconds id : ℕ}
    (hinv : Remaining base (id :: ids) game) (hid : base.queue.nextId ≤ id)
    (hold : OldFirst base game (seconds, id)) {q : ShipBuildingQueue} (hget : game.queue.get id = some q)
    (hstep : cancelling rules game (seconds, id) = some next) : Remaining base ids next := by
  obtain ⟨hqueue, -⟩ := cancelling_outcome rules hget hstep
  constructor
  · intro other hother
    rw [hqueue, get_cancelled_of_ne q (by omega)]
    change (game.queue.get other).map _ = _
    rw [← hinv.old other hother]
    cases hrow : game.queue.get other with
    | none => rfl
    | some old => exact congrArg some (moved_of_not (hold q hget other hother old hrow))
  · intro other hother hnot
    rw [hqueue]
    by_cases heq : other = id
    · rw [heq]
      exact Table.get_destroy_self _ _
    · rw [get_cancelled_of_ne q heq]
      change (game.queue.get other).map _ = _
      rw [hinv.gone other hother (by simp [heq, hnot])]
      rfl

/-- The entries that a cancellation moves forward are new ones that are still to be cancelled. -/
theorem Remaining.of_behind {ids : List ℕ} {game : Game} {seconds id : ℕ}
    (hinv : Remaining base (id :: ids) game) (hold : OldFirst base game (seconds, id))
    {q : ShipBuildingQueue} (hget : game.queue.get id = some q) {found : ShipBuildingQueue}
    (hfound : found ∈ behind (later game seconds) q) :
    ∃ other ∈ ids, game.queue.get other = some found := by
  obtain ⟨⟨other, hother⟩, hends⟩ := mem_behind.mp hfound
  change game.queue.get other = some found at hother
  have hnew : base.queue.nextId ≤ other := by
    by_contra hlt
    rw [hold q hget other (not_le.mp hlt) found hother] at hends
    cases hends
  have hmem : other ∈ id :: ids := by
    by_contra hnot
    rw [hinv.gone other hnew hnot] at hother
    cases hother
  refine ⟨other, (List.mem_cons.mp hmem).resolve_left ?_, hother⟩
  rintro rfl
  obtain rfl : q = found := Option.some.inj (hget.symm.trans hother)
  exact absurd (of_decide_eq_true hends).2 (lt_irrefl _)

theorem JobsOf.step {rules : Rules} {ids : List ℕ} {game next : Game} {seconds id : ℕ}
    (hinv : JobsOf base start (id :: ids) game) (hremaining : Remaining base (id :: ids) game)
    (hfresh : ∀ entry ∈ base.addShips.delayed, ∀ other row, base.queue.nextId ≤ other →
      start.get other = some row → entry.job ≠ row.job)
    (hrows : ∀ other ∈ id :: ids, ∃ q, game.queue.get other = some q ∧ (start.get other).map job = some q.job)
    (hids : ∀ other ∈ id :: ids, base.queue.nextId ≤ other)
    (hold : OldFirst base game (seconds, id)) (hstep : cancelling rules game (seconds, id) = some next) :
    JobsOf base start ids next := by
  obtain ⟨q, hget, hjob⟩ := hrows id List.mem_cons_self
  obtain ⟨-, hjobs⟩ := cancelling_outcome rules hget hstep
  obtain ⟨rest, hdelayed, hrest⟩ := hinv.delayed
  have hother : ∀ {other found}, other ∈ id :: ids → (start.get other).map job = some found →
      ∀ entry ∈ base.addShips.delayed, entry.job ≠ found := by
    intro other found hmem hfound entry hentry
    obtain ⟨row, hrow, rfl⟩ := Option.map_eq_some_iff.mp hfound
    exact hfresh entry hentry other row (hids other hmem) hrow
  have hself : (game.addShips.removeDelayed q.job).delayed = base.addShips.delayed ++
      rest.filter fun entry => entry.job ≠ q.job := by
    rw [Backlog.delayed_removeDelayed, hdelayed, List.filter_append]
    have hkept := List.filter_eq_self.mpr fun entry hentry =>
      decide_eq_true (hother List.mem_cons_self hjob entry hentry)
    rw [hkept]
  have hbehind : ∀ found ∈ behind (later game seconds) q,
      ∃ other ∈ ids, (start.get other).map job = some found.job := by
    intro found hfound
    obtain ⟨other, hmem, hgetOther⟩ := hremaining.of_behind hold hget hfound
    obtain ⟨row, hrow, hrowJob⟩ := hrows other (List.mem_cons_of_mem id hmem)
    obtain rfl : row = found := Option.some.inj (hrow.symm.trans hgetOther)
    exact ⟨other, hmem, hrowJob⟩
  obtain ⟨rest', hrest', hmem⟩ := Backlog.exists_delayed_rescheduleAll job
    (fun found => found.endTime - (q.endTime - (later game seconds).db.now)) hself
    (l := behind (later game seconds) q) (by
      intro entry hentry found hfound
      obtain ⟨other, hother', hjob'⟩ := hbehind found hfound
      exact hother (List.mem_cons_of_mem id hother') hjob' entry hentry)
  constructor
  · refine ⟨rest', by rw [hjobs]; exact hrest', fun entry hentry => ?_⟩
    rcases hmem entry hentry with hkept | ⟨found, hfound, heq⟩
    · obtain ⟨hrestEntry, hne⟩ := List.mem_filter.mp hkept
      obtain ⟨other, hmemOther, hotherJob⟩ := hrest entry hrestEntry
      refine ⟨other, (List.mem_cons.mp hmemOther).resolve_left ?_, hotherJob⟩
      rintro rfl
      exact of_decide_eq_true hne (Option.some.inj (hotherJob.symm.trans hjob))
    · obtain ⟨other, hmemOther, hotherJob⟩ := hbehind found hfound
      exact ⟨other, hmemOther, by rw [hotherJob, heq]⟩
  · rw [hjobs]
    exact (Backlog.ready_rescheduleAll _ _ _ _).trans hinv.ready

/-! ### All of them -/

section Undoing

variable {rules : Rules} {planet : PlanetId} {total : Resource → ℤ} {ids : List ℕ} {events : List (ℕ × ℕ)}
  {game next final : Game}

/-- The new entries with these ids are still to be cancelled, and the old ones are as they were. -/
structure Undoing (rules : Rules) (base : Game) (start : Table ShipBuildingQueue) (planet : PlanetId)
    (total : Resource → ℤ) (ids : List ℕ) (game : Game) : Prop where
  owing : Owing rules base.db start planet total ids game
  remaining : Remaining base ids game
  nodup : ids.Nodup
  new : ∀ id ∈ ids, base.queue.nextId ≤ id

theorem Undoing.rows (hinv : Undoing rules base start planet total ids game) :
    ∀ id ∈ ids, ∃ q, game.queue.get id = some q ∧ (start.get id).map job = some q.job := by
  intro id hid
  obtain ⟨q, hget, -, hjob⟩ := hinv.owing.rows id hid
  exact ⟨q, hget, hjob⟩

/-- A job that is delayed afterwards was so before, or is that of an entry still to be cancelled. -/
theorem Undoing.mem_delayed {seconds id : ℕ} (hinv : Undoing rules base start planet total (id :: ids) game)
    (hold : OldFirst base game (seconds, id)) (hstep : cancelling rules game (seconds, id) = some next)
    {entry : Delayed AddShip} (hentry : entry ∈ next.addShips.delayed) :
    (entry ∈ game.addShips.delayed ∧ (start.get id).map job ≠ some entry.job) ∨
      ∃ other ∈ ids, (start.get other).map job = some entry.job := by
  obtain ⟨q, hget, hjob⟩ := hinv.rows id List.mem_cons_self
  obtain ⟨-, hjobs⟩ := cancelling_outcome rules hget hstep
  rw [hjobs] at hentry
  rcases Backlog.mem_delayed_rescheduleAll _ _ hentry with ⟨hkept, -⟩ | ⟨found, hfound, rfl⟩
  · obtain ⟨hmem, hne⟩ := List.mem_filter.mp hkept
    refine .inl ⟨hmem, ?_⟩
    rw [hjob]
    exact fun heq => of_decide_eq_true hne (Option.some.inj heq).symm
  · obtain ⟨other, hmem, hother⟩ := hinv.remaining.of_behind hold hget hfound
    obtain ⟨row, hrow, hrowJob⟩ := hinv.rows other (List.mem_cons_of_mem id hmem)
    obtain rfl : row = found := Option.some.inj (hrow.symm.trans hother)
    exact .inr ⟨other, hmem, hrowJob⟩

variable (hroom : ∀ type, type ≠ .money → type ≠ .energy → base.db.CanHold planet type →
  total type ≤ (base.db.planets planet).maximum type)

include hroom

theorem Undoing.step {seconds id : ℕ} (hinv : Undoing rules base start planet total (id :: ids) game)
    (hold : OldFirst base game (seconds, id)) (hstep : cancelling rules game (seconds, id) = some next) :
    Undoing rules base start planet total ids next := by
  obtain ⟨hnot, hnodup⟩ := List.nodup_cons.mp hinv.nodup
  obtain ⟨q, hget, -⟩ := hinv.rows id List.mem_cons_self
  constructor
  · exact hinv.owing.step hnot hroom hstep
  · exact hinv.remaining.step (hinv.new id List.mem_cons_self) hold hget hstep
  · exact hnodup
  · exact fun other hother => hinv.new other (List.mem_cons_of_mem id hother)

/-- If no old entry is ever moved, all cancellations leave only what was there before. -/
theorem Undoing.run_restores (hinv : Undoing rules base start planet total (events.map Prod.snd) game)
    (hjobs : JobsOf base start (events.map Prod.snd) game)
    (hfresh : ∀ entry ∈ base.addShips.delayed, ∀ other row, base.queue.nextId ≤ other →
      start.get other = some row → entry.job ≠ row.job)
    (hold : Along (cancelling rules) (OldFirst base) game events)
    (hrun : run (cancelling rules) game events = some final) :
    Remaining base [] final ∧ JobsOf base start [] final := by
  induction events generalizing game with
  | nil =>
      cases hrun
      exact ⟨hinv.remaining, hjobs⟩
  | cons event events ih =>
      obtain ⟨next, hstep, hrest⟩ := run_cons hrun
      apply ih (hinv.step hroom hold.1 hstep)
      · exact hjobs.step hinv.remaining hfresh hinv.rows hinv.new hold.1 hstep
      · exact hold.2 next hstep
      · exact hrest

/-- The job of an entry that was cancelled is not delayed any more, not even if it was before. -/
theorem Undoing.run_forgets (hinv : Undoing rules base start planet total (events.map Prod.snd) game)
    {found : AddShip} (hgone : (∃ id ∈ events.map Prod.snd, (start.get id).map job = some found) ∨
      (∀ id ∈ events.map Prod.snd, (start.get id).map job ≠ some found) ∧
        ∀ entry ∈ game.addShips.delayed, entry.job ≠ found)
    (hold : Along (cancelling rules) (OldFirst base) game events)
    (hrun : run (cancelling rules) game events = some final) :
    ∀ entry ∈ final.addShips.delayed, entry.job ≠ found := by
  induction events generalizing game with
  | nil =>
      cases hrun
      rcases hgone with ⟨id, hid, -⟩ | ⟨-, hnone⟩
      · exact absurd hid List.not_mem_nil
      · exact hnone
  | cons event events ih =>
      obtain ⟨next, hstep, hrest⟩ := run_cons hrun
      obtain ⟨hnot, -⟩ := List.nodup_cons.mp hinv.nodup
      apply ih (hinv.step hroom hold.1 hstep) _ (hold.2 next hstep) hrest
      by_cases hlater : ∃ id ∈ events.map Prod.snd, (start.get id).map job = some found
      · exact .inl hlater
      have hnone : ∀ id ∈ events.map Prod.snd, (start.get id).map job ≠ some found :=
        fun id hid heq => hlater ⟨id, hid, heq⟩
      refine .inr ⟨hnone, fun entry hentry => ?_⟩
      rcases hinv.mem_delayed hold.1 hstep hentry with ⟨hmem, hne⟩ | ⟨other, hother, hjob⟩
      · rcases hgone with ⟨id, hid, hjob⟩ | ⟨-, hdelayed⟩
        · rcases List.mem_cons.mp hid with rfl | hid
          · rintro rfl
            exact hne hjob
          · exact absurd hjob (hnone id hid)
        · exact hdelayed entry hmem
      · rintro rfl
        exact hnone other hother hjob

end Undoing

/-! ### Moved entries -/

/-- A cancellation in time only moves old entries to an earlier end. -/
theorem get_cancelling {rules : Rules} {game next : Game} {event : ℕ × ℕ} (hintime : InTime game event)
    (hstep : cancelling rules game event = some next) {id : ℕ} (hne : id ≠ event.2) {old : ShipBuildingQueue}
    (hget : game.queue.get id = some old) : ∃ q, next.queue.get id = some q ∧ q.endTime ≤ old.endTime ∧
      (∀ self, game.queue.get event.2 = some self → endsAfter self.planet self.endTime old = true →
        q.endTime < old.endTime) := by
  cases hself : game.queue.get event.2 with
  | none =>
      obtain rfl := Option.some.inj hstep
      rw [removeQueue_of_none rules (show (later game event.1).queue.get event.2 = none from hself)]
      exact ⟨old, hget, le_rfl, fun _ hnone => nomatch hnone⟩
  | some self =>
      obtain ⟨hqueue, -⟩ := cancelling_outcome rules hself hstep
      have htime := hintime self hself
      refine ⟨moved (later game event.1).db.now self old, ?_, ?_, fun found hfound hends => ?_⟩
      · rw [hqueue, get_cancelled_of_ne self hne]
        exact congrArg (Option.map _) hget
      · unfold moved
        change (if _ then { old with endTime := _ - (_ - ((game.db.now + event.1 : ℕ) : ℤ)) } else old).endTime ≤ _
        split
        · dsimp only
          omega
        · exact le_rfl
      · obtain rfl := Option.some.inj hfound
        rw [moved, if_pos hends]
        change old.endTime - (self.endTime - ((game.db.now + event.1 : ℕ) : ℤ)) < _
        omega

/-- Whatever is cancelled in time, old entries do not end later. -/
theorem run_cancelling_le {rules : Rules} {events : List (ℕ × ℕ)} {game final : Game}
    (hids : ∀ id ∈ events.map Prod.snd, base.queue.nextId ≤ id)
    (hintime : Along (cancelling rules) InTime game events)
    (hrun : run (cancelling rules) game events = some final) {id : ℕ} (hlt : id < base.queue.nextId)
    {old : ShipBuildingQueue} (hget : game.queue.get id = some old) :
    ∃ q, final.queue.get id = some q ∧ q.endTime ≤ old.endTime := by
  induction events generalizing game old with
  | nil =>
      cases hrun
      exact ⟨old, hget, le_rfl⟩
  | cons event events ih =>
      obtain ⟨next, hstep, hrest⟩ := run_cons hrun
      have hfirst := hids event.2 List.mem_cons_self
      obtain ⟨q, hq, hle, -⟩ := get_cancelling hintime.1 hstep (by omega) hget
      obtain ⟨q', hq', hle'⟩ := ih (fun other hother => hids other (List.mem_cons_of_mem event.2 hother))
        (hintime.2 next hstep) hrest hq
      exact ⟨q', hq', hle'.trans hle⟩

/-- Old entries are only as before if none was ever moved. -/
theorem oldFirst_of_same {rules : Rules} {events : List (ℕ × ℕ)} {game final : Game}
    (hids : ∀ id ∈ events.map Prod.snd, base.queue.nextId ≤ id)
    (hintime : Along (cancelling rules) InTime game events)
    (hrun : run (cancelling rules) game events = some final)
    (hsame : ∀ id < base.queue.nextId, final.queue.get id = game.queue.get id) :
    Along (cancelling rules) (OldFirst base) game events := by
  induction events generalizing game with
  | nil => trivial
  | cons event events ih =>
      obtain ⟨next, hstep, hrest⟩ := run_cons hrun
      have hfirst := hids event.2 List.mem_cons_self
      have hids' : ∀ id ∈ events.map Prod.snd, base.queue.nextId ≤ id :=
        fun other hother => hids other (List.mem_cons_of_mem event.2 hother)
      have hold : OldFirst base game event := by
        intro self hself id hlt old hget
        obtain ⟨q, hq, -, hearlier⟩ := get_cancelling hintime.1 hstep (by omega) hget
        obtain ⟨q', hq', hle⟩ := run_cancelling_le hids' (hintime.2 next hstep) hrest hlt hq
        obtain rfl : old = q' := Option.some.inj (hget.symm.trans ((hsame id hlt).symm.trans hq'))
        rw [← Bool.not_eq_true]
        exact fun hends => absurd hle (not_le.mpr (hearlier self hself hends))
      refine ⟨hold, fun found hfound => ?_⟩
      obtain rfl : next = found := Option.some.inj (hstep.symm.trans hfound)
      apply ih hids' (hintime.2 next hstep) hrest
      intro id hlt
      rw [hsame id hlt]
      cases hself : game.queue.get event.2 with
      | none =>
          obtain rfl := Option.some.inj hstep
          rw [removeQueue_of_none rules (show (later game event.1).queue.get event.2 = none from hself)]
          rfl
      | some self =>
          obtain ⟨hqueue, -⟩ := cancelling_outcome rules hself hstep
          rw [hqueue, get_cancelled_of_ne self (by omega)]
          change _ = (game.queue.get id).map _
          cases hget : game.queue.get id with
          | none => rfl
          | some old => exact congrArg some (moved_of_not (hold self hself id hlt old hget)).symm

end Queue

/-! ### What is ordered -/

section Order

variable {planet : PlanetId}

theorem planet_of_mem_ordered {game : Game} {ships : List (ShipId × ℤ)} {q : ShipBuildingQueue}
    (hq : q ∈ ordered rules planet game ships) : q.planet = planet := by
  induction ships generalizing game with
  | nil => cases hq
  | cons entry rest ih =>
      rcases List.mem_append.mp hq with hq | hq
      · exact planet_of_mem_entriesFor hq
      · exact ih hq

variable (rules planet) in
/-- The last of the entries has the last qid. -/
theorem entriesFor_succ (ship : ShipId) (n : ℕ) (plus : ℤ) (qid : ℕ) :
    ∃ endTime, entriesFor rules ship planet (n + 1) plus qid =
      entriesFor rules ship planet n plus qid ++ [⟨ship, planet, endTime, qid + n⟩] := by
  induction n generalizing plus qid with
  | zero => exact ⟨_, rfl⟩
  | succ n ih =>
      obtain ⟨endTime, hlast⟩ := ih (rules.constructionTime ship + plus) (qid + 1)
      refine ⟨endTime, ?_⟩
      rw [entriesFor]
      dsimp only
      rw [hlast, entriesFor, List.cons_append, show qid + 1 + n = qid + (n + 1) by omega]

variable (rules planet) in
/-- After the entries of one ship type the next free qid is that behind them. -/
theorem nextSlot_append (game : Game) (ship : ShipId) (n : ℕ) (plus : ℤ) :
    (nextSlot (append game (entriesFor rules ship planet n plus (nextSlot game planet).1)) planet).1 =
      (nextSlot game planet).1 + n := by
  cases n with
  | zero => rfl
  | succ n =>
      obtain ⟨endTime, hlast⟩ := entriesFor_succ rules planet ship n plus
        (nextSlot game planet).1
      have hrow : ∃ id, (append game (entriesFor rules ship planet (n + 1) plus
          (nextSlot game planet).1)).queue.last (fun _ => true) =
            some (id, ⟨ship, planet, endTime, (nextSlot game planet).1 + n⟩) := by
        rw [hlast, append, List.foldl_append, List.foldl_cons, List.foldl_nil, Table.last, Table.rows_create,
          List.filter_true, List.getLast?_concat]
        exact ⟨_, rfl⟩
      obtain ⟨id, hid⟩ := hrow
      generalize append game _ = placed at hid ⊢
      unfold nextSlot
      rw [hid]
      rfl

variable (planet) in
/-- The jobs of an order, whose first entry gets this qid. -/
def orderJobs : ℕ → List (ShipId × ℤ) → List AddShip
  | _, [] => []
  | qid, (ship, value) :: rest =>
      (List.range value.toNat).map (fun i => ⟨ship, planet, qid + i⟩) ++ orderJobs (qid + value.toNat) rest

theorem map_job_entriesFor (ship : ShipId) (n : ℕ) (plus : ℤ) (qid : ℕ) :
    (entriesFor rules ship planet n plus qid).map job =
      (List.range n).map fun i => (⟨ship, planet, qid + i⟩ : AddShip) := by
  induction n with
  | zero => rfl
  | succ n ih =>
      obtain ⟨endTime, hlast⟩ := entriesFor_succ rules planet ship n plus qid
      rw [hlast, List.map_append, ih, List.range_succ, List.map_append]
      rfl

theorem map_job_ordered (game : Game) (ships : List (ShipId × ℤ)) :
    (ordered rules planet game ships).map job = orderJobs planet (nextSlot game planet).1 ships := by
  induction ships generalizing game with
  | nil => rfl
  | cons entry rest ih =>
      have hnext := nextSlot_append rules planet game entry.1 entry.2.toNat
        (nextSlot game planet).2
      unfold ordered orderJobs
      dsimp only
      rw [List.map_append, map_job_entriesFor, ih, hnext]

theorem get_foldl_create_of_lt (t : Table ShipBuildingQueue) (new : List ShipBuildingQueue) {id : ℕ}
    (hlt : id < t.nextId) : (new.foldl Table.create t).get id = t.get id := by
  induction new generalizing t with
  | nil => rfl
  | cons q new ih =>
      rw [List.foldl_cons, ih (t.create q) (hlt.trans (Nat.lt_succ_self _)), Table.get_create, if_neg hlt.ne]

end Order

/-! ### The round trip -/

/-- The planet has what it had, and queue and jobs are what they were. -/
structure Restored (planet : PlanetId) (before after : Game) : Prop where
  holding : ∀ type, after.db.holding planet type = before.db.holding planet type
  queue : ∀ id, after.queue.get id = before.queue.get id
  delayed : after.addShips.delayed.Perm before.addShips.delayed
  ready : after.addShips.ready = before.addShips.ready

section RoundTrip

variable {s : Hash ShipId ℤ} {planet : PlanetId} {game start : Game}

variable (rules s planet) in
/-- The second game is the first one after an accepted order. -/
structure Accepted (game start : Game) : Prop where
  db : start.db = game.db.withHoldings planet (left rules s planet game)
  affordable : Affordable rules s planet game
  nextId : game.queue.nextId ≤ start.queue.nextId
  old : ∀ id < game.queue.nextId, start.queue.get id = game.queue.get id
  here : ∀ id q, game.queue.nextId ≤ id → start.queue.get id = some q → q.planet = planet
  jobs : (newEntries game start).map job = orderJobs planet (nextSlot game planet).1 s.entries
  delayed : start.addShips.delayed =
    game.addShips.delayed ++ (newEntries game start).map fun q => ⟨q.endTime, q.job⟩
  ready : start.addShips.ready = game.addShips.ready
  sums : ∀ value : ShipId → ℤ, ((newEntries game start).map fun q => value q.ship).sum =
    (s.entries.map fun entry => value entry.1 * entry.2.toNat).sum

theorem mem_newEntries {q : ShipBuildingQueue} :
    q ∈ newEntries game start ↔ ∃ id, game.queue.nextId ≤ id ∧ start.queue.get id = some q := by
  rw [newEntries, List.mem_map]
  constructor
  · rintro ⟨⟨id, found⟩, hrow, rfl⟩
    obtain ⟨hmem, hle⟩ := List.mem_filter.mp hrow
    exact ⟨id, of_decide_eq_true hle, Table.mem_rows.mp hmem⟩
  · rintro ⟨id, hle, hget⟩
    exact ⟨(id, q), List.mem_filter.mpr ⟨Table.mem_rows.mpr hget, decide_eq_true hle⟩, rfl⟩

theorem accepted_of_insert (haccepted : value? ((insert rules s planet).run game) = some true) :
    Accepted rules s planet game (after ((insert rules s planet).run game)) := by
  obtain ⟨haffordable, hafter⟩ := accepted_outcome haccepted
  let charged := game.setDb (game.db.withHoldings planet (left rules s planet game))
  have hnew : newEntries game (after ((insert rules s planet).run game)) =
      ordered rules planet charged s.entries := by
    rw [newEntries, hafter]
    exact filter_rows_foldl_create game.queue _
  constructor
  · rw [hafter]
    rfl
  · exact haffordable
  · rw [hafter]
    have hlength := Table.nextId_createAll game.queue (ordered rules planet charged s.entries)
    exact (Nat.le_add_right _ _).trans hlength.ge
  · intro id hlt
    rw [hafter]
    exact get_foldl_create_of_lt game.queue _ hlt
  · intro id q hle hget
    have hmem := mem_newEntries.mpr ⟨id, hle, hget⟩
    rw [hnew] at hmem
    exact planet_of_mem_ordered hmem
  · rw [hnew, map_job_ordered]
    rfl
  · rw [hnew, hafter, addShips_append]
    rfl
  · rw [hafter, addShips_append]
    rfl
  · intro value
    rw [hnew]
    exact sum_ordered value _ _

namespace Accepted

variable {events : List (ℕ × ℕ)} {final : Game}

variable (rules s planet game) in
/-- What there is after an order that was paid back. -/
def total (type : Resource) : ℤ :=
  game.db.holding planet type - charge rules s type + cost (rules.refund type) s

theorem total_of_ne_money {type : Resource} (hmoney : type ≠ .money) :
    total rules s planet game type = game.db.holding planet type := by
  have hsame : cost (rules.refund type) s = charge rules s type := by
    cases type with
    | money => exact absurd rfl hmoney
    | _ => rfl
  rw [total, hsame, sub_add_cancel]

theorem left_add_owed (hstart : Accepted rules s planet game start) (hamounts : ∀ entry ∈ s.entries, 0 ≤ entry.2)
    (type : Resource) :
    left rules s planet game type + owed rules start.queue (newIds game start) type =
      total rules s planet game type := by
  have howed : owed rules start.queue (newIds game start) type = cost (rules.refund type) s := by
    rw [owed_newIds, hstart.sums fun ship => (rules.refund type ship : ℤ)]
    apply congrArg List.sum
    apply List.map_congr_left
    intro entry hentry
    rw [Int.toNat_of_nonneg (hamounts entry hentry)]
  rw [howed, left, hstart.affordable type, total]

theorem undoing (hstart : Accepted rules s planet game start) (hamounts : ∀ entry ∈ s.entries, 0 ≤ entry.2)
    (hall : (events.map Prod.snd).Perm (newIds game start)) :
    Undoing rules game start.queue planet (total rules s planet game) (events.map Prod.snd) start := by
  have hmem : ∀ id, id ∈ events.map Prod.snd ↔ game.queue.nextId ≤ id ∧ ∃ q, start.queue.get id = some q :=
    fun id => hall.mem_iff.trans mem_newIds
  constructor
  · constructor
    · refine ⟨game.db.now, left rules s planet game, hstart.db, fun type _ => ?_⟩
      rw [owed_perm start.queue hall]
      exact hstart.left_add_owed hamounts type
    · intro id hid
      obtain ⟨hle, q, hget⟩ := (hmem id).mp hid
      exact ⟨q, hget, hstart.here id q hle hget, congrArg (Option.map job) hget⟩
  · constructor
    · exact hstart.old
    · intro id hle hnot
      rw [Option.eq_none_iff_forall_ne_some]
      exact fun q hget => hnot ((hmem id).mpr ⟨hle, q, hget⟩)
  · exact hall.nodup_iff.mpr (nodup_newIds game start)
  · exact fun id hid => ((hmem id).mp hid).1

theorem jobsOf (hstart : Accepted rules s planet game start)
    (hall : (events.map Prod.snd).Perm (newIds game start)) :
    JobsOf game start.queue (events.map Prod.snd) start := by
  refine ⟨⟨_, hstart.delayed, fun entry hentry => ?_⟩, hstart.ready⟩
  obtain ⟨q, hq, rfl⟩ := List.mem_map.mp hentry
  obtain ⟨id, hle, hget⟩ := mem_newEntries.mp hq
  exact ⟨id, hall.mem_iff.mpr (mem_newIds.mpr ⟨hle, q, hget⟩), congrArg (Option.map job) hget⟩

theorem mem_orderJobs (hstart : Accepted rules s planet game start) {found : AddShip} :
    found ∈ orderJobs planet (nextSlot game planet).1 s.entries ↔
      ∃ id q, game.queue.nextId ≤ id ∧ start.queue.get id = some q ∧ q.job = found := by
  rw [← hstart.jobs, List.mem_map]
  constructor
  · rintro ⟨q, hq, rfl⟩
    obtain ⟨id, hle, hget⟩ := mem_newEntries.mp hq
    exact ⟨id, q, hle, hget, rfl⟩
  · rintro ⟨id, q, hle, hget, rfl⟩
    exact ⟨q, mem_newEntries.mpr ⟨id, hle, hget⟩, rfl⟩

/-- After all cancellations everything is there but the money, which came by the price in crystal. -/
theorem holding_final (hstart : Accepted rules s planet game start) (hamounts : ∀ entry ∈ s.entries, 0 ≤ entry.2)
    (hall : (events.map Prod.snd).Perm (newIds game start))
    (hroom : ∀ type, type ≠ .money → type ≠ .energy → game.db.CanHold planet type →
      total rules s planet game type ≤ (game.db.planets planet).maximum type)
    (hrun : run (cancelling rules) start events = some final) (type : Resource) :
    (game.db.CanHold planet type → final.db.holding planet type = total rules s planet game type) ∧
      (¬game.db.CanHold planet type → final.db.holding planet type = 0) := by
  have hinv := hstart.undoing hamounts hall
  obtain ⟨now, h, hdb, htotal⟩ := (hinv.owing.run_cancelling hinv.nodup hroom hrun).db
  rw [hdb]
  constructor
  · intro hhold
    rw [Db.holding_withHoldings_of_canHold h (show ({ game.db with now } : Db).CanHold planet type from hhold),
      ← htotal type hhold]
    exact (add_zero _).symm
  · exact fun hhold => Db.holding_eq_zero fun hheld => hhold ((Db.canHold_withHoldings h type).mp hheld)

end Accepted

/-- Cancelling all that was ordered in time restores everything exactly if the order costs as much
money as crystal, unless the planet has no owner, no job with the arguments of a new one was delayed
before, and no old entry ends after one that is cancelled. -/
theorem restored_iff (rules : Rules) (s : Hash ShipId ℤ) (planet : PlanetId) (game final : Game)
    (events : List (ℕ × ℕ))
    (hore : (game.db.planets planet).ore ≤ (game.db.planets planet).maxore)
    (hcrystal : (game.db.planets planet).crystal ≤ (game.db.planets planet).maxcrystal)
    (hpopulation : (game.db.planets planet).population ≤ (game.db.planets planet).maxpopulation)
    (hamounts : ∀ entry ∈ s.entries, 0 ≤ entry.2)
    (haccepted : value? ((insert rules s planet).run game) = some true)
    (hall : (events.map Prod.snd).Perm (newIds game (after ((insert rules s planet).run game))))
    (hintime : Along (cancelling rules) InTime (after ((insert rules s planet).run game)) events)
    (hrun : run (cancelling rules) (after ((insert rules s planet).run game)) events = some final) :
    Restored planet game final ↔
      ((game.db.planets planet).user = none ∨ charge rules s .money = charge rules s .crystal) ∧
        (∀ entry ∈ game.addShips.delayed, entry.job ∉ orderJobs planet (nextSlot game planet).1 s.entries) ∧
        Along (cancelling rules) (OldFirst game) (after ((insert rules s planet).run game)) events := by
  have hstart := accepted_of_insert haccepted
  generalize after ((insert rules s planet).run game) = start at hstart hall hintime hrun ⊢
  have hroom : ∀ type, type ≠ .money → type ≠ .energy → game.db.CanHold planet type →
      Accepted.total rules s planet game type ≤ (game.db.planets planet).maximum type := by
    intro type hmoney henergy hhold
    rw [Accepted.total_of_ne_money hmoney]
    cases type with
    | ore => exact hore
    | crystal => exact hcrystal
    | population => exact hpopulation
    | money => exact absurd rfl hmoney
    | energy => exact absurd rfl henergy
    | other => exact absurd hhold id
  have hinv := hstart.undoing hamounts hall
  have hholding := hstart.holding_final hamounts hall hroom hrun
  have hmoney : final.db.holding planet .money = game.db.holding planet .money ↔
      (game.db.planets planet).user = none ∨ charge rules s .money = charge rules s .crystal := by
    have htotal : Accepted.total rules s planet game .money =
        game.db.holding planet .money - charge rules s .money + charge rules s .crystal := rfl
    by_cases hhold : game.db.CanHold planet .money
    · have hsome : (game.db.planets planet).user ≠ none := Option.isSome_iff_ne_none.mp hhold
      rw [(hholding .money).1 hhold, htotal, or_iff_right hsome]
      constructor
      · intro hsame
        omega
      · intro hsame
        omega
    · rw [(hholding .money).2 hhold, Db.holding_eq_zero hhold]
      exact iff_of_true rfl (.inl (Option.not_isSome_iff_eq_none.mp hhold))
  constructor
  · intro hrestored
    have hold := oldFirst_of_same hinv.new hintime hrun fun id hlt =>
      (hrestored.queue id).trans (hstart.old id hlt).symm
    refine ⟨hmoney.mp (hrestored.holding .money), fun entry hentry hmem => ?_, hold⟩
    obtain ⟨id, q, hle, hget, hjob⟩ := hstart.mem_orderJobs.mp hmem
    have hid : id ∈ events.map Prod.snd := hall.mem_iff.mpr (mem_newIds.mpr ⟨hle, q, hget⟩)
    have hgone := hinv.run_forgets hroom (.inl ⟨id, hid, congrArg (Option.map job) hget⟩) hold hrun
    exact hgone entry (hrestored.delayed.mem_iff.mpr hentry) hjob.symm
  · rintro ⟨hpaid, hfresh, hold⟩
    obtain ⟨hremaining, hjobs⟩ := hinv.run_restores hroom (hstart.jobsOf hall)
      (fun entry hentry other row hle hget hjob =>
        hfresh entry hentry (hstart.mem_orderJobs.mpr ⟨other, row, hle, hget, hjob.symm⟩)) hold hrun
    constructor
    · intro type
      by_cases htype : type = .money
      · rw [htype]
        exact hmoney.mpr hpaid
      by_cases hhold : game.db.CanHold planet type
      · rw [(hholding type).1 hhold, Accepted.total_of_ne_money htype]
      · rw [(hholding type).2 hhold, Db.holding_eq_zero hhold]
    · intro id
      by_cases hlt : id < game.queue.nextId
      · exact hremaining.old id hlt
      · rw [hremaining.gone id (not_lt.mp hlt) List.not_mem_nil, game.queue.fresh id (not_lt.mp hlt)]
    · obtain ⟨rest, hdelayed, hrest⟩ := hjobs.delayed
      have hnil : rest = [] := by
        apply List.eq_nil_iff_forall_not_mem.mpr
        intro entry hentry
        obtain ⟨id, hid, -⟩ := hrest entry hentry
        exact List.not_mem_nil hid
      rw [hdelayed, hnil, List.append_nil]
    · exact hjobs.ready

/-- Two defense platforms, which cost neither money nor crystal, are ordered; the second one is cancelled first. -/
theorem restored_iff_sample : ∃ final,
    run (cancelling Seeds.rules) (after ((insert Seeds.rules (.single 8 2) 1).run (Seeds.game Seeds.start)))
      [(100, 2), (50, 1)] = some final ∧ Restored 1 (Seeds.game Seeds.start) final :=
  ⟨_, rfl, (restored_iff Seeds.rules (.single 8 2) 1 (Seeds.game Seeds.start) _ [(100, 2), (50, 1)]
    (by decide) (by decide) (by decide) (by decide) (by decide) (by decide) (by decide)
    rfl).mpr ⟨.inr (by decide), by decide, by decide⟩⟩

/-- A fighter costs money and no crystal, and cancelling it brings none of the money back. -/
theorem money_stays_away :
    ¬ ∀ (rules : Rules) (s : Hash ShipId ℤ) (planet : PlanetId) (game final : Game) (events : List (ℕ × ℕ)),
      (∀ type, game.db.holding planet type ≤ (game.db.planets planet).maximum type ∨ type = .money) →
      (∀ entry ∈ s.entries, 0 ≤ entry.2) →
      value? ((insert rules s planet).run game) = some true →
      (events.map Prod.snd).Perm (newIds game (after ((insert rules s planet).run game))) →
      Along (cancelling rules) InTime (after ((insert rules s planet).run game)) events →
      run (cancelling rules) (after ((insert rules s planet).run game)) events = some final →
      Restored planet game final := by
  intro hall
  have hrestored := hall Seeds.rules (.single 3 1) 1 (Seeds.game Seeds.start) _ [(100, 1)]
    (fun type => by cases type <;> first | exact .inr rfl | exact .inl (by decide))
    (by decide) (by decide) (by decide) (by decide) rfl
  have hmoney := hrestored.holding .money
  revert hmoney
  decide

end RoundTrip

end ShipBuildingQueue

end Mmog
