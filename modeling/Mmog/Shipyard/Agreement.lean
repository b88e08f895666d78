import Mmog.Ruby.Ledger
import Mmog.Shipyard.Queue

/-!
# The ship queue and its jobs

Entries have increasing qids, and the pending jobs are those of the entries.
An order and a delivery keep that; a cancellation does as long as the jobs it
removes and enqueues anew are still delayed.
-/

namespace Mmog

open Ruby Action Game ShipBuildingQueue

theorem Game.mem_entries_iff {game : Game} {q : ShipBuildingQueue} :
    q ∈ game.entries ↔ ∃ id, game.queue.get id = some q := by
  rw [entries, List.mem_map]
  constructor
  · rintro ⟨⟨id, q⟩, hrow, rfl⟩
    exact ⟨id, Table.mem_rows.mp hrow⟩
  · rintro ⟨id, hget⟩
    exact ⟨(id, q), Table.mem_rows.mpr hget, rfl⟩

/-- Entries have increasing qids, one pending job each, and a delayed job waits for its end. -/
structure Game.QueueInv (game : Game) : Prop where
  increasing : game.entries.Pairwise fun first second => first.qid < second.qid
  jobs : game.addShips.pending.Perm (game.entries.map job)
  onTime : ∀ entry ∈ game.addShips.delayed, ∀ q ∈ game.entries,
    q.job = entry.job → entry.timestamp = q.endTime

namespace Game.QueueInv

variable {game : Game}

theorem setDb (hinv : game.QueueInv) (db : Db) : (game.setDb db).QueueInv :=
  ⟨hinv.increasing, hinv.jobs, hinv.onTime⟩

theorem row_of_qid (hinv : game.QueueInv) {id id' : ℕ} {q q' : ShipBuildingQueue}
    (hget : game.queue.get id = some q) (hget' : game.queue.get id' = some q')
    (hqid : q.qid = q'.qid) : id = id' ∧ q = q' := by
  have hnodup : (game.queue.rows.map fun row => row.2.qid).Nodup :=
    List.pairwise_map.mpr ((List.pairwise_map.mp hinv.increasing).imp fun hlt => hlt.ne)
  exact Prod.mk.injEq .. |>.mp (List.inj_on_of_nodup_map hnodup (Table.mem_rows.mpr hget)
    (Table.mem_rows.mpr hget') hqid)

theorem entry_of_job (hinv : game.QueueInv) {q q' : ShipBuildingQueue} (hq : q ∈ game.entries)
    (hq' : q' ∈ game.entries) (hjob : q.job = q'.job) : q = q' := by
  obtain ⟨id, hget⟩ := mem_entries_iff.mp hq
  obtain ⟨id', hget'⟩ := mem_entries_iff.mp hq'
  exact (hinv.row_of_qid hget hget' (congrArg AddShip.qid hjob)).2

theorem nodup_jobs (hinv : game.QueueInv) : (game.entries.map job).Nodup := by
  refine List.Nodup.map_on (fun q hq q' hq' => hinv.entry_of_job hq hq') ?_
  exact hinv.increasing.imp fun hlt heq => (heq ▸ hlt).ne rfl

theorem nodup_pending (hinv : game.QueueInv) : game.addShips.pending.Nodup :=
  hinv.jobs.nodup_iff.mpr hinv.nodup_jobs

theorem pending_iff (hinv : game.QueueInv) {job : AddShip} :
    job ∈ game.addShips.pending ↔ ∃ q ∈ game.entries, q.job = job := by
  rw [hinv.jobs.mem_iff, List.mem_map]

/-! ## Orders -/

theorem append (hinv : game.QueueInv) {new : List ShipBuildingQueue}
    (hnew : new.Pairwise fun first second => first.qid < second.qid)
    (hlater : ∀ q ∈ game.entries, ∀ q' ∈ new, q.qid < q'.qid) :
    (ShipBuildingQueue.append game new).QueueInv := by
  have hother : ∀ {q q'}, q ∈ game.entries → q' ∈ new → q.job ≠ q'.job :=
    fun hq hq' hjob => (hlater _ hq _ hq').ne (congrArg AddShip.qid hjob)
  constructor
  · rw [entries_append]
    exact List.pairwise_append.mpr ⟨hinv.increasing, hnew, hlater⟩
  · have hmap : (new.map fun q => (⟨q.endTime, q.job⟩ : Delayed AddShip)).map Delayed.job =
        new.map job := List.map_map
    rw [entries_append, addShips_append, Backlog.pending, List.map_append, List.map_append, hmap]
    refine List.Perm.trans ?_ (hinv.jobs.append_right (new.map job))
    rw [Backlog.pending, List.append_assoc, List.append_assoc]
    exact List.perm_append_comm.append_left _
  · intro entry hentry q hq hjob
    rw [addShips_append] at hentry
    rw [entries_append] at hq
    rcases List.mem_append.mp hentry with hentry | hentry <;>
      rcases List.mem_append.mp hq with hq | hq
    · exact hinv.onTime entry hentry q hq hjob
    · -- a pending job is that of an entry, and no new one has its qid
      obtain ⟨q', hq', hjob'⟩ := hinv.pending_iff.mp
        (Backlog.mem_pending.mpr (.inl ⟨entry, hentry, rfl⟩))
      exact absurd (hjob'.trans hjob.symm) (hother hq' hq)
    · obtain ⟨q', hq', rfl⟩ := List.mem_map.mp hentry
      exact absurd hjob (hother hq hq')
    · obtain ⟨q', hq', rfl⟩ := List.mem_map.mp hentry
      have hnodup : (new.map qid).Nodup := List.pairwise_map.mpr (hnew.imp fun hlt => hlt.ne)
      rw [List.inj_on_of_nodup_map hnodup hq hq' (congrArg AddShip.qid hjob)]

end Game.QueueInv

namespace ShipBuildingQueue

variable (rules : Rules)

theorem le_qid_of_mem_entriesFor {ship : ShipId} {planet : PlanetId} {n : ℕ} {plus : ℤ} {qid : ℕ}
    {q : ShipBuildingQueue} (hq : q ∈ entriesFor rules ship planet n plus qid) : qid ≤ q.qid := by
  induction n generalizing plus qid with
  | zero => cases hq
  | succ n ih =>
      rcases List.mem_cons.mp hq with rfl | hq
      · exact Nat.le_refl _
      · exact (Nat.le_succ qid).trans (ih hq)

theorem pairwise_entriesFor (ship : ShipId) (planet : PlanetId) (n : ℕ) (plus : ℤ) (qid : ℕ) :
    (entriesFor rules ship planet n plus qid).Pairwise fun first second =>
      first.qid < second.qid := by
  induction n generalizing plus qid with
  | zero => exact List.Pairwise.nil
  | succ n ih => exact List.Pairwise.cons (fun q hq => le_qid_of_mem_entriesFor rules hq) (ih _ _)

/-- The first free qid is beyond those of all entries. -/
theorem qid_lt_nextSlot {game : Game} (hinv : game.QueueInv) (planet : PlanetId)
    {q : ShipBuildingQueue} (hq : q ∈ game.entries) : q.qid < (nextSlot game planet).1 := by
  unfold nextSlot
  cases hlast : game.queue.last fun _ => true with
  | none =>
      obtain ⟨id, hget⟩ := mem_entries_iff.mp hq
      cases Table.last_eq_none hlast hget
  | some last =>
      rw [Table.last, List.filter_true, List.getLast?_eq_some_iff] at hlast
      obtain ⟨before, hrows⟩ := hlast
      have hincreasing := hinv.increasing
      rw [entries, hrows, List.map_append] at hincreasing hq
      obtain ⟨-, -, hbefore⟩ := List.pairwise_append.mp hincreasing
      rcases List.mem_append.mp hq with hq | hq
      · exact Nat.lt_succ_of_lt (hbefore q hq last.2 (List.mem_singleton_self _))
      · rw [List.mem_singleton.mp hq]
        exact Nat.lt_succ_self _

theorem queueInv_placed {planet : PlanetId} {game : Game} (hinv : game.QueueInv)
    (ships : List (ShipId × ℤ)) : (placed rules planet game ships).QueueInv := by
  induction ships generalizing game with
  | nil => exact hinv
  | cons entry rest ih =>
      refine ih (hinv.append (pairwise_entriesFor rules _ _ _ _ _) fun q hq q' hq' => ?_)
      exact (qid_lt_nextSlot hinv planet hq).trans_le (le_qid_of_mem_entriesFor rules hq')

end ShipBuildingQueue

namespace Game.QueueInv

variable {game : Game}

/-! ## Cancellations -/

/-- The entries a cancellation leaves are the others, moved forward where they end later. -/
theorem entries_cancelled {id : ℕ} {self : ShipBuildingQueue} (hget : game.queue.get id = some self) :
    (game.entries.map (moved game.db.now self)).Perm
        (moved game.db.now self self :: (cancelled game id self).entries) ∧
      (cancelled game id self).entries.Sublist (game.entries.map (moved game.db.now self)) := by
  have hmap : (game.queue.mapRows (moved game.db.now self)).get id =
      some (moved game.db.now self self) := by
    rw [show (game.queue.mapRows (moved game.db.now self)).get id = _ from
      congrArg (Option.map (moved game.db.now self)) hget]
    rfl
  have hentries : (game.queue.mapRows (moved game.db.now self)).rows.map Prod.snd =
      game.entries.map (moved game.db.now self) := by
    rw [Table.rows_mapRows, entries, List.map_map, List.map_map]
    rfl
  rw [← hentries]
  constructor
  · exact (Table.rows_perm_destroy hmap).map Prod.snd
  · exact (Table.rows_destroy_sublist _ id).map Prod.snd

theorem map_job_moved (now : ℕ) (self : ShipBuildingQueue) (l : List ShipBuildingQueue) :
    (l.map (moved now self)).map job = l.map job := by
  rw [List.map_map]
  exact List.map_congr_left fun q _ => job_moved now self q

theorem qid_moved (now : ℕ) (self q : ShipBuildingQueue) : (moved now self q).qid = q.qid :=
  congrArg AddShip.qid (job_moved now self q)

theorem job_ne_of_behind (hinv : game.QueueInv) {self q : ShipBuildingQueue}
    (hself : self ∈ game.entries) (hq : q ∈ behind game self) : q.job ≠ self.job := by
  obtain ⟨hmem, hafter⟩ := List.mem_filter.mp hq
  intro hjob
  rw [hinv.entry_of_job hmem hself hjob] at hafter
  exact lt_irrefl _ (of_decide_eq_true hafter).2

theorem cancel (hinv : game.QueueInv) {id : ℕ} {self : ShipBuildingQueue}
    (hget : game.queue.get id = some self) (hself : self.job ∉ game.addShips.ready)
    (hbehind : ∀ q ∈ behind game self, q.job ∉ game.addShips.ready) :
    (cancelled game id self).QueueInv := by
  obtain ⟨hperm, hsublist⟩ := entries_cancelled hget
  have hmem : self ∈ game.entries := mem_entries_iff.mpr ⟨id, hget⟩
  have hjobs : (game.entries.map job).Perm (self.job :: (cancelled game id self).entries.map job) := by
    have hmap := hperm.map job
    rwa [map_job_moved, List.map_cons, job_moved] at hmap
  have hfirst : (game.addShips.removeDelayed self.job).pending.Perm
      ((cancelled game id self).entries.map job) := by
    have hfilter := (hinv.jobs.trans hjobs).filter fun other => other ≠ self.job
    have hother : self.job ∉ (cancelled game id self).entries.map job :=
      (List.nodup_cons.mp (hjobs.nodup_iff.mp hinv.nodup_jobs)).1
    rw [← Backlog.pending_removeDelayed hself, List.filter_cons_of_neg (by simp)] at hfilter
    rwa [List.filter_eq_self.mpr fun other hmem =>
      decide_eq_true (ne_of_mem_of_not_mem hmem hother)] at hfilter
  constructor
  · refine List.Pairwise.sublist hsublist (List.pairwise_map.mpr ?_)
    exact hinv.increasing.imp fun hlt => by rwa [qid_moved, qid_moved]
  · have hnodup : (game.addShips.removeDelayed self.job).pending.Nodup :=
      hfirst.nodup_iff.mpr ((List.nodup_cons.mp (hjobs.nodup_iff.mp hinv.nodup_jobs)).2)
    refine (Backlog.pending_rescheduleAll job _ hnodup fun q hq => ⟨?_, hbehind q hq⟩).trans hfirst
    rw [Backlog.pending_removeDelayed hself, List.mem_filter]
    exact ⟨hinv.pending_iff.mpr ⟨q, (List.mem_filter.mp hq).1, rfl⟩,
      decide_eq_true (hinv.job_ne_of_behind hmem hq)⟩
  · intro entry hentry q' hq' hjob
    obtain ⟨q, hq, rfl⟩ := List.mem_map.mp (hsublist.subset hq')
    rw [job_moved] at hjob
    rcases Backlog.mem_delayed_rescheduleAll job _ hentry with ⟨hold, hunmoved⟩ | ⟨a, ha, rfl⟩
    · have hstays : ¬ endsAfter self.planet self.endTime q = true := fun hafter =>
        hunmoved q (List.mem_filter.mpr ⟨hq, hafter⟩) hjob
      rw [moved, if_neg hstays]
      exact hinv.onTime entry (List.mem_filter.mp hold).1 q hq hjob
    · obtain ⟨hmem', hafter⟩ := List.mem_filter.mp ha
      rw [hinv.entry_of_job hq hmem' hjob, moved, if_pos hafter]

/-! ## Deliveries -/

/-- The entry whose job is taken to be run. -/
theorem row_of_pending (hinv : game.QueueInv) {job : AddShip} (hjob : job ∈ game.addShips.pending) :
    ∃ id q, game.queue.get id = some q ∧ q.job = job ∧
      (game.queue.last fun q => q.qid = job.qid) = some (id, q) ∧
      (game.queue.last fun q => q.job = job) = some (id, q) := by
  obtain ⟨q, hq, rfl⟩ := hinv.pending_iff.mp hjob
  obtain ⟨id, hget⟩ := mem_entries_iff.mp hq
  have hlast : ∀ {test : ShipBuildingQueue → Bool}, test q = true →
      (∀ q', test q' = true → q'.qid = q.qid) → game.queue.last test = some (id, q) := by
    intro test htest hqid
    cases hlast : game.queue.last test with
    | none =>
        rw [Table.last_eq_none hlast hget] at htest
        cases htest
    | some entry =>
        obtain ⟨id', q'⟩ := entry
        obtain ⟨hget', htest'⟩ := Table.last_eq_some hlast
        obtain ⟨hid, hrow⟩ := hinv.row_of_qid hget hget' (hqid _ htest').symm
        rw [hid, hrow]
  refine ⟨id, q, hget, rfl, ?_, ?_⟩
  · exact hlast (decide_eq_true rfl) fun q' htest => of_decide_eq_true htest
  · exact hlast (decide_eq_true rfl) fun q' htest => congrArg AddShip.qid (of_decide_eq_true htest)

/-- The entry of a job that is run goes with it. -/
theorem deliver (hinv : game.QueueInv) {id : ℕ} {q : ShipBuildingQueue} {rest : Backlog AddShip}
    (hget : game.queue.get id = some q) (htake : game.addShips.pending.Perm (q.job :: rest.pending))
    (hdelayed : ∀ entry ∈ rest.delayed, entry ∈ game.addShips.delayed) :
    ({ game with addShips := rest, queue := game.queue.destroy id } : Game).QueueInv := by
  have hperm := (Table.rows_perm_destroy hget).map Prod.snd
  have hsublist : ((game.queue.destroy id).rows.map Prod.snd).Sublist game.entries :=
    (Table.rows_destroy_sublist _ id).map Prod.snd
  constructor
  · exact hinv.increasing.sublist hsublist
  · have hjobs := (htake.symm.trans hinv.jobs).trans (hperm.map job)
    exact (List.perm_cons q.job).mp hjobs
  · intro entry hentry q' hq'
    exact hinv.onTime entry (hdelayed entry hentry) q' (hsublist.subset hq')

end Game.QueueInv

end Mmog
