import Mathlib.Data.Int.Notation
import Mathlib.Data.List.Nodup
import Mathlib.Data.List.Perm.Basic

/-!
# Job queues

The jobs of one class.  A job waits in the delayed set until it is due, is then
moved to the ready queue, and leaves it when a worker takes it.  Removing a job
by its arguments only looks at the delayed set.
-/

namespace Mmog.Ruby

structure Delayed (J : Type*) where
  timestamp : ℤ
  job : J
  deriving DecidableEq

structure Backlog (J : Type*) where
  delayed : List (Delayed J)
  ready : List J

namespace Backlog

variable {J : Type*}

def empty : Backlog J := ⟨[], []⟩

/-- The jobs that are still to run. -/
def pending (b : Backlog J) : List J := b.delayed.map Delayed.job ++ b.ready

def enqueueAt (b : Backlog J) (timestamp : ℤ) (job : J) : Backlog J :=
  { b with delayed := b.delayed ++ [⟨timestamp, job⟩] }

def removeDelayed [DecidableEq J] (b : Backlog J) (job : J) : Backlog J :=
  { b with delayed := b.delayed.filter fun entry => entry.job ≠ job }

/-- Moves a delayed job to the ready queue, if it is due. -/
def schedule (b : Backlog J) (now : ℤ) (index : ℕ) : Option (Backlog J) :=
  match b.delayed[index]? with
  | some entry =>
      if entry.timestamp ≤ now then some ⟨b.delayed.eraseIdx index, b.ready ++ [entry.job]⟩
      else none
  | none => none

/-- Takes a job from the ready queue. -/
def takeReady (b : Backlog J) (index : ℕ) : Option (J × Backlog J) :=
  b.ready[index]?.map fun job => (job, { b with ready := b.ready.eraseIdx index })

/-- Takes a job from the delayed set. -/
def takeDelayed (b : Backlog J) (index : ℕ) : Option (J × Backlog J) :=
  b.delayed[index]?.map fun entry => (entry.job, { b with delayed := b.delayed.eraseIdx index })

@[simp] theorem delayed_enqueueAt (b : Backlog J) (timestamp : ℤ) (job : J) :
    (b.enqueueAt timestamp job).delayed = b.delayed ++ [⟨timestamp, job⟩] := rfl
@[simp] theorem ready_enqueueAt (b : Backlog J) (timestamp : ℤ) (job : J) :
    (b.enqueueAt timestamp job).ready = b.ready := rfl
@[simp] theorem delayed_removeDelayed [DecidableEq J] (b : Backlog J) (job : J) :
    (b.removeDelayed job).delayed = b.delayed.filter fun entry => entry.job ≠ job := rfl
@[simp] theorem ready_removeDelayed [DecidableEq J] (b : Backlog J) (job : J) :
    (b.removeDelayed job).ready = b.ready := rfl

theorem mem_pending {b : Backlog J} {job : J} :
    job ∈ b.pending ↔ (∃ entry ∈ b.delayed, entry.job = job) ∨ job ∈ b.ready := by
  rw [pending, List.mem_append, List.mem_map]

theorem perm_cons_eraseIdx {α : Type*} {l : List α} {index : ℕ} {a : α}
    (hget : l[index]? = some a) : l.Perm (a :: l.eraseIdx index) := by
  obtain ⟨hlt, rfl⟩ := List.getElem?_eq_some_iff.mp hget
  exact (List.getElem_cons_eraseIdx_perm hlt).symm

theorem schedule_eq_some {b next : Backlog J} {now : ℤ} {index : ℕ}
    (hschedule : b.schedule now index = some next) :
    ∃ entry, b.delayed[index]? = some entry ∧ entry.timestamp ≤ now ∧
      next = ⟨b.delayed.eraseIdx index, b.ready ++ [entry.job]⟩ := by
  unfold schedule at hschedule
  cases hget : b.delayed[index]? with
  | none =>
      rw [hget] at hschedule
      cases hschedule
  | some entry =>
      rw [hget] at hschedule
      simp only [Option.ite_none_right_eq_some, Option.some.injEq] at hschedule
      exact ⟨entry, rfl, hschedule.1, hschedule.2.symm⟩

/-- Scheduling a job does not change which jobs are to run. -/
theorem schedule_pending {b next : Backlog J} {now : ℤ} {index : ℕ}
    (hschedule : b.schedule now index = some next) : next.pending.Perm b.pending := by
  obtain ⟨entry, hget, -, rfl⟩ := schedule_eq_some hschedule
  have herase := (perm_cons_eraseIdx hget).map Delayed.job
  have hready : (b.ready ++ [entry.job]).Perm (entry.job :: b.ready) :=
    List.perm_append_singleton entry.job b.ready
  exact (hready.append_left _).trans
    (List.perm_middle.trans (herase.append_right b.ready).symm)

theorem takeReady_eq_some {b rest : Backlog J} {index : ℕ} {job : J}
    (htake : b.takeReady index = some (job, rest)) :
    b.pending.Perm (job :: rest.pending) ∧ rest.delayed = b.delayed := by
  obtain ⟨job', hget, hrest⟩ := Option.map_eq_some_iff.mp htake
  cases hrest
  exact ⟨((perm_cons_eraseIdx hget).append_left _).trans List.perm_middle, rfl⟩

theorem takeDelayed_eq_some {b rest : Backlog J} {index : ℕ} {job : J}
    (htake : b.takeDelayed index = some (job, rest)) :
    b.pending.Perm (job :: rest.pending) ∧ rest.ready = b.ready ∧
      ∀ entry ∈ rest.delayed, entry ∈ b.delayed := by
  obtain ⟨entry, hget, hrest⟩ := Option.map_eq_some_iff.mp htake
  cases hrest
  have herase := (perm_cons_eraseIdx hget).map Delayed.job
  exact ⟨herase.append_right b.ready, rfl, fun other hother => List.mem_of_mem_eraseIdx hother⟩

/-- Enqueues a job for each element of a list. -/
theorem foldl_enqueueAt {α : Type*} (jobOf : α → J) (time : α → ℤ) (b : Backlog J) (l : List α) :
    l.foldl (fun b a => b.enqueueAt (time a) (jobOf a)) b =
      ⟨b.delayed ++ l.map fun a => ⟨time a, jobOf a⟩, b.ready⟩ := by
  induction l generalizing b with
  | nil => rw [List.map_nil, List.append_nil, List.foldl_nil]
  | cons a l ih =>
      rw [List.foldl_cons, ih, delayed_enqueueAt, ready_enqueueAt, List.append_assoc]
      rfl

/-! ## Removing and rescheduling -/

section Remove

variable [DecidableEq J] {b : Backlog J} {job : J}

theorem pending_removeDelayed (hready : job ∉ b.ready) :
    (b.removeDelayed job).pending = b.pending.filter fun other => other ≠ job := by
  have hkept : b.ready.filter (fun other => other ≠ job) = b.ready :=
    List.filter_eq_self.mpr fun other hother => decide_eq_true fun heq => hready (heq ▸ hother)
  rw [pending, pending, List.filter_append, hkept, List.filter_map]
  rfl

omit [DecidableEq J] in
theorem pending_enqueueAt (b : Backlog J) (timestamp : ℤ) (job : J) :
    (b.enqueueAt timestamp job).pending.Perm (job :: b.pending) := by
  rw [pending, delayed_enqueueAt, ready_enqueueAt, List.map_append, List.append_assoc]
  exact List.perm_middle

/-- A job that is removed and enqueued anew is still to run once. -/
theorem pending_reschedule (hnodup : b.pending.Nodup) (hmem : job ∈ b.pending)
    (hready : job ∉ b.ready) (timestamp : ℤ) :
    ((b.removeDelayed job).enqueueAt timestamp job).pending.Perm b.pending := by
  refine (pending_enqueueAt _ _ _).trans ?_
  have hfilter : b.pending.filter (fun other => other ≠ job) = b.pending.erase job := by
    rw [hnodup.erase_eq_filter]
    refine List.filter_congr fun other _ => ?_
    by_cases heq : other = job <;> simp [heq]
  rw [pending_removeDelayed hready, hfilter]
  exact (List.perm_cons_erase hmem).symm

variable {α : Type*} (jobOf : α → J) (time : α → ℤ)

/-- Reschedules the jobs of a list one after another. -/
def rescheduleAll (b : Backlog J) (l : List α) : Backlog J :=
  l.foldl (fun b a => (b.removeDelayed (jobOf a)).enqueueAt (time a) (jobOf a)) b

theorem ready_rescheduleAll (b : Backlog J) (l : List α) :
    (rescheduleAll jobOf time b l).ready = b.ready := by
  induction l generalizing b with
  | nil => rfl
  | cons a l ih => exact ih _

theorem pending_rescheduleAll {b : Backlog J} {l : List α} (hnodup : b.pending.Nodup)
    (hmem : ∀ a ∈ l, jobOf a ∈ b.pending ∧ jobOf a ∉ b.ready) :
    (rescheduleAll jobOf time b l).pending.Perm b.pending := by
  induction l generalizing b with
  | nil => exact List.Perm.refl _
  | cons a l ih =>
      obtain ⟨hpending, hready⟩ := hmem a List.mem_cons_self
      have hperm := pending_reschedule hnodup hpending hready (time a)
      refine (ih (hperm.nodup_iff.mpr hnodup) fun other hother => ?_).trans hperm
      obtain ⟨hother, hotherReady⟩ := hmem other (List.mem_cons_of_mem a hother)
      exact ⟨hperm.mem_iff.mpr hother, hotherReady⟩

/-- A delayed job afterwards is an old one that no step removed, or one of the new ones. -/
theorem mem_delayed_rescheduleAll {b : Backlog J} {l : List α} {entry : Delayed J}
    (hentry : entry ∈ (rescheduleAll jobOf time b l).delayed) :
    (entry ∈ b.delayed ∧ ∀ a ∈ l, jobOf a ≠ entry.job) ∨ ∃ a ∈ l, entry = ⟨time a, jobOf a⟩ := by
  induction l generalizing b with
  | nil => exact .inl ⟨hentry, fun a ha => absurd ha List.not_mem_nil⟩
  | cons a l ih =>
      rcases ih hentry with ⟨hold, hother⟩ | ⟨other, hother, heq⟩
      · rw [delayed_enqueueAt, delayed_removeDelayed, List.mem_append, List.mem_singleton] at hold
        rcases hold with hold | rfl
        · obtain ⟨hmem, hne⟩ := List.mem_filter.mp hold
          refine .inl ⟨hmem, fun other hmem' => ?_⟩
          rcases List.mem_cons.mp hmem' with rfl | hmem'
          · exact Ne.symm (of_decide_eq_true hne)
          · exact hother other hmem'
        · exact .inr ⟨a, List.mem_cons_self, rfl⟩
      · exact .inr ⟨other, List.mem_cons_of_mem a hother, heq⟩

/-- Jobs that are not rescheduled stay in front. -/
theorem exists_delayed_rescheduleAll {b : Backlog J} {old rest : List (Delayed J)} {l : List α}
    (hdelayed : b.delayed = old ++ rest) (hold : ∀ entry ∈ old, ∀ a ∈ l, entry.job ≠ jobOf a) :
    ∃ rest', (rescheduleAll jobOf time b l).delayed = old ++ rest' ∧
      ∀ entry ∈ rest', entry ∈ rest ∨ ∃ a ∈ l, entry.job = jobOf a := by
  induction l generalizing b rest with
  | nil => exact ⟨rest, hdelayed, fun entry hentry => .inl hentry⟩
  | cons a l ih =>
      have hkept : old.filter (fun entry => entry.job ≠ jobOf a) = old :=
        List.filter_eq_self.mpr fun entry hentry =>
          decide_eq_true (hold entry hentry a List.mem_cons_self)
      have hfirst : ((b.removeDelayed (jobOf a)).enqueueAt (time a) (jobOf a)).delayed =
          old ++ (rest.filter (fun entry => entry.job ≠ jobOf a) ++ [⟨time a, jobOf a⟩]) := by
        rw [delayed_enqueueAt, delayed_removeDelayed, hdelayed, List.filter_append, hkept, List.append_assoc]
      obtain ⟨rest', hrest', hmem⟩ := ih hfirst fun entry hentry other hother =>
        hold entry hentry other (List.mem_cons_of_mem a hother)
      refine ⟨rest', hrest', fun entry hentry => ?_⟩
      rcases hmem entry hentry with hearlier | ⟨other, hother, heq⟩
      · rcases List.mem_append.mp hearlier with hkept | hnew
        · exact .inl (List.mem_filter.mp hkept).1
        · obtain rfl := List.mem_singleton.mp hnew
          exact .inr ⟨a, List.mem_cons_self, rfl⟩
      · exact .inr ⟨other, List.mem_cons_of_mem a hother, heq⟩

end Remove

/-! ## Jobs of a kind -/

section Waiting

variable {test : J → Bool}

/-- The delayed jobs that pass a test. -/
def waiting (b : Backlog J) (test : J → Bool) : List (Delayed J) :=
  b.delayed.filter fun entry => test entry.job

theorem waiting_enqueueAt (b : Backlog J) (timestamp : ℤ) (job : J) :
    (b.enqueueAt timestamp job).waiting test =
      b.waiting test ++ if test job then [⟨timestamp, job⟩] else [] := by
  rw [waiting, delayed_enqueueAt, List.filter_append, List.filter_singleton]
  cases test job <;> rfl

theorem waiting_enqueueAt_of_not (b : Backlog J) (timestamp : ℤ) {job : J} (hjob : test job = false) :
    (b.enqueueAt timestamp job).waiting test = b.waiting test := by
  rw [waiting_enqueueAt, if_neg (by simp [hjob]), List.append_nil]

theorem waiting_foldl_enqueueAt_of_not {α : Type*} (jobOf : α → J) (time : α → ℤ) (b : Backlog J)
    {l : List α} (hl : ∀ a ∈ l, test (jobOf a) = false) :
    (l.foldl (fun b a => b.enqueueAt (time a) (jobOf a)) b).waiting test = b.waiting test := by
  induction l generalizing b with
  | nil => rfl
  | cons a l ih =>
      rw [List.foldl_cons, ih _ fun other hother => hl other (List.mem_cons_of_mem a hother)]
      exact waiting_enqueueAt_of_not _ _ (hl a List.mem_cons_self)

variable [DecidableEq J]

theorem waiting_removeDelayed_of_not (b : Backlog J) {job : J} (hjob : test job = false) :
    (b.removeDelayed job).waiting test = b.waiting test := by
  rw [waiting, delayed_removeDelayed, List.filter_filter]
  refine List.filter_congr fun entry _ => ?_
  by_cases heq : entry.job = job
  · simp [heq, hjob]
  · simp [heq]

/-- If removing a job that passes the test leaves the others, it was not delayed. -/
theorem not_delayed_of_waiting_removeDelayed {b : Backlog J} {job : J} (hjob : test job = true)
    (hsame : (b.removeDelayed job).waiting test = b.waiting test) :
    ∀ entry ∈ b.delayed, entry.job ≠ job := by
  intro entry hentry heq
  have hwaiting : entry ∈ b.waiting test := List.mem_filter.mpr ⟨hentry, by rw [heq]; exact hjob⟩
  rw [← hsame, waiting, delayed_removeDelayed] at hwaiting
  have hkept := (List.mem_filter.mp (List.mem_filter.mp hwaiting).1).2
  exact of_decide_eq_true hkept heq

theorem waiting_rescheduleAll_of_not {α : Type*} (jobOf : α → J) (time : α → ℤ) (b : Backlog J)
    {l : List α} (hl : ∀ a ∈ l, test (jobOf a) = false) :
    (rescheduleAll jobOf time b l).waiting test = b.waiting test := by
  induction l generalizing b with
  | nil => rfl
  | cons a l ih =>
      have ha := hl a List.mem_cons_self
      rw [rescheduleAll, List.foldl_cons, ← rescheduleAll,
        ih _ fun other hother => hl other (List.mem_cons_of_mem a hother),
        waiting_enqueueAt_of_not _ _ ha, waiting_removeDelayed_of_not _ ha]

end Waiting

end Backlog

end Mmog.Ruby
