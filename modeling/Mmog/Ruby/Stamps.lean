import Mmog.Ruby.Backlog
import Mmog.Ruby.Ledger

/-!
# Stamps for jobs

Equal jobs in a queue cannot be told apart.  Stamps give every job an id when
it is enqueued, and follow it from the delayed set to the ready queue until it
is taken or removed.
-/

namespace Mmog.Ruby

variable {J : Type*}

/-- The jobs that are still to run, and their ids in the order of the two queues. -/
structure Stamps (J : Type*) where
  jobs : Table J
  waiting : List ℕ
  due : List ℕ

namespace Stamps

def empty : Stamps J := ⟨⟨0, fun _ => none, fun _ _ => rfl⟩, [], []⟩

def enqueue (s : Stamps J) (job : J) : Stamps J :=
  ⟨s.jobs.create job, s.waiting ++ [s.jobs.nextId], s.due⟩

/-- A job that is due at once. -/
def push (s : Stamps J) (job : J) : Stamps J :=
  ⟨s.jobs.create job, s.waiting, s.due ++ [s.jobs.nextId]⟩

/-- Stamps for the jobs of two queues. -/
def of (delayed ready : List J) : Stamps J := ready.foldl push (delayed.foldl enqueue empty)

def schedule (s : Stamps J) (index : ℕ) : Stamps J :=
  match s.waiting[index]? with
  | some id => ⟨s.jobs, s.waiting.eraseIdx index, s.due ++ [id]⟩
  | none => s

def take (s : Stamps J) (index : ℕ) : Stamps J :=
  match s.due[index]? with
  | some id => ⟨s.jobs.destroy id, s.waiting, s.due.eraseIdx index⟩
  | none => s

section Remove

variable [DecidableEq J]

/-- The delayed jobs that are equal to this one. -/
def matching (s : Stamps J) (job : J) : List ℕ := s.waiting.filter fun id => s.jobs.get id = some job

def remove (s : Stamps J) (job : J) : Stamps J :=
  ⟨(s.matching job).foldl Table.destroy s.jobs, s.waiting.filter fun id => s.jobs.get id ≠ some job, s.due⟩

end Remove

/-! ## Agreement with the queues -/

/-- The ids are those of the jobs of the two queues, in their order, and no id stands twice. -/
structure Agrees (s : Stamps J) (delayed ready : List J) : Prop where
  waiting : s.waiting.map s.jobs.get = delayed.map some
  due : s.due.map s.jobs.get = ready.map some
  nodup : (s.waiting ++ s.due).Nodup

namespace Agrees

variable {s : Stamps J} {delayed ready : List J}

theorem exists_waiting (hagrees : s.Agrees delayed ready) {id : ℕ} (hid : id ∈ s.waiting) :
    ∃ job ∈ delayed, s.jobs.get id = some job := by
  have hmem : s.jobs.get id ∈ delayed.map some := hagrees.waiting ▸ List.mem_map_of_mem hid
  obtain ⟨job, hjob, heq⟩ := List.mem_map.mp hmem
  exact ⟨job, hjob, heq.symm⟩

theorem exists_due (hagrees : s.Agrees delayed ready) {id : ℕ} (hid : id ∈ s.due) :
    ∃ job ∈ ready, s.jobs.get id = some job := by
  have hmem : s.jobs.get id ∈ ready.map some := hagrees.due ▸ List.mem_map_of_mem hid
  obtain ⟨job, hjob, heq⟩ := List.mem_map.mp hmem
  exact ⟨job, hjob, heq.symm⟩

theorem lt_nextId (hagrees : s.Agrees delayed ready) {id : ℕ} (hid : id ∈ s.waiting ++ s.due) :
    id < s.jobs.nextId := by
  rcases List.mem_append.mp hid with hwaiting | hdue
  · obtain ⟨job, -, hget⟩ := hagrees.exists_waiting hwaiting
    exact Table.lt_nextId hget
  · obtain ⟨job, -, hget⟩ := hagrees.exists_due hdue
    exact Table.lt_nextId hget

theorem getElem?_waiting (hagrees : s.Agrees delayed ready) {index : ℕ} {job : J}
    (hget : delayed[index]? = some job) :
    ∃ id, s.waiting[index]? = some id ∧ s.jobs.get id = some job := by
  have hmap : (s.waiting.map s.jobs.get)[index]? = some (some job) := by
    rw [hagrees.waiting, List.getElem?_map, hget]
    rfl
  rw [List.getElem?_map] at hmap
  exact Option.map_eq_some_iff.mp hmap

theorem getElem?_due (hagrees : s.Agrees delayed ready) {index : ℕ} {job : J}
    (hget : ready[index]? = some job) :
    ∃ id, s.due[index]? = some id ∧ s.jobs.get id = some job := by
  have hmap : (s.due.map s.jobs.get)[index]? = some (some job) := by
    rw [hagrees.due, List.getElem?_map, hget]
    rfl
  rw [List.getElem?_map] at hmap
  exact Option.map_eq_some_iff.mp hmap

theorem empty : (Stamps.empty : Stamps J).Agrees [] [] := ⟨rfl, rfl, List.nodup_nil⟩

/-- What is said of the ids there are stays true when a job gets a new one. -/
theorem map_create (hagrees : s.Agrees delayed ready) (job : J) {ids : List ℕ}
    (hids : ∀ id ∈ ids, id ∈ s.waiting ++ s.due) :
    ids.map (s.jobs.create job).get = ids.map s.jobs.get := by
  refine List.map_congr_left fun id hid => ?_
  rw [Table.get_create, if_neg (hagrees.lt_nextId (hids id hid)).ne]

theorem nextId_not_mem (hagrees : s.Agrees delayed ready) : s.jobs.nextId ∉ s.waiting ++ s.due :=
  fun hmem => (hagrees.lt_nextId hmem).ne rfl

theorem enqueue (hagrees : s.Agrees delayed ready) (job : J) :
    (s.enqueue job).Agrees (delayed ++ [job]) ready where
  waiting := by
    change (s.waiting ++ [s.jobs.nextId]).map (s.jobs.create job).get = _
    rw [List.map_append, List.map_append, hagrees.map_create job fun id hid => List.mem_append_left _ hid,
      hagrees.waiting, List.map_singleton, Table.get_create_self]
    rfl
  due := (hagrees.map_create job fun id hid => List.mem_append_right _ hid).trans hagrees.due
  nodup := by
    change ((s.waiting ++ [s.jobs.nextId]) ++ s.due).Nodup
    rw [List.append_assoc, List.singleton_append, List.nodup_middle]
    exact List.nodup_cons.mpr ⟨hagrees.nextId_not_mem, hagrees.nodup⟩

theorem push (hagrees : s.Agrees delayed ready) (job : J) :
    (s.push job).Agrees delayed (ready ++ [job]) where
  waiting := (hagrees.map_create job fun id hid => List.mem_append_left _ hid).trans hagrees.waiting
  due := by
    change (s.due ++ [s.jobs.nextId]).map (s.jobs.create job).get = _
    rw [List.map_append, List.map_append, hagrees.map_create job fun id hid => List.mem_append_right _ hid,
      hagrees.due, List.map_singleton, Table.get_create_self]
    rfl
  nodup := by
    change (s.waiting ++ (s.due ++ [s.jobs.nextId])).Nodup
    rw [← List.append_assoc, List.nodup_append_comm]
    exact List.nodup_cons.mpr ⟨hagrees.nextId_not_mem, hagrees.nodup⟩

theorem of (delayed ready : List J) : (Stamps.of delayed ready).Agrees delayed ready := by
  have hdelayed : ∀ (s : Stamps J) (before jobs : List J), s.Agrees before [] →
      (jobs.foldl Stamps.enqueue s).Agrees (before ++ jobs) [] := by
    intro s before jobs
    induction jobs generalizing s before with
    | nil => exact fun hs => by rwa [List.append_nil]
    | cons job jobs ih => exact fun hs => by simpa using ih _ _ (hs.enqueue job)
  have hready : ∀ (s : Stamps J) (before jobs : List J), s.Agrees delayed before →
      (jobs.foldl Stamps.push s).Agrees delayed (before ++ jobs) := by
    intro s before jobs
    induction jobs generalizing s before with
    | nil => exact fun hs => by rwa [List.append_nil]
    | cons job jobs ih => exact fun hs => by simpa using ih _ _ (hs.push job)
  exact hready _ [] ready (hdelayed _ [] delayed empty)

theorem schedule (hagrees : s.Agrees delayed ready) {index : ℕ} {job : J}
    (hget : delayed[index]? = some job) :
    (s.schedule index).Agrees (delayed.eraseIdx index) (ready ++ [job]) := by
  obtain ⟨id, hid, hjob⟩ := hagrees.getElem?_waiting hget
  rw [Stamps.schedule, hid]
  refine ⟨?_, ?_, ?_⟩
  · change (s.waiting.eraseIdx index).map s.jobs.get = _
    rw [← List.eraseIdx_map, hagrees.waiting, List.eraseIdx_map]
  · change (s.due ++ [id]).map s.jobs.get = _
    rw [List.map_append, List.map_append, hagrees.due, List.map_singleton, hjob]
    rfl
  · change (s.waiting.eraseIdx index ++ (s.due ++ [id])).Nodup
    have hperm : (s.waiting.eraseIdx index ++ (s.due ++ [id])).Perm (s.waiting ++ s.due) :=
      ((List.perm_append_singleton id s.due).append_left _).trans
        (List.perm_middle.trans ((Backlog.perm_cons_eraseIdx hid).symm.append_right s.due))
    exact hperm.nodup_iff.mpr hagrees.nodup

theorem take (hagrees : s.Agrees delayed ready) {index : ℕ} {job : J}
    (hget : ready[index]? = some job) : (s.take index).Agrees delayed (ready.eraseIdx index) := by
  obtain ⟨id, hid, -⟩ := hagrees.getElem?_due hget
  have hperm := Backlog.perm_cons_eraseIdx hid
  have hnodup := (hperm.append_left s.waiting).nodup_iff.mp hagrees.nodup
  rw [List.nodup_middle, List.nodup_cons] at hnodup
  -- the jobs that are left keep their ids
  have hmap : ∀ ids : List ℕ, (∀ other ∈ ids, other ∈ s.waiting ++ s.due.eraseIdx index) →
      ids.map (s.jobs.destroy id).get = ids.map s.jobs.get := by
    refine fun ids hids => List.map_congr_left fun other hother => Table.get_destroy_of_ne _ ?_
    rintro rfl
    exact hnodup.1 (hids other hother)
  rw [Stamps.take, hid]
  refine ⟨?_, ?_, hnodup.2⟩
  · exact (hmap _ fun other hother => List.mem_append_left _ hother).trans hagrees.waiting
  · refine (hmap _ fun other hother => List.mem_append_right _ hother).trans ?_
    rw [← List.eraseIdx_map, hagrees.due, List.eraseIdx_map]

section Remove

variable [DecidableEq J]

theorem length_matching (hagrees : s.Agrees delayed ready) (job : J) :
    (s.matching job).length = (delayed.filter fun other => other = job).length := by
  have hfilter : (s.waiting.map s.jobs.get).filter (fun found => found = some job) =
      (delayed.map some).filter fun found => found = some job := by rw [hagrees.waiting]
  rw [List.filter_map, List.filter_map] at hfilter
  have hlength := congrArg List.length hfilter
  rw [List.length_map, List.length_map] at hlength
  refine hlength.trans (congrArg List.length (List.filter_congr fun other _ => ?_))
  simp

theorem get_remove (s : Stamps J) {job : J} {id : ℕ} (hnot : s.jobs.get id ≠ some job) :
    (s.remove job).jobs.get id = s.jobs.get id := by
  rw [Stamps.remove, Table.get_foldl_destroy, if_neg]
  intro hmem
  exact hnot (of_decide_eq_true (List.mem_filter.mp hmem).2)

theorem remove (hagrees : s.Agrees delayed ready) (job : J) :
    (s.remove job).Agrees (delayed.filter fun other => other ≠ job) ready := by
  refine ⟨?_, ?_, ?_⟩
  · have hmap : (s.remove job).waiting.map (s.remove job).jobs.get =
        (s.remove job).waiting.map s.jobs.get :=
      List.map_congr_left fun id hid => get_remove s (of_decide_eq_true (List.mem_filter.mp hid).2)
    have hfilter : (s.waiting.map s.jobs.get).filter (fun found => found ≠ some job) =
        (delayed.map some).filter fun found => found ≠ some job := by rw [hagrees.waiting]
    rw [List.filter_map, List.filter_map] at hfilter
    rw [hmap]
    refine hfilter.trans (congrArg _ (List.filter_congr fun other _ => ?_))
    simp
  · -- a due job is out of reach
    refine (List.map_congr_left fun id hid => ?_).trans hagrees.due
    rw [Stamps.remove, Table.get_foldl_destroy, if_neg]
    intro hmem
    exact (List.disjoint_of_nodup_append hagrees.nodup) (List.mem_of_mem_filter hmem) hid
  · exact hagrees.nodup.sublist (List.filter_sublist.append_right s.due)

end Remove

end Agrees

end Stamps

/-! ## Ledgers of stamped jobs -/

namespace OnceEach

variable {α : Type*} {first : ℕ} {log : List (Option ℕ × α)} {s : Stamps J}

theorem of (delayed ready : List J) :
    OnceEach 0 ([] : List (Option ℕ × α)) (Stamps.of delayed ready).jobs := by
  have hdelayed : ∀ (s : Stamps J), OnceEach 0 ([] : List (Option ℕ × α)) s.jobs →
      OnceEach 0 ([] : List (Option ℕ × α)) (delayed.foldl Stamps.enqueue s).jobs := by
    induction delayed with
    | nil => exact fun s hs => hs
    | cons job delayed ih => exact fun s hs => ih _ (hs.create job)
  have hready : ∀ (s : Stamps J), OnceEach 0 ([] : List (Option ℕ × α)) s.jobs →
      OnceEach 0 ([] : List (Option ℕ × α)) (ready.foldl Stamps.push s).jobs := by
    induction ready with
    | nil => exact fun s hs => hs
    | cons job ready ih => exact fun s hs => ih _ (hs.create job)
  exact hready _ (hdelayed _ (nil Stamps.empty.jobs))

/-- Several rows go at once. -/
theorem foldl_destroy {ρ : Type*} {t : Table ρ} (hledger : OnceEach first log t) {ids : List ℕ}
    (hnodup : ids.Nodup) (hlive : ∀ id ∈ ids, ∃ row, t.get id = some row) (deed : ℕ → α) :
    OnceEach first (log ++ ids.map fun id => (some id, deed id)) (ids.foldl Table.destroy t) := by
  induction ids generalizing log t with
  | nil =>
      rw [List.map_nil, List.append_nil]
      exact hledger
  | cons id ids ih =>
      obtain ⟨hnot, hnodup⟩ := List.nodup_cons.mp hnodup
      obtain ⟨row, hrow⟩ := hlive id List.mem_cons_self
      have hrest := ih (hledger.destroy hrow (deed id)) hnodup fun other hother => by
        have hne : other ≠ id := by
          rintro rfl
          exact hnot hother
        rw [Table.get_destroy_of_ne t hne]
        exact hlive other (List.mem_cons_of_mem id hother)
      rw [List.append_assoc] at hrest
      exact hrest

theorem remove [DecidableEq J] {delayed ready : List J} (hledger : OnceEach first log s.jobs)
    (hagrees : s.Agrees delayed ready) (job : J) (deed : ℕ → α) :
    OnceEach first (log ++ (s.matching job).map fun id => (some id, deed id)) (s.remove job).jobs := by
  refine hledger.foldl_destroy ?_ (fun id hid => ⟨job, of_decide_eq_true (List.mem_filter.mp hid).2⟩) deed
  exact (List.nodup_append.mp hagrees.nodup).1.filter _

/-- With all ids from 0 on, no row is dealt with twice. -/
theorem length_doneWith_le_one {ρ : Type*} {t : Table ρ} (hledger : OnceEach 0 log t) (id : ℕ) :
    (doneWith log id).length ≤ 1 := by
  cases hget : t.get id with
  | some row =>
      rw [hledger.live id row hget]
      exact Nat.zero_le 1
  | none =>
      by_cases hlt : id < t.nextId
      · obtain ⟨deed, hdeed⟩ := hledger.gone id (Nat.zero_le id) hlt hget
        rw [hdeed]
        exact le_refl 1
      · rw [hledger.unborn id (Nat.le_of_not_lt hlt)]
        exact Nat.zero_le 1

end OnceEach

end Mmog.Ruby
