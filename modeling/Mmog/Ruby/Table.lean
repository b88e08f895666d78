import Mathlib.Algebra.BigOperators.Group.Finset.Basic
import Mathlib.Algebra.BigOperators.Group.Finset.Piecewise
import Mathlib.Tactic.Abel

/-!
# Tables

A table of rows under auto-incremented ids.  An id is never given twice, and a
query yields the ids of its rows in ascending order.
-/

namespace Mmog.Ruby

structure Table (ρ : Type*) where
  nextId : ℕ
  get : ℕ → Option ρ
  fresh : ∀ id, nextId ≤ id → get id = none

namespace Table

variable {ρ : Type*}

@[ext] theorem ext {s t : Table ρ} (nextId : s.nextId = t.nextId)
    (get : ∀ id, s.get id = t.get id) : s = t := by
  cases s
  cases t
  cases nextId
  cases funext get
  rfl

theorem lt_nextId {t : Table ρ} {id : ℕ} {row : ρ} (hget : t.get id = some row) :
    id < t.nextId := by
  by_contra hle
  rw [t.fresh id (Nat.le_of_not_lt hle)] at hget
  cases hget

theorem ne_nextId {t : Table ρ} {id : ℕ} {row : ρ} (hget : t.get id = some row) :
    id ≠ t.nextId :=
  (lt_nextId hget).ne

def empty : Table ρ := ⟨1, fun _ => none, fun _ _ => rfl⟩

/-- Insert a row under the next id. -/
def create (t : Table ρ) (row : ρ) : Table ρ where
  nextId := t.nextId + 1
  get id := if id = t.nextId then some row else t.get id
  fresh id hle := by
    rw [if_neg (by omega)]
    exact t.fresh id (by omega)

/-- Rewrite the row with this id, if there is one. -/
def modify (t : Table ρ) (id : ℕ) (change : ρ → ρ) : Table ρ where
  nextId := t.nextId
  get other := if other = id then (t.get other).map change else t.get other
  fresh other hle := by
    rw [t.fresh other hle]
    split <;> rfl

def destroy (t : Table ρ) (id : ℕ) : Table ρ where
  nextId := t.nextId
  get other := if other = id then none else t.get other
  fresh other hle := by
    rw [t.fresh other hle]
    split <;> rfl

@[simp] theorem nextId_create (t : Table ρ) (row : ρ) :
    (t.create row).nextId = t.nextId + 1 := rfl
@[simp] theorem nextId_modify (t : Table ρ) (id : ℕ) (change : ρ → ρ) :
    (t.modify id change).nextId = t.nextId := rfl
@[simp] theorem nextId_destroy (t : Table ρ) (id : ℕ) : (t.destroy id).nextId = t.nextId := rfl

theorem get_create (t : Table ρ) (row : ρ) (id : ℕ) :
    (t.create row).get id = if id = t.nextId then some row else t.get id := rfl
theorem get_modify (t : Table ρ) (id other : ℕ) (change : ρ → ρ) :
    (t.modify id change).get other =
      if other = id then (t.get other).map change else t.get other := rfl
theorem get_destroy (t : Table ρ) (id other : ℕ) :
    (t.destroy id).get other = if other = id then none else t.get other := rfl

@[simp] theorem get_create_self (t : Table ρ) (row : ρ) :
    (t.create row).get t.nextId = some row :=
  if_pos rfl

theorem get_create_of_some {t : Table ρ} {id : ℕ} {old : ρ} (row : ρ)
    (hget : t.get id = some old) : (t.create row).get id = some old := by
  rw [get_create, if_neg (ne_nextId hget), hget]

theorem get_modify_self {t : Table ρ} {id : ℕ} {row : ρ} (change : ρ → ρ)
    (hget : t.get id = some row) : (t.modify id change).get id = some (change row) := by
  rw [get_modify, if_pos rfl, hget]
  rfl

theorem get_modify_of_ne (t : Table ρ) {id other : ℕ} (change : ρ → ρ) (hne : other ≠ id) :
    (t.modify id change).get other = t.get other :=
  if_neg hne

@[simp] theorem get_destroy_self (t : Table ρ) (id : ℕ) : (t.destroy id).get id = none :=
  if_pos rfl

theorem get_destroy_of_ne (t : Table ρ) {id other : ℕ} (hne : other ≠ id) :
    (t.destroy id).get other = t.get other :=
  if_neg hne

theorem modify_modify (t : Table ρ) (id : ℕ) (first second : ρ → ρ) :
    (t.modify id first).modify id second = t.modify id (second ∘ first) := by
  refine ext rfl fun other => ?_
  simp only [get_modify]
  split <;> simp

theorem modify_congr {t : Table ρ} {id : ℕ} {row : ρ} {first second : ρ → ρ}
    (hget : t.get id = some row) (hrow : first row = second row) :
    t.modify id first = t.modify id second := by
  refine ext rfl fun other => ?_
  simp only [get_modify]
  split
  · rename_i heq
    rw [heq, hget, Option.map_some, Option.map_some, hrow]
  · rfl

/-- Overwrite the row with this id, if there is one. -/
def put (t : Table ρ) (id : ℕ) (row : ρ) : Table ρ := t.modify id fun _ => row

@[simp] theorem nextId_put (t : Table ρ) (id : ℕ) (row : ρ) : (t.put id row).nextId = t.nextId :=
  rfl

theorem get_put {t : Table ρ} {id : ℕ} {old : ρ} (row : ρ) (hget : t.get id = some old)
    (other : ℕ) : (t.put id row).get other = if other = id then some row else t.get other := by
  rw [put, get_modify]
  split
  · rename_i heq
    rw [heq, hget]
    rfl
  · rfl

theorem modify_eq_put {t : Table ρ} {id : ℕ} {row : ρ} (change : ρ → ρ)
    (hget : t.get id = some row) : t.modify id change = t.put id (change row) :=
  modify_congr hget rfl

@[simp] theorem put_put (t : Table ρ) (id : ℕ) (first second : ρ) :
    (t.put id first).put id second = t.put id second :=
  modify_modify t id _ _

theorem put_self {t : Table ρ} {id : ℕ} {row : ρ} (hget : t.get id = some row) :
    t.put id row = t := by
  refine ext rfl fun other => ?_
  rw [get_put row hget]
  split
  · rename_i heq
    rw [heq, hget]
  · rfl

theorem destroy_modify_self (t : Table ρ) (id : ℕ) (change : ρ → ρ) :
    (t.modify id change).destroy id = t.destroy id := by
  refine ext rfl fun other => ?_
  simp only [get_destroy, get_modify]
  split <;> rfl

theorem destroy_modify_of_ne (t : Table ρ) {id other : ℕ} (change : ρ → ρ) (hne : other ≠ id) :
    (t.modify other change).destroy id = (t.destroy id).modify other change := by
  refine ext rfl fun found => ?_
  simp only [get_destroy, get_modify]
  by_cases heq : found = other
  · simp [heq, hne]
  · simp [heq]

@[simp] theorem destroy_put_self (t : Table ρ) (id : ℕ) (row : ρ) :
    (t.put id row).destroy id = t.destroy id :=
  destroy_modify_self t id _

theorem modify_of_none {t : Table ρ} {id : ℕ} (change : ρ → ρ) (hget : t.get id = none) :
    t.modify id change = t := by
  refine ext rfl fun other => ?_
  rw [get_modify]
  split
  · rename_i heq
    rw [heq, hget]
    rfl
  · rfl

theorem modify_create_of_some {t : Table ρ} {id : ℕ} {old : ρ} (row : ρ) (change : ρ → ρ)
    (hget : t.get id = some old) :
    (t.create row).modify id change = (t.modify id change).create row := by
  refine ext rfl fun other => ?_
  simp only [get_modify, get_create, nextId_modify]
  by_cases heq : other = id
  · simp [heq, ne_nextId hget]
  · simp [heq]

theorem modify_create_self (t : Table ρ) (row : ρ) (change : ρ → ρ) :
    (t.create row).modify t.nextId change = t.create (change row) := by
  refine ext rfl fun other => ?_
  simp only [get_modify, get_create]
  by_cases heq : other = t.nextId <;> simp [heq]

theorem put_create_of_some {t : Table ρ} {id : ℕ} {old : ρ} (row new : ρ)
    (hget : t.get id = some old) : (t.create new).put id row = (t.put id row).create new :=
  modify_create_of_some new _ hget

@[simp] theorem put_create_self (t : Table ρ) (first second : ρ) :
    (t.create first).put t.nextId second = t.create second :=
  modify_create_self t first _

/-- A table whose next id was given away and whose new row is gone again. -/
def skip (t : Table ρ) : Table ρ where
  nextId := t.nextId + 1
  get := t.get
  fresh id hid := t.fresh id (by omega)

@[simp] theorem nextId_skip (t : Table ρ) : t.skip.nextId = t.nextId + 1 := rfl
@[simp] theorem get_skip (t : Table ρ) (id : ℕ) : t.skip.get id = t.get id := rfl

theorem destroy_create_self (t : Table ρ) (row : ρ) : (t.create row).destroy t.nextId = t.skip := by
  refine ext rfl fun other => ?_
  rw [get_destroy, get_create, get_skip]
  split
  · rename_i heq
    exact (heq ▸ t.fresh t.nextId (le_refl _)).symm
  · rfl

/-! ## Queries -/

/-- The ids of the rows that pass a test. -/
def select (t : Table ρ) (test : ρ → Bool) : List ℕ :=
  (List.range t.nextId).filter fun id => (t.get id).any test

/-- The lowest id of a row that passes a test. -/
def first (t : Table ρ) (test : ρ → Bool) : Option ℕ := (t.select test).head?

theorem mem_select {t : Table ρ} {test : ρ → Bool} {id : ℕ} :
    id ∈ t.select test ↔ ∃ row, t.get id = some row ∧ test row = true := by
  rw [select, List.mem_filter, List.mem_range, Option.any_eq_true]
  exact ⟨And.right, fun h => ⟨lt_nextId h.choose_spec.1, h⟩⟩

theorem nodup_select (t : Table ρ) (test : ρ → Bool) : (t.select test).Nodup :=
  List.nodup_range.filter _

theorem first_eq_some {t : Table ρ} {test : ρ → Bool} {id : ℕ} (hfirst : t.first test = some id) :
    ∃ row, t.get id = some row ∧ test row = true :=
  mem_select.mp (List.mem_of_mem_head? hfirst)

theorem first_eq_none {t : Table ρ} {test : ρ → Bool} :
    t.first test = none ↔ ∀ id row, t.get id = some row → test row = false := by
  rw [first, List.head?_eq_none_iff, List.eq_nil_iff_forall_not_mem]
  constructor
  · intro hnone id row hget
    by_contra htest
    exact hnone id (mem_select.mpr ⟨row, hget, by simpa using htest⟩)
  · intro hfalse id hmem
    obtain ⟨row, hget, htest⟩ := mem_select.mp hmem
    rw [hfalse id row hget] at htest
    cases htest

/-- Exactly one row passes a test. -/
theorem length_select_eq_one {t : Table ρ} {test : ρ → Bool} : (t.select test).length = 1 ↔
    ∃ id row, t.get id = some row ∧ test row = true ∧
      ∀ other found, t.get other = some found → test found = true → other = id := by
  rw [List.length_eq_one_iff]
  constructor
  · rintro ⟨id, hid⟩
    obtain ⟨row, hget, htest⟩ := mem_select.mp (hid ▸ List.mem_singleton_self id)
    refine ⟨id, row, hget, htest, fun other found hother hfound => ?_⟩
    exact List.mem_singleton.mp (hid ▸ mem_select.mpr ⟨found, hother, hfound⟩)
  · rintro ⟨id, row, hget, htest, hone⟩
    refine ⟨id, List.perm_singleton.mp ?_⟩
    refine (List.perm_ext_iff_of_nodup (nodup_select t test) (List.nodup_singleton id)).mpr fun other => ?_
    rw [mem_select, List.mem_singleton]
    constructor
    · rintro ⟨found, hother, hfound⟩
      exact hone other found hother hfound
    · rintro rfl
      exact ⟨row, hget, htest⟩

/-- A change that keeps what a test says of the row keeps the rows that pass. -/
theorem select_modify_of_eq {t : Table ρ} {test : ρ → Bool} {id : ℕ} {change : ρ → ρ}
    (hkeep : ∀ row, t.get id = some row → test (change row) = test row) :
    (t.modify id change).select test = t.select test := by
  refine List.filter_congr fun other _ => ?_
  rw [get_modify]
  split
  · rename_i heq
    cases hget : t.get other with
    | none => rfl
    | some row => exact hkeep row (heq ▸ hget)
  · rfl

theorem select_create (t : Table ρ) (row : ρ) (test : ρ → Bool) :
    (t.create row).select test = t.select test ++ if test row then [t.nextId] else [] := by
  have hold : (List.range t.nextId).filter (fun id => ((t.create row).get id).any test) =
      t.select test := by
    refine List.filter_congr fun id hid => ?_
    rw [get_create, if_neg (List.mem_range.mp hid).ne]
  rw [select, nextId_create, List.range_succ, List.filter_append, hold, List.filter_singleton,
    get_create_self, Option.any_some, Bool.cond_eq_ite]

theorem select_destroy_of_not {t : Table ρ} {test : ρ → Bool} {id : ℕ}
    (hnot : ∀ row, t.get id = some row → test row = false) :
    (t.destroy id).select test = t.select test := by
  refine List.filter_congr fun other _ => ?_
  rw [get_destroy]
  split
  · rename_i heq
    cases hget : t.get other with
    | none => rfl
    | some row => exact (hnot row (heq ▸ hget)).symm
  · rfl

/-- The row with this id, if it passes a test. -/
def pick (t : Table ρ) (test : ρ → Bool) (id : ℕ) : Option ρ := (t.get id).filter test

theorem pick_eq_some {t : Table ρ} {test : ρ → Bool} {id : ℕ} {row : ρ} :
    t.pick test id = some row ↔ t.get id = some row ∧ test row = true :=
  Option.filter_eq_some_iff

theorem pick_congr {s t : Table ρ} {test : ρ → Bool} {id : ℕ}
    (hs : ∀ row, s.get id = some row → test row = false)
    (ht : ∀ row, t.get id = some row → test row = false) : s.pick test id = t.pick test id := by
  have hnone : ∀ u : Table ρ, (∀ row, u.get id = some row → test row = false) →
      u.pick test id = none := fun u hu =>
    Option.filter_eq_none_iff.mpr fun row hget => by simp [hu row hget]
  rw [hnone s hs, hnone t ht]

theorem pick_create_of_not (t : Table ρ) {test : ρ → Bool} {row : ρ} (hrow : test row = false) (id : ℕ) :
    (t.create row).pick test id = t.pick test id := by
  by_cases heq : id = t.nextId
  · refine pick_congr ?_ ?_
    · rintro found hget
      rw [get_create, if_pos heq] at hget
      cases hget
      exact hrow
    · rintro found hget
      exact absurd heq (ne_nextId hget)
  · rw [pick, get_create, if_neg heq, pick]

theorem pick_modify_of_not {t : Table ρ} {test : ρ → Bool} {id : ℕ} {change : ρ → ρ}
    (hnot : ∀ row, t.get id = some row → test row = false ∧ test (change row) = false) (other : ℕ) :
    (t.modify id change).pick test other = t.pick test other := by
  by_cases heq : other = id
  · subst heq
    refine pick_congr ?_ fun row hget => (hnot row hget).1
    intro found hget
    rw [get_modify, if_pos rfl] at hget
    obtain ⟨row, hrow, rfl⟩ := Option.map_eq_some_iff.mp hget
    exact (hnot row hrow).2
  · rw [pick, get_modify_of_ne t change heq, pick]

theorem pick_destroy_of_not {t : Table ρ} {test : ρ → Bool} {id : ℕ}
    (hnot : ∀ row, t.get id = some row → test row = false) (other : ℕ) :
    (t.destroy id).pick test other = t.pick test other := by
  by_cases heq : other = id
  · subst heq
    refine pick_congr ?_ hnot
    intro found hget
    rw [get_destroy_self] at hget
    cases hget
  · rw [pick, get_destroy_of_ne t heq, pick]

theorem pick_foldl_create_of_not (t : Table ρ) {test : ρ → Bool} {rows : List ρ}
    (hrows : ∀ row ∈ rows, test row = false) (id : ℕ) :
    (rows.foldl create t).pick test id = t.pick test id := by
  induction rows generalizing t with
  | nil => rfl
  | cons row rows ih =>
      rw [List.foldl_cons, ih _ fun other hother => hrows other (List.mem_cons_of_mem row hother)]
      exact pick_create_of_not t (hrows row List.mem_cons_self) id

theorem get_foldl_destroy (t : Table ρ) (ids : List ℕ) (id : ℕ) :
    (ids.foldl destroy t).get id = if id ∈ ids then none else t.get id := by
  induction ids generalizing t with
  | nil => rw [List.foldl_nil, if_neg List.not_mem_nil]
  | cons first ids ih =>
      rw [List.foldl_cons, ih, get_destroy]
      by_cases heq : id = first
      · simp [heq]
      · simp [heq]

@[simp] theorem nextId_foldl_destroy (t : Table ρ) (ids : List ℕ) : (ids.foldl destroy t).nextId = t.nextId := by
  induction ids generalizing t with
  | nil => rfl
  | cons first ids ih => exact ih (t.destroy first)

/-- A row that is destroyed anyway need not be rewritten. -/
theorem foldl_destroy_put_of_mem {t : Table ρ} {ids : List ℕ} {id : ℕ} (hmem : id ∈ ids) (row : ρ) :
    ids.foldl destroy (t.put id row) = ids.foldl destroy t := by
  refine ext (by simp) fun other => ?_
  rw [get_foldl_destroy, get_foldl_destroy]
  split
  · rfl
  · rename_i hnot
    exact get_modify_of_ne t _ fun heq => hnot (heq ▸ hmem)

theorem foldl_destroy_put_of_not_mem {t : Table ρ} {ids : List ℕ} {id : ℕ} {old : ρ} (hget : t.get id = some old)
    (hnot : id ∉ ids) (row : ρ) : ids.foldl destroy (t.put id row) = (ids.foldl destroy t).put id row := by
  have hleft : (ids.foldl destroy t).get id = some old := by rw [get_foldl_destroy, if_neg hnot, hget]
  refine ext (by simp) fun other => ?_
  rw [get_foldl_destroy, get_put row hget, get_put row hleft, get_foldl_destroy]
  by_cases heq : other = id
  · rw [heq, if_neg hnot, if_pos rfl, if_pos rfl]
  · rw [if_neg heq, if_neg heq]

/-! ## Rows -/

/-- All rows with their ids, in ascending order. -/
def rows (t : Table ρ) : List (ℕ × ρ) :=
  (List.range t.nextId).filterMap fun id => (t.get id).map (Prod.mk id)

/-- The row with the greatest id among those that pass a test. -/
def last (t : Table ρ) (test : ρ → Bool) : Option (ℕ × ρ) :=
  (t.rows.filter fun entry => test entry.2).getLast?

/-- Rewrite all rows. -/
def mapRows (t : Table ρ) (change : ρ → ρ) : Table ρ where
  nextId := t.nextId
  get id := (t.get id).map change
  fresh id hle := by
    rw [t.fresh id hle]
    rfl

theorem pick_mapRows_of_not {t : Table ρ} {test : ρ → Bool} {change : ρ → ρ}
    (hchange : ∀ row, change row = row ∨ test row = false ∧ test (change row) = false) (id : ℕ) :
    (t.mapRows change).pick test id = t.pick test id := by
  change ((t.get id).map change).filter test = (t.get id).filter test
  cases t.get id with
  | none => rfl
  | some row =>
      rcases hchange row with hsame | ⟨hrow, hnew⟩
      · rw [Option.map_some, hsame]
      · simp [Option.filter, hrow, hnew]

theorem mem_rows {t : Table ρ} {id : ℕ} {row : ρ} : (id, row) ∈ t.rows ↔ t.get id = some row := by
  rw [rows, List.mem_filterMap]
  constructor
  · rintro ⟨other, -, hget⟩
    obtain ⟨found, hfound, heq⟩ := Option.map_eq_some_iff.mp hget
    cases heq
    exact hfound
  · intro hget
    exact ⟨id, List.mem_range.mpr (lt_nextId hget), by rw [hget]; rfl⟩

theorem rows_pairwise (t : Table ρ) : t.rows.Pairwise fun first second => first.1 < second.1 := by
  refine List.Pairwise.filterMap _ ?_ (List.pairwise_lt_range (n := t.nextId))
  rintro id other hlt entry hentry entry' hentry'
  obtain ⟨row, -, rfl⟩ := Option.map_eq_some_iff.mp hentry
  obtain ⟨row', -, rfl⟩ := Option.map_eq_some_iff.mp hentry'
  exact hlt

theorem rows_nodup (t : Table ρ) : (t.rows.map Prod.fst).Nodup :=
  List.pairwise_map.mpr (t.rows_pairwise.imp fun hlt => hlt.ne)

@[simp] theorem rows_empty : (empty : Table ρ).rows = [] := rfl

theorem rows_create (t : Table ρ) (row : ρ) : (t.create row).rows = t.rows ++ [(t.nextId, row)] := by
  have hold : (List.range t.nextId).filterMap (fun id => ((t.create row).get id).map (Prod.mk id)) =
      t.rows := by
    refine List.filterMap_congr fun id hid => ?_
    rw [get_create, if_neg (List.mem_range.mp hid).ne]
  rw [rows, nextId_create, List.range_succ, List.filterMap_append, hold]
  simp

theorem rows_destroy (t : Table ρ) (id : ℕ) :
    (t.destroy id).rows = t.rows.filter fun entry => entry.1 ≠ id := by
  rw [rows, rows, List.filter_filterMap]
  refine List.filterMap_congr fun other _ => ?_
  rw [get_destroy]
  cases t.get other with
  | none => split <;> rfl
  | some row => by_cases heq : other = id <;> simp [heq, Option.filter]

theorem rows_destroy_sublist (t : Table ρ) (id : ℕ) : (t.destroy id).rows.Sublist t.rows := by
  rw [rows_destroy]
  exact List.filter_sublist

theorem rows_perm_destroy {t : Table ρ} {id : ℕ} {row : ρ} (hget : t.get id = some row) :
    t.rows.Perm ((id, row) :: (t.destroy id).rows) := by
  classical
  have hfilter : t.rows.erase (id, row) = (t.destroy id).rows := by
    rw [(List.Nodup.of_map Prod.fst t.rows_nodup).erase_eq_filter, rows_destroy]
    refine List.filter_congr fun entry hentry => ?_
    have hrow : entry.1 = id → entry = (id, row) := by
      rintro rfl
      rw [mem_rows.mp hentry, Option.some.injEq] at hget
      rw [← hget]
    by_cases heq : entry = (id, row)
    · simp [heq]
    · simp [heq, mt hrow heq]
  rw [← hfilter]
  exact List.perm_cons_erase (mem_rows.mpr hget)

theorem last_eq_some {t : Table ρ} {test : ρ → Bool} {id : ℕ} {row : ρ}
    (hlast : t.last test = some (id, row)) : t.get id = some row ∧ test row = true := by
  have hmem := List.mem_filter.mp (List.mem_of_getLast? hlast)
  exact ⟨mem_rows.mp hmem.1, hmem.2⟩

/-- The last row that passes a test has the greatest id. -/
theorem le_last {t : Table ρ} {test : ρ → Bool} {id last : ℕ} {row found : ρ}
    (hlast : t.last test = some (last, found)) (hget : t.get id = some row)
    (htest : test row = true) : id ≤ last := by
  rw [Table.last, List.getLast?_eq_some_iff] at hlast
  obtain ⟨before, hrows⟩ := hlast
  have hmem : (id, row) ∈ t.rows.filter fun entry => test entry.2 :=
    List.mem_filter.mpr ⟨mem_rows.mpr hget, htest⟩
  have hincreasing := t.rows_pairwise.filter fun entry => test entry.2
  rw [hrows] at hmem hincreasing
  obtain ⟨-, -, hbefore⟩ := List.pairwise_append.mp hincreasing
  rcases List.mem_append.mp hmem with hmem | hmem
  · exact (hbefore (id, row) hmem (last, found) (List.mem_singleton_self _)).le
  · exact (congrArg Prod.fst (List.mem_singleton.mp hmem)).le

theorem last_eq_none {t : Table ρ} {test : ρ → Bool} (hlast : t.last test = none) {id : ℕ} {row : ρ}
    (hget : t.get id = some row) : test row = false := by
  rw [last, List.getLast?_eq_none_iff, List.filter_eq_nil_iff] at hlast
  exact Bool.eq_false_iff.mpr (hlast (id, row) (mem_rows.mpr hget))

theorem rows_mapRows (t : Table ρ) (change : ρ → ρ) :
    (t.mapRows change).rows = t.rows.map fun entry => (entry.1, change entry.2) := by
  rw [rows, rows, List.map_filterMap]
  refine List.filterMap_congr fun id _ => ?_
  change ((t.get id).map change).map (Prod.mk id) = _
  cases t.get id <;> rfl

/-- Insert rows one after the other. -/
def createAll (t : Table ρ) (rows : List ρ) : Table ρ := rows.foldl create t

/-- The rows that pass a test, without their ids. -/
def having (t : Table ρ) (test : ρ → Bool) : List ρ := (t.rows.map Prod.snd).filter test

@[simp] theorem having_empty (test : ρ → Bool) : (empty : Table ρ).having test = [] := rfl

@[simp] theorem nextId_createAll (t : Table ρ) (rows : List ρ) :
    (t.createAll rows).nextId = t.nextId + rows.length := by
  induction rows generalizing t with
  | nil => rfl
  | cons row rows ih =>
      rw [createAll, List.foldl_cons, ← createAll, ih, nextId_create, List.length_cons]
      omega

theorem mem_having {t : Table ρ} {test : ρ → Bool} {row : ρ} :
    row ∈ t.having test ↔ test row = true ∧ ∃ id, t.get id = some row := by
  rw [having, List.mem_filter, List.mem_map]
  constructor
  · rintro ⟨⟨entry, hentry, rfl⟩, htest⟩
    exact ⟨htest, entry.1, mem_rows.mp hentry⟩
  · rintro ⟨htest, id, hget⟩
    exact ⟨⟨(id, row), mem_rows.mpr hget, rfl⟩, htest⟩

theorem having_create (t : Table ρ) (row : ρ) (test : ρ → Bool) :
    (t.create row).having test = t.having test ++ [row].filter test := by
  rw [having, rows_create, List.map_append, List.filter_append]
  rfl

theorem having_createAll (t : Table ρ) (rows : List ρ) (test : ρ → Bool) :
    (t.createAll rows).having test = t.having test ++ rows.filter test := by
  induction rows generalizing t with
  | nil => exact (List.append_nil _).symm
  | cons row rows ih =>
      rw [createAll, List.foldl_cons, ← createAll, ih, having_create, List.append_assoc,
        ← List.filter_append]
      rfl

/-- Rows that differ in a column whenever they pass a test are told apart by it. -/
theorem eq_of_nodup_having {κ : Type*} {t : Table ρ} {test : ρ → Bool} {column : ρ → κ}
    (hnodup : ((t.having test).map column).Nodup) {id other : ℕ} {row found : ρ}
    (hget : t.get id = some row) (htest : test row = true) (hother : t.get other = some found)
    (hfound : test found = true) (hsame : column row = column found) : id = other := by
  have hrows : (t.having test).map column =
      (t.rows.filter fun entry => test entry.2).map fun entry => column entry.2 := by
    rw [having, List.filter_map, List.map_map]
    rfl
  rw [hrows] at hnodup
  have hentry := List.inj_on_of_nodup_map hnodup
    (List.mem_filter.mpr ⟨mem_rows.mpr hget, htest⟩)
    (List.mem_filter.mpr ⟨mem_rows.mpr hother, hfound⟩) hsame
  exact congrArg Prod.fst hentry

/-! ## Properties of all rows -/

/-- Every row has the property. -/
def All (property : ρ → Prop) (t : Table ρ) : Prop :=
  ∀ id row, t.get id = some row → property row

section All

variable {property : ρ → Prop} {t : Table ρ}

theorem all_empty (property : ρ → Prop) : (empty : Table ρ).All property :=
  fun _ _ hget => absurd hget (Option.some_ne_none _).symm

theorem All.create (hall : t.All property) {row : ρ} (hrow : property row) :
    (t.create row).All property := by
  intro id found hget
  rw [get_create] at hget
  split at hget
  · cases hget
    exact hrow
  · exact hall id found hget

theorem All.createAll (hall : t.All property) {rows : List ρ} (hrows : ∀ row ∈ rows, property row) :
    (t.createAll rows).All property := by
  induction rows generalizing t with
  | nil => exact hall
  | cons row rows ih =>
      exact ih (hall.create (hrows row List.mem_cons_self))
        fun other hother => hrows other (List.mem_cons_of_mem row hother)

theorem All.modify (hall : t.All property) {id : ℕ} {change : ρ → ρ}
    (hchange : ∀ row, t.get id = some row → property (change row)) :
    (t.modify id change).All property := by
  intro other found hget
  rw [get_modify] at hget
  split at hget
  · rename_i heq
    obtain ⟨row, hrow, rfl⟩ := Option.map_eq_some_iff.mp hget
    exact hchange row (heq ▸ hrow)
  · exact hall other found hget

theorem All.destroy (hall : t.All property) (id : ℕ) : (t.destroy id).All property := by
  intro other found hget
  rw [get_destroy] at hget
  split at hget
  · cases hget
  · exact hall other found hget

end All

/-! ## Totals -/

section Total

variable {μ : Type*} [AddCommGroup μ]

/-- The sum of a quantity over all rows. -/
def total (t : Table ρ) (amount : ρ → μ) : μ :=
  ∑ id ∈ Finset.range t.nextId, ((t.get id).map amount).getD 0

@[simp] theorem total_empty (amount : ρ → μ) : (empty : Table ρ).total amount = 0 := by
  simp [total, empty]

@[simp] theorem total_create (t : Table ρ) (row : ρ) (amount : ρ → μ) :
    (t.create row).total amount = t.total amount + amount row := by
  rw [total, nextId_create, Finset.sum_range_succ, get_create_self]
  congr 1
  refine Finset.sum_congr rfl fun id hid => ?_
  rw [get_create, if_neg (Finset.mem_range.mp hid).ne]

theorem total_skip (t : Table ρ) (amount : ρ → μ) : t.skip.total amount = t.total amount := by
  rw [total, nextId_skip, Finset.sum_range_succ, get_skip, t.fresh t.nextId le_rfl, Option.map_none, Option.getD_none,
    add_zero]
  rfl

/-- Two tables that differ in one row have totals that differ by that row. -/
theorem total_of_differ {s t : Table ρ} {id : ℕ} (amount : ρ → μ) (hnext : s.nextId = t.nextId)
    (hid : id < t.nextId) (hother : ∀ other, other ≠ id → s.get other = t.get other) :
    s.total amount =
      t.total amount - ((t.get id).map amount).getD 0 + ((s.get id).map amount).getD 0 := by
  have hmem : id ∈ Finset.range t.nextId := Finset.mem_range.mpr hid
  rw [total, total, hnext, ← Finset.add_sum_erase _ _ hmem, ← Finset.add_sum_erase _ _ hmem,
    Finset.sum_congr rfl fun other hmem => by rw [hother other (Finset.ne_of_mem_erase hmem)]]
  abel

theorem total_modify {t : Table ρ} {id : ℕ} {row : ρ} (change : ρ → ρ) (amount : ρ → μ)
    (hget : t.get id = some row) :
    (t.modify id change).total amount = t.total amount - amount row + amount (change row) := by
  have hdiffer : (t.modify id change).total amount = _ :=
    total_of_differ amount (nextId_modify t id change) (lt_nextId hget)
      fun other hne => get_modify_of_ne t change hne
  rwa [get_modify_self change hget, hget] at hdiffer

theorem total_destroy {t : Table ρ} {id : ℕ} {row : ρ} (amount : ρ → μ)
    (hget : t.get id = some row) :
    (t.destroy id).total amount = t.total amount - amount row := by
  have hdiffer : (t.destroy id).total amount = _ :=
    total_of_differ amount (nextId_destroy t id) (lt_nextId hget)
      fun other hne => get_destroy_of_ne t hne
  rw [get_destroy_self, hget] at hdiffer
  simpa using hdiffer

/-- A change that keeps the quantity of the row keeps the total. -/
theorem total_modify_of_eq (t : Table ρ) (id : ℕ) (change : ρ → ρ) (amount : ρ → μ)
    (hkeep : ∀ row, t.get id = some row → amount (change row) = amount row) :
    (t.modify id change).total amount = t.total amount := by
  cases hget : t.get id with
  | none => rw [modify_of_none change hget]
  | some row => rw [total_modify change amount hget, hkeep row hget, sub_add_cancel]

end Total

end Table

end Mmog.Ruby
