import Mmog.Ruby.Table

/-!
# Ledgers of rows

A log of what was done with the rows of a table when they went.  It is in order
if every row that is gone was dealt with once, and no row that is left was.
-/

namespace Mmog.Ruby

variable {ρ α : Type*}

/-- What the log says was done with the row of this id. -/
def doneWith (log : List (Option ℕ × α)) (id : ℕ) : List α :=
  (log.filter fun record => record.1 = some id).map Prod.snd

@[simp] theorem doneWith_nil (id : ℕ) : doneWith ([] : List (Option ℕ × α)) id = [] := rfl

theorem doneWith_append_self (log : List (Option ℕ × α)) (id : ℕ) (deed : α) :
    doneWith (log ++ [(some id, deed)]) id = doneWith log id ++ [deed] := by
  simp [doneWith]

theorem doneWith_append_of_ne (log : List (Option ℕ × α)) {id other : ℕ} (deed : α)
    (hne : other ≠ id) : doneWith (log ++ [(some id, deed)]) other = doneWith log other := by
  simp [doneWith, Ne.symm hne]

/-- The rows created from the id `first` on are each dealt with once, when they go. -/
structure OnceEach (first : ℕ) (log : List (Option ℕ × α)) (t : Table ρ) : Prop where
  live : ∀ id row, t.get id = some row → doneWith log id = []
  gone : ∀ id, first ≤ id → id < t.nextId → t.get id = none → ∃ deed, doneWith log id = [deed]
  unborn : ∀ id, t.nextId ≤ id → doneWith log id = []
  known : ∀ record ∈ log, record.1 ≠ none

namespace OnceEach

variable {first : ℕ} {log : List (Option ℕ × α)} {t : Table ρ}

theorem nil (t : Table ρ) : OnceEach t.nextId ([] : List (Option ℕ × α)) t where
  live _ _ _ := rfl
  gone _ hfirst hnext _ := absurd hnext (Nat.not_lt.mpr hfirst)
  unborn _ _ := rfl
  known _ hrecord := absurd hrecord List.not_mem_nil

theorem create (hledger : OnceEach first log t) (row : ρ) : OnceEach first log (t.create row) where
  live id found hget := by
    rw [Table.get_create] at hget
    split at hget
    · rename_i heq
      exact hledger.unborn id heq.ge
    · exact hledger.live id found hget
  gone id hfirst hnext hget := by
    rw [Table.get_create] at hget
    split at hget
    · cases hget
    · rename_i hne
      rw [Table.nextId_create] at hnext
      exact hledger.gone id hfirst (by omega) hget
  unborn id hnext := hledger.unborn id (by rw [Table.nextId_create] at hnext; omega)
  known := hledger.known

theorem mapRows (hledger : OnceEach first log t) (change : ρ → ρ) :
    OnceEach first log (t.mapRows change) where
  live id found hget := by
    obtain ⟨row, hrow, -⟩ := Option.map_eq_some_iff.mp hget
    exact hledger.live id row hrow
  gone id hfirst hnext hget := hledger.gone id hfirst hnext (Option.map_eq_none_iff.mp hget)
  unborn := hledger.unborn
  known := hledger.known

/-- A row that is left may go with one record. -/
theorem destroy (hledger : OnceEach first log t) {id : ℕ} {row : ρ} (hget : t.get id = some row)
    (deed : α) : OnceEach first (log ++ [(some id, deed)]) (t.destroy id) where
  live other found hother := by
    have hne : other ≠ id := by
      rintro rfl
      rw [Table.get_destroy_self] at hother
      cases hother
    rw [Table.get_destroy_of_ne t hne] at hother
    rw [doneWith_append_of_ne log deed hne]
    exact hledger.live other found hother
  gone other hfirst hnext hother := by
    by_cases heq : other = id
    · subst heq
      exact ⟨deed, by rw [doneWith_append_self, hledger.live other row hget, List.nil_append]⟩
    · rw [Table.get_destroy_of_ne t heq] at hother
      rw [doneWith_append_of_ne log deed heq]
      exact hledger.gone other hfirst hnext hother
  unborn other hnext := by
    have hne : other ≠ id := ((Table.lt_nextId hget).trans_le hnext).ne'
    rw [doneWith_append_of_ne log deed hne]
    exact hledger.unborn other hnext
  known record hrecord := by
    rcases List.mem_append.mp hrecord with hold | hnew
    · exact hledger.known record hold
    · rw [List.mem_singleton.mp hnew]
      exact Option.some_ne_none id

end OnceEach

end Mmog.Ruby
