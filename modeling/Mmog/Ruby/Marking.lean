import Mmog.Ruby.Run
import Mmog.Ruby.Table

/-!
# Marks on rows

Rows that are changed where they are, and marks that steps set on them.  A mark
is there after a run exactly if it was there before or some step set it.
-/

namespace Mmog.Ruby

namespace Table

variable {ρ : Type*}

/-- Rewrite every row by its id. -/
def mapEach (t : Table ρ) (change : ℕ → ρ → ρ) : Table ρ where
  nextId := t.nextId
  get id := (t.get id).map (change id)
  fresh id hle := by
    rw [t.fresh id hle]
    rfl

@[simp] theorem nextId_mapEach (t : Table ρ) (change : ℕ → ρ → ρ) : (t.mapEach change).nextId = t.nextId := rfl

theorem get_mapEach (t : Table ρ) (change : ℕ → ρ → ρ) (id : ℕ) :
    (t.mapEach change).get id = (t.get id).map (change id) := rfl

theorem mapEach_congr {t : Table ρ} {change other : ℕ → ρ → ρ}
    (hsame : ∀ id row, t.get id = some row → change id row = other id row) : t.mapEach change = t.mapEach other := by
  refine ext rfl fun id => ?_
  rw [get_mapEach, get_mapEach]
  cases hget : t.get id with
  | none => rfl
  | some row => rw [Option.map_some, Option.map_some, hsame id row hget]

/-- A change that leaves every row as it is changes nothing. -/
theorem mapEach_of_same {t : Table ρ} {change : ℕ → ρ → ρ}
    (hsame : ∀ id row, t.get id = some row → change id row = row) : t.mapEach change = t := by
  refine ext rfl fun id => ?_
  rw [get_mapEach]
  cases hget : t.get id with
  | none => rfl
  | some row => rw [Option.map_some, hsame id row hget]

theorem modify_eq_mapEach (t : Table ρ) (id : ℕ) (change : ρ → ρ) :
    t.modify id change = t.mapEach fun other row => if other = id then change row else row := by
  refine ext rfl fun other => ?_
  rw [get_modify, get_mapEach]
  by_cases heq : other = id
  · simp only [if_pos heq]
  · simp only [if_neg heq, Option.map_id']

/-- Rewriting some rows one after the other. -/
theorem foldl_modify {ids : List ℕ} (hnodup : ids.Nodup) (t : Table ρ) (change : ρ → ρ) :
    ids.foldl (fun t id => t.modify id change) t =
      t.mapEach fun id row => if id ∈ ids then change row else row := by
  induction ids generalizing t with
  | nil => exact (mapEach_of_same fun id row _ => if_neg List.not_mem_nil).symm
  | cons id ids ih =>
      obtain ⟨hnot, hnodup⟩ := List.nodup_cons.mp hnodup
      rw [List.foldl_cons, ih hnodup]
      refine ext rfl fun other => ?_
      rw [get_mapEach, get_mapEach, get_modify]
      by_cases heq : other = id
      · subst heq
        rw [if_pos rfl, Option.map_map]
        refine congrArg₂ Option.map (funext fun row => ?_) rfl
        rw [Function.comp_apply, if_neg hnot, if_pos List.mem_cons_self]
      · rw [if_neg heq]
        refine congrArg₂ Option.map (funext fun row => ?_) rfl
        simp only [List.mem_cons, heq, false_or]

theorem get_createAll_of_some {t : Table ρ} {id : ℕ} {row : ρ} (rows : List ρ) (hget : t.get id = some row) :
    (t.createAll rows).get id = some row := by
  induction rows generalizing t with
  | nil => exact hget
  | cons new rows ih => exact ih (get_create_of_some new hget)

/-- A row after an insertion is an old one or one of the new ones, at its place. -/
theorem get_createAll_eq_some {t : Table ρ} {id : ℕ} {row : ρ} {rows : List ρ} :
    (t.createAll rows).get id = some row ↔
      t.get id = some row ∨ ∃ place, rows[place]? = some row ∧ id = t.nextId + place := by
  induction rows generalizing t with
  | nil => simp [createAll]
  | cons new rows ih =>
      rw [createAll, List.foldl_cons, ← createAll, ih, nextId_create]
      constructor
      · rintro (hget | ⟨place, hplace, rfl⟩)
        · rw [get_create] at hget
          split at hget
          · rename_i heq
            exact .inr ⟨0, hget, heq⟩
          · exact .inl hget
        · exact .inr ⟨place + 1, hplace, by omega⟩
      · rintro (hget | ⟨place, hplace, rfl⟩)
        · exact .inl (get_create_of_some new hget)
        · cases place with
          | zero => exact .inl ((get_create_self t new).trans hplace)
          | succ place => exact .inr ⟨place, hplace, by omega⟩

end Table

/-- Some event of the run hits in the state in which it happens. -/
def During {σ ε : Type*} (step : σ → ε → Option σ) (hits : σ → ε → Prop) (state : σ) (events : List ε) : Prop :=
  ∃ past event future mid, events = past ++ event :: future ∧ run step state past = some mid ∧ hits mid event

theorem During.congr {σ ε : Type*} {step : σ → ε → Option σ} {hits other : σ → ε → Prop} {state : σ} {events : List ε}
    (hsame : ∀ past event future mid, events = past ++ event :: future → run step state past = some mid →
      (hits mid event ↔ other mid event)) : During step hits state events ↔ During step other state events :=
  exists_congr fun past => exists_congr fun event => exists_congr fun future => exists_congr fun mid =>
    and_congr_right fun hsplit => and_congr_right fun hmid => hsame past event future mid hsplit hmid

/-- A mark that every step leaves, and sets exactly if it hits, is there after a run exactly if it was there at
the start or a step of the run hit. -/
theorem run_marked {σ ε : Type*} {step : σ → ε → Option σ} {Inv : σ → Prop} {marked : σ → Prop} {hits : σ → ε → Prop}
    (hstep : ∀ state event next, Inv state → step state event = some next →
      Inv next ∧ (marked next ↔ marked state ∨ hits state event))
    {state final : σ} {events : List ε} (hinv : Inv state) (hrun : run step state events = some final) :
    marked final ↔ marked state ∨ During step hits state events := by
  induction events generalizing state with
  | nil =>
      cases hrun
      refine (or_iff_left ?_).symm
      rintro ⟨past, event, future, -, hsplit, -⟩
      exact List.append_ne_nil_of_right_ne_nil past (List.cons_ne_nil event future) hsplit.symm
  | cons event events ih =>
      obtain ⟨next, hnext, hrest⟩ := run_cons hrun
      obtain ⟨hinv', hmarked⟩ := hstep state event next hinv hnext
      rw [ih hinv' hrest, hmarked, or_assoc]
      refine or_congr_right ⟨?_, ?_⟩
      · rintro (hhit | ⟨past, other, future, mid, rfl, hmid, hhit⟩)
        · exact ⟨[], event, events, state, rfl, rfl, hhit⟩
        · exact ⟨event :: past, other, future, mid, rfl, by rw [run, hnext]; exact hmid, hhit⟩
      · rintro ⟨past, other, future, mid, hsplit, hmid, hhit⟩
        cases past with
        | nil =>
            obtain ⟨rfl, -⟩ := List.cons_eq_cons.mp hsplit
            cases hmid
            exact .inl hhit
        | cons first past =>
            obtain ⟨rfl, htail⟩ := List.cons_eq_cons.mp hsplit
            obtain ⟨after, hafter, hlater⟩ := run_cons hmid
            obtain rfl := Option.some.inj (hnext.symm.trans hafter)
            exact .inr ⟨past, other, future, mid, htail, hlater, hhit⟩

end Mmog.Ruby
