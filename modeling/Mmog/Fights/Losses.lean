import Mmog.Model.Fight
import Mmog.Model.Seeds
import Mmog.Ruby.Drawing

/-!
# The losses of a fight

Ships are drawn from the pools of the fleets until the strength is down to its
target.  That ends well whatever is drawn exactly if it does for whoever draws
from one fleet only, or one ship type of one fleet only.
-/

namespace Mmog.Fight

open Ruby

variable {strength : ShipId → ℤ} {shipamount ships : Hash ShipId ℤ} {target : Numeric}

/-! ## Pools -/

/-- What ships are worth together. -/
def worth (strength : ShipId → ℤ) (ships : List ShipId) : ℤ := (ships.map strength).sum

theorem worth_cons (ship : ShipId) (ships : List ShipId) :
    worth strength (ship :: ships) = strength ship + worth strength ships := rfl

theorem worth_append (first second : List ShipId) :
    worth strength (first ++ second) = worth strength first + worth strength second := by
  rw [worth, List.map_append, List.sum_append]
  rfl

theorem worth_perm {first second : List ShipId} (hperm : first.Perm second) :
    worth strength first = worth strength second :=
  (hperm.map strength).sum_eq

section Worth

variable (hstrength : ∀ ship, 0 ≤ strength ship)

include hstrength

theorem worth_nonneg (ships : List ShipId) : 0 ≤ worth strength ships := by
  refine List.sum_nonneg fun value hvalue => ?_
  obtain ⟨ship, -, rfl⟩ := List.mem_map.mp hvalue
  exact hstrength ship

/-- The ships of one type are worth no more than all of them. -/
theorem count_mul_le_worth (ship : ShipId) (ships : List ShipId) :
    ships.count ship * strength ship ≤ worth strength ships := by
  induction ships with
  | nil => simp [worth]
  | cons first rest ih =>
      have hfirst := hstrength first
      rw [worth_cons, List.count_cons]
      split
      · rename_i heq
        rw [beq_iff_eq.mp heq]
        push_cast
        linarith
      · push_cast
        linarith

end Worth

theorem worth_replicate (ship : ShipId) (n : ℕ) : worth strength (List.replicate n ship) = n * strength ship := by
  rw [worth, List.map_replicate, List.sum_replicate, nsmul_eq_mul]

/-- A pool starts with as many ships of a type as the fleet has. -/
theorem count_allships (ships : Hash ShipId ℤ) (ship : ShipId) :
    (Pool.of ships).allships.count ship = (ships.getD ship 0).toNat := by
  have hentries : ∀ entries : List (ShipId × ℤ), (entries.map Prod.fst).Nodup →
      (entries.flatMap fun entry => List.replicate entry.2.toNat entry.1).count ship =
        (((entries.find? fun entry => entry.1 = ship).map Prod.snd).getD 0).toNat := by
    intro entries
    induction entries with
    | nil => exact fun _ => rfl
    | cons entry rest ih =>
        intro hnodup
        obtain ⟨hnew, hrest⟩ := List.nodup_cons.mp hnodup
        rw [List.flatMap_cons, List.count_append, ih hrest, List.count_replicate]
        by_cases heq : entry.1 = ship
        · have hnone : rest.find? (fun other => other.1 = ship) = none := by
            apply List.find?_eq_none.mpr
            intro other hother
            rw [decide_eq_true_eq, ← heq]
            exact fun hsame => hnew (hsame ▸ List.mem_map_of_mem (f := Prod.fst) hother)
          simp [heq, hnone]
        · simp [heq]
  exact hentries ships.entries ships.nodup

theorem worth_allships (ships : Hash ShipId ℤ) (hamounts : ∀ entry ∈ ships.entries, 0 ≤ entry.2) :
    worth strength (Pool.of ships).allships = ships.sum fun ship amount => strength ship * amount := by
  have hentries : ∀ entries : List (ShipId × ℤ), (∀ entry ∈ entries, 0 ≤ entry.2) →
      worth strength (entries.flatMap fun entry => List.replicate entry.2.toNat entry.1) =
        (entries.map fun entry => strength entry.1 * entry.2).sum := by
    intro entries
    induction entries with
    | nil => exact fun _ => rfl
    | cons entry rest ih =>
        intro hall
        have hentry := hall entry List.mem_cons_self
        rw [List.flatMap_cons, worth_append, worth_replicate, Int.toNat_of_nonneg hentry,
          ih fun other hother => hall other (List.mem_cons_of_mem entry hother), List.map_cons, List.sum_cons,
          mul_comm]
  exact hentries ships.entries hamounts

/-- The ships of the fleet are those still in the pool and those that are gone. -/
structure Pool.Without (ships : Hash ShipId ℤ) (gone : List ShipId) (pool : Pool) : Prop where
  perm : (Pool.of ships).allships.Perm (pool.allships ++ gone)
  lost : ∀ ship, pool.lost.getD ship 0 = gone.count ship

/-- The pool after the ship at this index was drawn. -/
def Pool.drop (pool : Pool) (index : ℕ) (ship : ShipId) : Pool where
  allships := pool.allships.eraseIdx index
  lost := pool.lost.insert ship (pool.lost.getD ship 0 + 1)

namespace Pool

variable {gone : List ShipId} {pool : Pool} {index : ℕ} {ship : ShipId}

theorem without_of (ships : Hash ShipId ℤ) : Without ships [] (Pool.of ships) := by
  constructor
  · rw [List.append_nil]
  · intro ship
    rw [Hash.getD, Pool.of, Hash.get?_tabulate]
    split <;> rfl

theorem Without.drop (hpool : Without ships gone pool) (hget : pool.allships[index]? = some ship) :
    Without ships (ship :: gone) (pool.drop index ship) := by
  constructor
  · obtain ⟨hlt, rfl⟩ := List.getElem?_eq_some_iff.mp hget
    have herase := (List.getElem_cons_eraseIdx_perm hlt).symm
    exact hpool.perm.trans ((herase.append_right gone).trans List.perm_middle.symm)
  · intro other
    rw [Hash.getD, Pool.drop, Hash.get?_insert]
    by_cases heq : other = ship
    · rw [if_pos heq, heq, Option.getD_some, hpool.lost, List.count_cons_self]
      push_cast
      rfl
    · rw [if_neg heq, List.count_cons_of_ne (Ne.symm heq)]
      exact hpool.lost other

/-- No more ships are lost than there were. -/
theorem Without.lost_le (hpool : Without ships gone pool) (ship : ShipId) :
    pool.lost.getD ship 0 ≤ (ships.getD ship 0).toNat := by
  rw [hpool.lost, ← count_allships, hpool.perm.count_eq, List.count_append]
  exact_mod_cast Nat.le_add_left _ _

/-- A ship that is still in the pool is one more than those that are gone. -/
theorem Without.lt_amount (hpool : Without ships gone pool) (hmem : ship ∈ pool.allships) :
    (gone.count ship : ℤ) < ships.getD ship 0 := by
  have hcount : gone.count ship < (ships.getD ship 0).toNat := by
    have hpos := List.count_pos_iff.mpr hmem
    rw [← count_allships, hpool.perm.count_eq, List.count_append]
    omega
  omega

theorem Without.worth_le (hpool : Without ships gone pool) (hstrength : ∀ ship, 0 ≤ strength ship) :
    worth strength gone ≤ worth strength (Pool.of ships).allships := by
  have hleft := worth_nonneg hstrength pool.allships
  rw [worth_perm hpool.perm, worth_append]
  omega

end Pool

/-! ## Rounds -/

section Round

variable {pools pools' : List Pool} {pool : Pool} {pick : ℕ × ℕ} {left left' : ℤ} {ship : ShipId}

theorem round_of_draw (hpool : pools[pick.1 % pools.length]? = some pool)
    (hship : pool.allships[pick.2 % pool.allships.length]? = some ship) :
    round strength shipamount pick left pools = match shipamount.get? ship with
      | none => .error .noMethodError
      | some amount =>
          if amount - pool.lost.getD ship 0 ≤ 0 then .ok (left, pools)
          else .ok (left - strength ship,
            pools.set (pick.1 % pools.length) (pool.drop (pick.2 % pool.allships.length) ship)) := by
  unfold round
  dsimp only
  rw [hpool]
  dsimp only
  rw [hship]
  rfl

/-- A round draws from one of the pools, and nothing or one ship is gone. -/
theorem round_ok (hround : round strength shipamount pick left pools = .ok (left', pools')) :
    ∃ pool, pools[pick.1 % pools.length]? = some pool ∧ ((left' = left ∧ pools' = pools) ∨
      ∃ ship, pool.allships[pick.2 % pool.allships.length]? = some ship ∧
        (∃ amount, shipamount.get? ship = some amount ∧ pool.lost.getD ship 0 < amount) ∧
        left' = left - strength ship ∧
        pools' = pools.set (pick.1 % pools.length) (pool.drop (pick.2 % pool.allships.length) ship)) := by
  cases hpool : pools[pick.1 % pools.length]? with
  | none =>
      unfold round at hround
      dsimp only at hround
      rw [hpool] at hround
      cases hround
  | some pool =>
      refine ⟨pool, rfl, ?_⟩
      cases hship : pool.allships[pick.2 % pool.allships.length]? with
      | none =>
          unfold round at hround
          dsimp only at hround
          rw [hpool] at hround
          dsimp only at hround
          rw [hship] at hround
          cases hround
      | some ship =>
          rw [round_of_draw hpool hship] at hround
          cases hamount : shipamount.get? ship with
          | none =>
              rw [hamount] at hround
              cases hround
          | some amount =>
              rw [hamount] at hround
              dsimp only at hround
              split at hround
              · cases hround
                exact .inl ⟨rfl, rfl⟩
              · rename_i hmore
                cases hround
                exact .inr ⟨ship, rfl, ⟨amount, hamount, by omega⟩, rfl, rfl⟩

end Round

/-- How many ships the pools have. -/
def size (pools : List Pool) : ℕ := (pools.map fun pool => pool.allships.length).sum

theorem size_set {pools : List Pool} {i : ℕ} {pool new : Pool} (hget : pools[i]? = some pool)
    (hless : new.allships.length < pool.allships.length) : size (pools.set i new) < size pools := by
  induction pools generalizing i with
  | nil => cases hget
  | cons first rest ih =>
      cases i with
      | zero =>
          obtain rfl := Option.some.inj hget
          exact Nat.add_lt_add_right hless _
      | succ i => exact Nat.add_lt_add_left (ih hget) _

theorem Pool.length_drop_lt {pool : Pool} {index : ℕ} {ship : ShipId} (hget : pool.allships[index]? = some ship) :
    (pool.drop index ship).allships.length < pool.allships.length := by
  obtain ⟨hlt, -⟩ := List.getElem?_eq_some_iff.mp hget
  have herase := List.length_eraseIdx_of_lt hlt
  rw [Pool.drop, herase]
  omega

/-- Something is drawn from every pool that is not empty. -/
theorem exists_draw {l : List ShipId} (hne : l ≠ []) (n : ℕ) : ∃ ship, l[n % l.length]? = some ship :=
  ⟨_, List.getElem?_eq_getElem (Nat.mod_lt n (List.length_pos_iff.mpr hne))⟩

theorem lt_of_lt_of_le' {left more : ℤ} (hlt : target < (left : Numeric)) (hle : left ≤ more) :
    target < (more : Numeric) := by
  rw [Numeric.lt_iff, Numeric.value_int] at *
  exact hlt.trans_le (by exact_mod_cast hle)

/-! ## Runs -/

/-- What the rounds keep: of every fleet some ships are gone, and the strength is down by theirs at
least. -/
structure Losing (strength : ShipId → ℤ) (fleets : List (Hash ShipId ℤ)) (start : ℤ) (state : ℤ × List Pool) :
    Prop where
  length : state.2.length = fleets.length
  pools : ∀ (i : ℕ) ships pool, fleets[i]? = some ships → state.2[i]? = some pool →
    ∃ gone, pool.Without ships gone ∧ state.1 ≤ start - worth strength gone

/-- The loop of a fight on one draw. -/
def loop (strength : ShipId → ℤ) (shipamount : Hash ShipId ℤ) (pick : ℕ × ℕ) (state : ℤ × List Pool) :
    Except Err (ℤ × List Pool) :=
  round strength shipamount pick state.1 state.2

/-- The condition of the loop. -/
def Goes (target : Numeric) (state : ℤ × List Pool) : Prop := target < (state.1 : Numeric)

section Run

variable {fleets : List (Hash ShipId ℤ)} {start : ℤ}

theorem losing_start (strength : ShipId → ℤ) (fleets : List (Hash ShipId ℤ)) (start : ℤ) :
    Losing strength fleets start (start, fleets.map Pool.of) := by
  constructor
  · exact List.length_map Pool.of
  · intro i ships pool hships hpool
    rw [List.getElem?_map, hships] at hpool
    obtain rfl := Option.some.inj hpool
    exact ⟨[], Pool.without_of ships, (sub_zero start).ge⟩

variable (hstrength : ∀ ship, 0 ≤ strength ship)

include hstrength

theorem Losing.step {state next : ℤ × List Pool} {pick : ℕ × ℕ} (hinv : Losing strength fleets start state)
    (hround : loop strength shipamount pick state = .ok next) : Losing strength fleets start next := by
  obtain ⟨pool, hpool, ⟨hleft, hpools⟩ | ⟨ship, hship, -, hleft, hpools⟩⟩ := round_ok hround
  · rwa [show next = state from Prod.ext hleft hpools]
  · constructor
    · rw [hpools, List.length_set]
      exact hinv.length
    · intro i ships found hships hfound
      have hworth := hstrength ship
      rw [hleft]
      rw [hpools, List.getElem?_set] at hfound
      split at hfound
      · rename_i heq
        split at hfound
        · obtain rfl := Option.some.inj hfound
          rw [heq] at hpool
          obtain ⟨gone, hgone, hle⟩ := hinv.pools i ships pool hships hpool
          exact ⟨ship :: gone, hgone.drop hship, by rw [worth_cons]; omega⟩
        · cases hfound
      · obtain ⟨gone, hgone, hle⟩ := hinv.pools i ships found hships hfound
        exact ⟨gone, hgone, by omega⟩

variable (strength target shipamount start) in
/-- Whoever draws from this fleet only, or one of its ship types only, brings the strength down before
the pool is empty, or before as many of the type are gone as the table has. -/
structure Suffices (ships : Hash ShipId ℤ) : Prop where
  fleet : ((start - worth strength (Pool.of ships).allships : ℤ) : Numeric) ≤ target
  type : ∀ ship, shipamount.getD ship 0 < ships.getD ship 0 →
    ((start - shipamount.getD ship 0 * strength ship : ℤ) : Numeric) ≤ target

theorem Losing.progress {state : ℤ × List Pool} (hinv : Losing strength fleets start state) (hne : fleets ≠ [])
    (hall : ∀ ships ∈ fleets, Suffices strength shipamount target start ships) (hgoes : Goes target state)
    (pick : ℕ × ℕ) : ∃ next, loop strength shipamount pick state = .ok next ∧
      Losing strength fleets start next ∧ size next.2 < size state.2 := by
  have hlength : 0 < state.2.length := by
    rw [hinv.length]
    exact List.length_pos_iff.mpr hne
  have hlt : pick.1 % state.2.length < state.2.length := Nat.mod_lt _ hlength
  obtain ⟨pool, hpool⟩ : ∃ pool, state.2[pick.1 % state.2.length]? = some pool :=
    ⟨_, List.getElem?_eq_getElem hlt⟩
  obtain ⟨ships, hships⟩ : ∃ ships, fleets[pick.1 % state.2.length]? = some ships :=
    ⟨_, List.getElem?_eq_getElem (hlt.trans_eq hinv.length)⟩
  have hsuffices := hall ships (List.mem_of_getElem? hships)
  obtain ⟨gone, hgone, hle⟩ := hinv.pools _ ships pool hships hpool
  have hnonempty : pool.allships ≠ [] := by
    intro hempty
    have hperm := hgone.perm
    rw [hempty, List.nil_append] at hperm
    rw [← worth_perm hperm] at hle
    exact Numeric.not_lt_iff.mpr hsuffices.fleet (lt_of_lt_of_le' hgoes hle)
  obtain ⟨ship, hship⟩ := exists_draw hnonempty pick.2
  have hmem : ship ∈ pool.allships := List.mem_of_getElem? hship
  have hmore : (gone.count ship : ℤ) < shipamount.getD ship 0 := by
    by_contra hless
    have htype := hsuffices.type ship ((not_lt.mp hless).trans_lt (hgone.lt_amount hmem))
    have hcount := count_mul_le_worth hstrength ship gone
    have hmul : shipamount.getD ship 0 * strength ship ≤ gone.count ship * strength ship :=
      mul_le_mul_of_nonneg_right (not_lt.mp hless) (hstrength ship)
    exact Numeric.not_lt_iff.mpr htype (lt_of_lt_of_le' hgoes (by omega))
  cases hamount : shipamount.get? ship with
  | none =>
      rw [Hash.getD, hamount] at hmore
      exact absurd hmore (not_lt.mpr (Nat.cast_nonneg _))
  | some amount =>
      rw [Hash.getD, hamount] at hmore
      have hround : loop strength shipamount pick state = .ok (state.1 - strength ship,
          state.2.set (pick.1 % state.2.length) (pool.drop (pick.2 % pool.allships.length) ship)) := by
        refine (round_of_draw hpool hship).trans ?_
        rw [hamount]
        refine if_neg ?_
        rw [hgone.lost]
        change (gone.count ship : ℤ) < amount at hmore
        omega
      exact ⟨_, hround, hinv.step hstrength hround, size_set hpool (Pool.length_drop_lt hship)⟩

variable (strength shipamount) in
/-- Drawing from one fleet only does not end if all of it is not enough. -/
theorem exists_endless_fleet {i : ℕ} (hships : fleets[i]? = some ships)
    (hless : target < ((start - worth strength (Pool.of ships).allships : ℤ) : Numeric)) :
    ∃ draws, ∀ n final, ¬EndsAfter (Goes target) (loop strength shipamount) draws n
      (start, fleets.map Pool.of) final := by
  apply exists_endless (fun state => ∃ pool gone, state.2[i]? = some pool ∧ pool.Without ships gone ∧
    state.1 = start - worth strength gone)
  · rintro state ⟨pool, gone, -, hgone, hleft⟩
    have hworth := hgone.worth_le hstrength
    exact lt_of_lt_of_le' hless (by omega)
  · rintro state ⟨pool, gone, hpool, hgone, hleft⟩
    have hmod : i % state.2.length = i := Nat.mod_eq_of_lt (List.getElem?_eq_some_iff.mp hpool).1
    refine ⟨(i, 0), fun next hround => ?_⟩
    obtain ⟨found, hfound, ⟨hsame, hpools⟩ | ⟨ship, hship, -, hnext, hpools⟩⟩ := round_ok hround
    · exact ⟨pool, gone, by rwa [hpools], hgone, by rw [hsame, hleft]⟩
    · rw [hmod, hpool] at hfound
      obtain rfl := Option.some.inj hfound
      refine ⟨_, ship :: gone, ?_, hgone.drop hship, ?_⟩
      · rw [hpools, hmod, List.getElem?_set_self (List.getElem?_eq_some_iff.mp hpool).1]
      · rw [hnext, hleft, worth_cons]
        ring
  · exact ⟨Pool.of ships, [], by rw [List.getElem?_map, hships]; rfl, Pool.without_of ships, (sub_zero start).symm⟩

omit hstrength in
variable (strength) in
/-- Drawing one ship type of one fleet only does not end if the table has fewer of it than the fleet,
and these are not enough. -/
theorem exists_endless_type {i : ℕ} (hships : fleets[i]? = some ships) {ship : ShipId}
    (hworth : 0 ≤ strength ship) (hamount : 0 ≤ shipamount.getD ship 0)
    (hmore : shipamount.getD ship 0 < ships.getD ship 0)
    (hless : target < ((start - shipamount.getD ship 0 * strength ship : ℤ) : Numeric)) :
    ∃ draws, ∀ n final, ¬EndsAfter (Goes target) (loop strength shipamount) draws n
      (start, fleets.map Pool.of) final := by
  apply exists_endless (fun state => ∃ pool, ∃ n : ℕ, state.2[i]? = some pool ∧
    pool.Without ships (List.replicate n ship) ∧ (n : ℤ) ≤ shipamount.getD ship 0 ∧
    state.1 = start - n * strength ship)
  · rintro state ⟨pool, n, -, -, hle, hleft⟩
    have hmul := mul_le_mul_of_nonneg_right hle hworth
    exact lt_of_lt_of_le' hless (by omega)
  · rintro state ⟨pool, n, hpool, hgone, hle, hleft⟩
    have hmod : i % state.2.length = i := Nat.mod_eq_of_lt (List.getElem?_eq_some_iff.mp hpool).1
    have hmem : ship ∈ pool.allships := by
      apply List.count_pos_iff.mp
      have hcount := hgone.perm.count_eq ship
      rw [count_allships, List.count_append, List.count_replicate_self] at hcount
      omega
    obtain ⟨index, hindex⟩ := List.getElem?_of_mem hmem
    have hindexMod : index % pool.allships.length = index :=
      Nat.mod_eq_of_lt (List.getElem?_eq_some_iff.mp hindex).1
    refine ⟨(i, index), fun next hround => ?_⟩
    obtain ⟨found, hfound, ⟨hsame, hpools⟩ | ⟨drawn, hdrawn, ⟨amount, hget, hlost⟩, hnext, hpools⟩⟩ :=
      round_ok hround
    · exact ⟨pool, n, by rwa [hpools], hgone, hle, by rw [hsame, hleft]⟩
    · rw [hmod, hpool] at hfound
      obtain rfl := Option.some.inj hfound
      rw [hindexMod, hindex] at hdrawn
      obtain rfl := Option.some.inj hdrawn
      rw [hgone.lost, List.count_replicate_self] at hlost
      refine ⟨_, n + 1, ?_, (hindexMod ▸ hgone.drop hindex : Pool.Without ships (ship :: List.replicate n ship) _),
        ?_, ?_⟩
      · rw [hpools, hmod, List.getElem?_set_self (List.getElem?_eq_some_iff.mp hpool).1]
      · rw [Hash.getD, hget, Option.getD_some]
        push_cast
        omega
      · rw [hnext, hleft]
        push_cast
        ring
  · exact ⟨Pool.of ships, 0, by rw [List.getElem?_map, hships]; rfl, Pool.without_of ships, hamount, by simp⟩

variable (target start) in
/-- The loop ends well whatever is drawn exactly if it does for these two ways to draw. -/
theorem ends_iff (hne : fleets ≠ []) (hamount : ∀ ship, 0 ≤ shipamount.getD ship 0) :
    (∀ draws, ∃ n final, EndsAfter (Goes target) (loop strength shipamount) draws n
      (start, fleets.map Pool.of) final) ↔
      ∀ ships ∈ fleets, Suffices strength shipamount target start ships := by
  constructor
  · intro hends ships hmem
    obtain ⟨i, hships⟩ := List.getElem?_of_mem hmem
    constructor
    · by_contra hless
      obtain ⟨draws, hendless⟩ : ∃ draws, ∀ n final, ¬EndsAfter (Goes target) (loop strength shipamount) draws n
          (start, fleets.map Pool.of) final :=
        exists_endless_fleet strength shipamount hstrength hships (Numeric.not_le_iff.mp hless)
      obtain ⟨n, final, hdone⟩ := hends draws
      exact hendless n final hdone
    · intro ship hmore
      by_contra hless
      obtain ⟨draws, hendless⟩ := exists_endless_type strength hships (hstrength ship) (hamount ship) hmore
        (Numeric.not_le_iff.mp hless)
      obtain ⟨n, final, hdone⟩ := hends draws
      exact hendless n final hdone
  · intro hall draws
    obtain ⟨n, final, hends, -⟩ := exists_endsAfter (Losing strength fleets start)
      (fun state => size state.2) (fun pick state hinv hgoes => hinv.progress hstrength hne hall hgoes pick)
      (losing_start strength fleets start) draws
    exact ⟨n, final, hends⟩

omit hstrength in
theorem loseShips_of_endsAfter {draws : ℕ → ℕ × ℕ} {n : ℕ} {state final : ℤ × List Pool}
    (hends : EndsAfter (Goes target) (loop strength shipamount) draws n state final) :
    loseShips strength shipamount target ((List.range n).map draws) state.1 state.2 = .ok final.2 := by
  induction n generalizing draws state with
  | zero =>
      obtain ⟨hstops, rfl⟩ := hends
      exact if_neg hstops
  | succ n ih =>
      obtain ⟨hgoes, next, hnext, hrest⟩ := hends
      rw [List.range_succ_eq_map, List.map_cons, List.map_map, loseShips,
        if_pos (show target < (state.1 : Numeric) from hgoes)]
      change round strength shipamount (draws 0) state.1 state.2 = .ok next at hnext
      rw [hnext]
      exact ih hrest

end Run

/-! ## Defenders and attackers -/

/-- What ships are worth with a research factor, as `update_values` has it. -/
def raised (strength : ShipId → ℤ) (ships : Hash ShipId ℤ) (factor : Factor) : ℤ :=
  (((ships.sum fun ship amount => strength ship * amount : ℤ) : Numeric) * .float factor).toI

theorem getD_nonneg (hamounts : ∀ entry ∈ ships.entries, 0 ≤ entry.2) (ship : ShipId) :
    0 ≤ ships.getD ship 0 := by
  cases hget : ships.get? ship with
  | none =>
      rw [Hash.getD, hget]
      exact le_rfl
  | some amount =>
      rw [Hash.getD, hget]
      exact hamounts (ship, amount) (Hash.get?_eq_some_iff.mp hget)

/-- No fleet loses more ships of a type than it has. -/
theorem Losing.lost_le {fleets : List (Hash ShipId ℤ)} {start : ℤ} {final : ℤ × List Pool}
    (hinv : Losing strength fleets start final)
    (hamounts : ∀ ships ∈ fleets, ∀ entry ∈ ships.entries, 0 ≤ entry.2) :
    List.Forall₂ (fun ships lost => ∀ ship, lost.getD ship 0 ≤ ships.getD ship 0) fleets
      (final.2.map Pool.lost) := by
  apply List.forall₂_iff_get.mpr
  refine ⟨by rw [List.length_map, hinv.length], fun i hi hi' ship => ?_⟩
  rw [List.length_map] at hi'
  obtain ⟨gone, hgone, -⟩ := hinv.pools i _ _ (List.getElem?_eq_getElem hi) (List.getElem?_eq_getElem hi')
  have hle := hgone.lost_le ship
  rw [Int.toNat_of_nonneg (getD_nonneg (hamounts _ (List.getElem_mem hi)) ship)] at hle
  simpa using hle

/-- The loss loop of the defenders ends well whatever is drawn exactly if, for every fleet, its ships
alone bring the defense down to the target, and so do as many ships of a type as the last fleet has
where this is fewer than the fleet has. -/
theorem defenders_end_iff (w : World) (fleets : List (Hash ShipId ℤ)) (hne : fleets ≠ [])
    (hamounts : ∀ ships ∈ fleets, ∀ entry ∈ ships.entries, 0 ≤ entry.2) (offense defense : ℤ) (rate : ℚ) :
    let target : Numeric := ((|offense - defense| : ℤ) : Numeric) * .float rate
    let strength : ShipId → ℤ := fun ship => (w.ship ship).defense
    let table := fleets.getLast?.getD .empty
    (∀ draws : ℕ → ℕ × ℕ, ∃ n final,
      EndsAfter (Goes target) (loop strength table) draws n (defense, fleets.map Pool.of) final ∧
      defenderLosses w fleets target ((List.range n).map draws) defense = .ok (final.2.map Pool.lost) ∧
      List.Forall₂ (fun ships lost => ∀ ship, lost.getD ship 0 ≤ ships.getD ship 0) fleets
        (final.2.map Pool.lost)) ↔
    ∀ ships ∈ fleets,
      ((defense - ships.sum fun ship amount => strength ship * amount : ℤ) : Numeric) ≤ target ∧
      ∀ ship, table.getD ship 0 < ships.getD ship 0 →
        ((defense - table.getD ship 0 * strength ship : ℤ) : Numeric) ≤ target := by
  intro target strength table
  have hstrength : ∀ ship, 0 ≤ strength ship := fun ship => Nat.cast_nonneg _
  have htable : ∀ ship, 0 ≤ table.getD ship 0 := by
    apply getD_nonneg
    change ∀ entry ∈ (fleets.getLast?.getD .empty).entries, 0 ≤ entry.2
    rw [List.getLast?_eq_some_getLast hne]
    exact hamounts _ (List.getLast_mem hne)
  have hends := ends_iff target defense hstrength hne htable
  constructor
  · intro hall ships hmem
    have hsuffices := hends.mp (fun draws => (hall draws).imp fun n => Exists.imp fun final => And.left) ships hmem
    have hfleet := hsuffices.fleet
    rw [worth_allships ships (hamounts ships hmem)] at hfleet
    exact ⟨hfleet, hsuffices.type⟩
  · intro hall draws
    obtain ⟨n, final, hdone⟩ := hends.mpr (fun ships hmem =>
      ⟨by rw [worth_allships ships (hamounts ships hmem)]; exact (hall ships hmem).1, (hall ships hmem).2⟩) draws
    obtain ⟨hinv, -⟩ := hdone.keeps (fun _ _ _ hinv _ hround => hinv.step hstrength hround)
      (losing_start strength fleets defense)
    refine ⟨n, final, hdone, ?_, hinv.lost_le hamounts⟩
    rw [defenderLosses, loseShips_of_endsAfter hdone]
    rfl

/-- Two fighters may all be lost, but a fighter without one to look up in the table may not; with a small
cargo ship it has a defense of 40. -/
theorem defense_of_fighters :
    ((60 - (Hash.single 3 2).sum fun ship amount => ((Seeds.world.ship ship).defense : ℤ) * amount : ℤ) : Numeric) ≤
        ((|30 - 60| : ℤ) : Numeric) * .float 1 ∧
      ((|5 - 40| : ℤ) : Numeric) * .float 1 <
        ((40 - (Hash.single 1 1 : Hash ShipId ℤ).getD 3 0 * ((Seeds.world.ship 3).defense : ℤ) : ℤ) : Numeric) ∧
      ([((.single 3 1, ⟨1, le_rfl⟩) : Hash ShipId ℤ × Factor), (.single 1 1, ⟨1, le_rfl⟩)].map
        fun fleet => raised (fun ship => ((Seeds.world.ship ship).defense : ℤ)) fleet.1 fleet.2).sum = 40 := by
  decide +kernel

/-- Two fighters of one fleet. -/
theorem defenders_end_iff_fighters :
    let target : Numeric := ((|30 - 60| : ℤ) : Numeric) * .float 1
    let strength : ShipId → ℤ := fun ship => (Seeds.world.ship ship).defense
    let table : Hash ShipId ℤ := .single 3 2
    ∀ draws : ℕ → ℕ × ℕ, ∃ n final,
      EndsAfter (Goes target) (loop strength table) draws n (60, [Pool.of (.single 3 2)]) final ∧
      defenderLosses Seeds.world [.single 3 2] target ((List.range n).map draws) 60 =
        .ok (final.2.map Pool.lost) ∧
      List.Forall₂ (fun ships lost => ∀ ship, lost.getD ship 0 ≤ ships.getD ship 0) [Hash.single 3 2]
        (final.2.map Pool.lost) :=
  (defenders_end_iff Seeds.world [.single 3 2] (by decide) (by decide) 30 60 1).mpr (by
    intro ships hmem
    obtain rfl := List.mem_singleton.mp hmem
    exact ⟨defense_of_fighters.1, fun ship hless => absurd hless (lt_irrefl _)⟩)

/-- A fighter and a small cargo ship of two fleets: the last fleet has no fighter to look up. -/
theorem other_types_raise :
    ¬ ∀ (w : World) (fleets : List (Hash ShipId ℤ × Factor)) (offense : ℤ) (rate : ℚ), fleets ≠ [] →
      (∀ fleet ∈ fleets, ∀ entry ∈ fleet.1.entries, 0 ≤ entry.2) →
      let strength : ShipId → ℤ := fun ship => (w.ship ship).defense
      let defense := (fleets.map fun fleet => raised strength fleet.1 fleet.2).sum
      let target : Numeric := ((|offense - defense| : ℤ) : Numeric) * .float rate
      let table := (fleets.map Prod.fst).getLast?.getD .empty
      offense < defense → 4 / 5 ≤ rate → rate ≤ 6 / 5 → ∀ draws : ℕ → ℕ × ℕ, ∃ n final,
        EndsAfter (Goes target) (loop strength table) draws n
          (defense, (fleets.map Prod.fst).map Pool.of) final := by
  intro hall
  have hfirst : ([.single 3 1, .single 1 1] : List (Hash ShipId ℤ))[0]? = some (.single 3 1) := rfl
  obtain ⟨-, hless, hdefense⟩ := defense_of_fighters
  obtain ⟨draws, hendless⟩ := exists_endless_type (fun ship => ((Seeds.world.ship ship).defense : ℤ)) hfirst
    (show (0 : ℤ) ≤ (Seeds.world.ship 3).defense by decide) (by decide) (by decide) hless
  obtain ⟨n, final, hends⟩ := hall Seeds.world [(.single 3 1, ⟨1, le_rfl⟩), (.single 1 1, ⟨1, le_rfl⟩)] 5 1
    (by decide) (by decide) (by rw [hdefense]; decide) (by norm_num) (by norm_num) draws
  rw [hdefense] at hends
  exact hendless n final hends

/-- The loss loop of the attacker ends well whatever is drawn exactly if what the offense is more than
that of the single ships is no more than the target. -/
theorem attacker_ends_iff (w : World) (ships : Hash ShipId ℤ) (hamounts : ∀ entry ∈ ships.entries, 0 ≤ entry.2)
    (offense defense : ℤ) (rate : ℚ) :
    let target : Numeric := ((|offense - defense| : ℤ) : Numeric) * .float rate
    let strength : ShipId → ℤ := fun ship => (w.ship ship).offense
    (∀ draws : ℕ → ℕ × ℕ, ∃ n final lost,
      EndsAfter (Goes target) (loop strength ships) draws n (offense, [Pool.of ships]) final ∧
      attackerLosses w ships target ((List.range n).map draws) offense = .ok lost ∧
      ∀ ship, lost.getD ship 0 ≤ ships.getD ship 0) ↔
    ((offense - ships.sum fun ship amount => strength ship * amount : ℤ) : Numeric) ≤ target := by
  intro target strength
  have hstrength : ∀ ship, 0 ≤ strength ship := fun ship => Nat.cast_nonneg _
  have hall : ∀ found ∈ [ships], ∀ entry ∈ found.entries, 0 ≤ entry.2 := by
    intro found hfound
    rwa [List.mem_singleton.mp hfound]
  have hends := ends_iff target offense hstrength (List.cons_ne_nil ships [])
    (getD_nonneg hamounts)
  constructor
  · intro hdraws
    have hsuffices := hends.mp (fun draws => by
      obtain ⟨n, final, lost, hdone, -⟩ := hdraws draws
      exact ⟨n, final, hdone⟩) ships (List.mem_singleton_self ships)
    have hfleet := hsuffices.fleet
    rwa [worth_allships ships hamounts] at hfleet
  · intro hfleet draws
    obtain ⟨n, final, hdone⟩ := hends.mpr (fun found hfound => by
      rw [List.mem_singleton.mp hfound]
      refine ⟨?_, fun ship hless => absurd hless (lt_irrefl _)⟩
      rwa [worth_allships ships hamounts]) draws
    obtain ⟨hinv, -⟩ := hdone.keeps (fun _ _ _ hinv _ hround => hinv.step hstrength hround)
      (losing_start strength [ships] offense)
    have hlost := hinv.lost_le hall
    obtain ⟨pool, hpool⟩ := List.length_eq_one_iff.mp hinv.length
    rw [hpool] at hlost
    refine ⟨n, final, pool.lost, hdone, ?_, (List.forall₂_cons.mp hlost).1⟩
    have hlose := loseShips_of_endsAfter hdone
    rw [hpool] at hlose
    refine (congrArg (Except.map _) hlose).trans rfl

/-- Ten fighters have an offense of 315 with a factor of 1.05, of which 15 are left without them. -/
theorem offense_of_fighters :
    ((315 - (Hash.single 3 10).sum fun ship amount => ((Seeds.world.ship ship).offense : ℤ) * amount : ℤ) : Numeric) ≤
        ((|315 - 280| : ℤ) : Numeric) * .float 1 ∧
      ((|315 - 310| : ℤ) : Numeric) * .float 1 <
        ((315 - worth (fun ship => ((Seeds.world.ship ship).offense : ℤ)) (Pool.of (.single 3 10)).allships : ℤ) :
          Numeric) ∧
      raised (fun ship => ((Seeds.world.ship ship).offense : ℤ)) (.single 3 10) ⟨21 / 20, by norm_num⟩ = 315 := by
  decide +kernel

/-- Ten fighters with a factor of 1.05 against a defense of 280. -/
theorem attacker_ends_iff_fighters :
    let target : Numeric := ((|315 - 280| : ℤ) : Numeric) * .float 1
    let strength : ShipId → ℤ := fun ship => (Seeds.world.ship ship).offense
    ∀ draws : ℕ → ℕ × ℕ, ∃ n final lost,
      EndsAfter (Goes target) (loop strength (.single 3 10)) draws n (315, [Pool.of (.single 3 10)]) final ∧
      attackerLosses Seeds.world (.single 3 10) target ((List.range n).map draws) 315 = .ok lost ∧
      ∀ ship, lost.getD ship 0 ≤ (Hash.single 3 10).getD ship 0 :=
  (attacker_ends_iff Seeds.world (.single 3 10) (by decide) 315 280 1).mpr offense_of_fighters.1

/-- Ten fighters with a factor of 1.05 against a defense of 310: when all are gone, 15 are left. -/
theorem research_outlives_ships :
    ¬ ∀ (w : World) (ships : Hash ShipId ℤ) (factor : Factor) (defense : ℤ) (rate : ℚ),
      (∀ entry ∈ ships.entries, 0 ≤ entry.2) →
      let strength : ShipId → ℤ := fun ship => (w.ship ship).offense
      let offense := raised strength ships factor
      let target : Numeric := ((|offense - defense| : ℤ) : Numeric) * .float rate
      0 ≤ defense → defense < offense → 4 / 5 ≤ rate → rate ≤ 6 / 5 → ∀ draws : ℕ → ℕ × ℕ, ∃ n final,
        EndsAfter (Goes target) (loop strength ships) draws n (offense, [Pool.of ships]) final := by
  intro hall
  have hfirst : ([.single 3 10] : List (Hash ShipId ℤ))[0]? = some (.single 3 10) := rfl
  obtain ⟨-, hless, hoffense⟩ := offense_of_fighters
  obtain ⟨draws, hendless⟩ := exists_endless_fleet (fun ship => ((Seeds.world.ship ship).offense : ℤ)) (.single 3 10)
    (fun ship => Nat.cast_nonneg _) hfirst hless
  obtain ⟨n, final, hends⟩ := hall Seeds.world (.single 3 10) ⟨21 / 20, by norm_num⟩ 310 1 (by decide)
    (by decide) (by rw [hoffense]; decide) (by norm_num) (by norm_num) draws
  rw [hoffense] at hends
  exact hendless n final hends

end Mmog.Fight
