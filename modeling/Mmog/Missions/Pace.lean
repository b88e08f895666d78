import Mmog.Missions.Move
import Mmog.Model.Seeds
import Mmog.Ships.Refinement

/-!
# Pace

How fast a fleet flies and what it burns once ships are added.  The slowest
type it has a row for counts, whatever the amount, and with a type that cannot
move at all the fleet needs no time.
-/

namespace Mmog

open Ruby Action

namespace Fleet

/-! ## Time -/

/-- The velocity of a fleet by the speed of its slowest type. -/
def pace (factor : Factor) (speed : ℕ) : ℚ := Binary64.round (Binary64.round (speed : ℤ) * factor)

/-- The time a distance takes. -/
def duration (pace distance : ℚ) : ℚ :=
  if pace = 0 then 0 else Binary64.round (Binary64.round (distance / pace) * 5)

theorem value_getNeededTime (pace : ℚ) (distance : Numeric) :
    (getNeededTime (.float pace) distance).value = duration pace distance.toF := by
  have hfive : Numeric.toF 5 = 5 := Binary64.round_intCast (n := 5) (by norm_num)
  have hproduct : (distance / .float pace * 5).value = Binary64.round (Binary64.round (distance.toF / pace) * 5) := by
    rw [← hfive]
    cases distance <;> rfl
  unfold getNeededTime duration
  rw [Numeric.value_float]
  split
  · rfl
  · exact hproduct

section Pace

variable {factor : Factor} {slow fast : ℕ} {distance : ℚ}

theorem factor_pos (factor : Factor) : (0 : ℚ) < factor := zero_lt_one.trans_le factor.2

@[simp] theorem pace_zero (factor : Factor) : pace factor 0 = 0 := by
  simp [pace]

theorem pace_pos (factor : Factor) {speed : ℕ} (hspeed : 0 < speed) : 0 < pace factor speed :=
  Binary64.round_pos (mul_pos (Binary64.round_pos (by exact_mod_cast hspeed)) (factor_pos factor))

theorem pace_mono (factor : Factor) (hle : slow ≤ fast) : pace factor slow ≤ pace factor fast :=
  Binary64.round_mono (mul_le_mul_of_nonneg_right (Binary64.round_mono (by exact_mod_cast hle)) (factor_pos factor).le)

@[simp] theorem duration_zero (distance : ℚ) : duration 0 distance = 0 := if_pos rfl

@[simp] theorem duration_nowhere (pace : ℚ) : duration pace 0 = 0 := by
  simp [duration]

theorem duration_of_pos {pace : ℚ} (hpace : 0 < pace) (distance : ℚ) :
    duration pace distance = Binary64.round (Binary64.round (distance / pace) * 5) := if_neg hpace.ne'

theorem duration_pos {pace : ℚ} (hpace : 0 < pace) (hdistance : 0 < distance) : 0 < duration pace distance := by
  rw [duration_of_pos hpace]
  exact Binary64.round_pos (mul_pos (Binary64.round_pos (div_pos hdistance hpace)) (by norm_num))

/-- A slower fleet that moves needs at least as long. -/
theorem duration_anti {slower faster : ℚ} (hslower : 0 < slower) (hle : slower ≤ faster) (hdistance : 0 ≤ distance) :
    duration faster distance ≤ duration slower distance := by
  rw [duration_of_pos hslower, duration_of_pos (hslower.trans_le hle)]
  refine Binary64.round_mono (mul_le_mul_of_nonneg_right (Binary64.round_mono ?_) (by norm_num))
  exact div_le_div_of_nonneg_left hdistance hslower hle

/-- Speeds are so far apart that four roundings do not hide which one is slower. -/
theorem gap_of_lt (hless : slow < fast) (hfast : fast < 2 ^ 31) :
    (1 + 1 / 2 ^ 53 : ℚ) ^ 3 * slow < (1 - 1 / 2 ^ 53) ^ 3 * fast := by
  have hslow : (slow : ℚ) + 1 ≤ fast := by exact_mod_cast hless
  have hbound : (fast : ℚ) < 2147483648 := by exact_mod_cast hfast
  norm_num
  linarith

/-- A fleet whose slowest type is slower needs longer. -/
theorem duration_strictAnti (factor : Factor) (hslow : 0 < slow) (hless : slow < fast) (hfast : fast < 2 ^ 31)
    (hdistance : 0 < distance) : duration (pace factor fast) distance < duration (pace factor slow) distance := by
  have hexact : ∀ {speed : ℕ}, speed < 2 ^ 31 → Binary64.round ((speed : ℤ) : ℚ) = speed := fun hspeed => by
    rw [Binary64.round_intCast (by rw [abs_of_nonneg (by positivity)]; omega), Int.cast_natCast]
  have hfactor := factor_pos factor
  have hslowPace := pace_pos factor hslow
  have hfastPace := pace_pos factor (hslow.trans hless)
  have hhigh : pace factor slow ≤ (slow : ℚ) * factor * (1 + 1 / 2 ^ 53) := by
    rw [pace, hexact (hless.trans hfast)]
    exact Binary64.round_le_mul (by positivity)
  have hlow : (fast : ℚ) * factor * (1 - 1 / 2 ^ 53) ≤ pace factor fast := by
    rw [pace, hexact hfast]
    exact Binary64.mul_le_round (by positivity)
  have hgap : (1 + 1 / 2 ^ 53) ^ 2 * pace factor slow < (1 - 1 / 2 ^ 53) ^ 2 * pace factor fast := by
    have hspeeds := mul_lt_mul_of_pos_right (gap_of_lt hless hfast) hfactor
    have hleft := mul_le_mul_of_nonneg_left hhigh (show (0 : ℚ) ≤ (1 + 1 / 2 ^ 53) ^ 2 by norm_num)
    have hright := mul_le_mul_of_nonneg_left hlow (show (0 : ℚ) ≤ (1 - 1 / 2 ^ 53) ^ 2 by norm_num)
    linarith
  have hquotient : distance / pace factor fast * (1 + 1 / 2 ^ 53) ^ 2 <
      distance / pace factor slow * (1 - 1 / 2 ^ 53) ^ 2 := by
    rw [div_mul_eq_mul_div, div_mul_eq_mul_div, div_lt_div_iff₀ hfastPace hslowPace]
    have hscaled := mul_lt_mul_of_pos_left hgap hdistance
    linarith
  rw [duration_of_pos hslowPace, duration_of_pos hfastPace]
  calc Binary64.round (Binary64.round (distance / pace factor fast) * 5)
      ≤ Binary64.round (distance / pace factor fast) * 5 * (1 + 1 / 2 ^ 53) :=
        Binary64.round_le_mul (mul_nonneg (Binary64.round_nonneg (by positivity)) (by norm_num))
    _ ≤ distance / pace factor fast * (1 + 1 / 2 ^ 53) * 5 * (1 + 1 / 2 ^ 53) := by
        have hround := Binary64.round_le_mul (div_pos hdistance hfastPace).le
        gcongr
    _ < distance / pace factor slow * (1 - 1 / 2 ^ 53) * 5 * (1 - 1 / 2 ^ 53) := by linarith
    _ ≤ Binary64.round (distance / pace factor slow) * 5 * (1 - 1 / 2 ^ 53) := by
        have hround := Binary64.mul_le_round (div_pos hdistance hslowPace).le
        exact mul_le_mul_of_nonneg_right (mul_le_mul_of_nonneg_right hround (by norm_num)) (by norm_num)
    _ ≤ Binary64.round (Binary64.round (distance / pace factor slow) * 5) :=
        Binary64.mul_le_round (mul_nonneg (Binary64.round_nonneg (by positivity)) (by norm_num))

end Pace

/-! ## Energy -/

/-- What the ships of one type burn in a time. -/
def burned (consumption : ℕ) (time : ℚ) (amount : ℤ) : ℚ :=
  if consumption = 0 then 0
  else Binary64.round (Binary64.round (time / Binary64.round (consumption : ℤ)) * Binary64.round amount)

section Burned

variable {consumption : ℕ} {time time' : ℚ} {amount amount' : ℤ}

theorem burned_nonneg (htime : 0 ≤ time) (hamount : 0 ≤ amount) : 0 ≤ burned consumption time amount := by
  unfold burned
  split
  · exact le_refl _
  · refine Binary64.round_nonneg (mul_nonneg (Binary64.round_nonneg (div_nonneg htime ?_)) ?_)
    · exact Binary64.round_nonneg (by positivity)
    · exact Binary64.round_nonneg (by exact_mod_cast hamount)

theorem burned_mono (htime : 0 ≤ time) (hle : time ≤ time') (hamount : 0 ≤ amount) (hmore : amount ≤ amount') :
    burned consumption time amount ≤ burned consumption time' amount' := by
  unfold burned
  split
  · exact le_refl _
  · have hconsumption : 0 ≤ Binary64.round ((consumption : ℤ) : ℚ) := Binary64.round_nonneg (by positivity)
    have hship : Binary64.round (time / Binary64.round (consumption : ℤ)) ≤
        Binary64.round (time' / Binary64.round (consumption : ℤ)) :=
      Binary64.round_mono (div_le_div_of_nonneg_right hle hconsumption)
    refine Binary64.round_mono (mul_le_mul hship (Binary64.round_mono (by exact_mod_cast hmore)) ?_ ?_)
    · exact Binary64.round_nonneg (by exact_mod_cast hamount)
    · exact Binary64.round_nonneg (div_nonneg (htime.trans hle) hconsumption)

@[simp] theorem burned_no_time (consumption : ℕ) (amount : ℤ) : burned consumption 0 amount = 0 := by
  simp [burned]

@[simp] theorem burned_no_ships (consumption : ℕ) (time : ℚ) : burned consumption time 0 = 0 := by
  simp [burned]

end Burned

section Fuel

variable (w : World)

/-- What all ships burn, added up type by type. -/
def fuel (time : ℚ) (amount : ShipId → ℤ) (types : List ShipId) (spent : ℚ) : ℚ :=
  types.foldl (fun spent ship => Binary64.round (spent + burned (w.ship ship).consumption time (amount ship))) spent

variable {w} {time time' spent spent' : ℚ} {amount amount' : ShipId → ℤ} {types : List ShipId}

theorem fuel_mono (htime : 0 ≤ time) (hle : time ≤ time') (hamount : ∀ ship, 0 ≤ amount ship)
    (hmore : ∀ ship, amount ship ≤ amount' ship) (hspent : spent ≤ spent') :
    fuel w time amount types spent ≤ fuel w time' amount' types spent' := by
  induction types generalizing spent spent' with
  | nil => exact hspent
  | cons ship types ih =>
      exact ih (Binary64.round_mono (add_le_add hspent (burned_mono htime hle (hamount ship) (hmore ship))))

theorem le_fuel (htime : 0 ≤ time) (hamount : ∀ ship, 0 ≤ amount ship) (hspent : Binary64.round spent = spent) :
    spent ≤ fuel w time amount types spent := by
  induction types generalizing spent with
  | nil => exact le_refl _
  | cons ship types ih =>
      have hmore : spent ≤ Binary64.round (spent + burned (w.ship ship).consumption time (amount ship)) := by
        refine hspent.symm.trans_le (Binary64.round_mono ?_)
        exact le_add_of_nonneg_right (burned_nonneg htime (hamount ship))
      exact hmore.trans (ih (Binary64.round_round _))

theorem round_fuel (hspent : Binary64.round spent = spent) :
    Binary64.round (fuel w time amount types spent) = fuel w time amount types spent := by
  induction types generalizing spent with
  | nil => exact hspent
  | cons ship types ih => exact ih (Binary64.round_round _)

theorem fuel_append (others : List ShipId) :
    fuel w time amount (types ++ others) spent = fuel w time amount others (fuel w time amount types spent) :=
  List.foldl_append

theorem fuel_nothing (hnothing : ∀ ship ∈ types, burned (w.ship ship).consumption time (amount ship) = 0)
    (hspent : Binary64.round spent = spent) : fuel w time amount types spent = spent := by
  induction types with
  | nil => rfl
  | cons ship types ih =>
      rw [fuel, List.foldl_cons, hnothing ship List.mem_cons_self, add_zero, hspent]
      exact ih fun other hother => hnothing other (List.mem_cons_of_mem ship hother)

end Fuel

/-- Nothing yet, or a float. -/
def Plain (x : Numeric) : Prop := x = 0 ∨ ∃ q, x = .float q

theorem Plain.add {x y : Numeric} (hx : Plain x) (hy : Plain y) :
    Plain (x + y) ∧ (x + y).value = Binary64.round (x.value + y.value) := by
  have hzero : Numeric.toF 0 = 0 := by simp [Numeric.toF]
  obtain rfl | ⟨p, rfl⟩ := hx
  · obtain rfl | ⟨q, rfl⟩ := hy
    · refine ⟨.inl rfl, ?_⟩
      rw [Numeric.value_zero, add_zero, Binary64.round_zero]
      rfl
    · exact ⟨.inr ⟨_, rfl⟩, congrArg (fun r => Binary64.round (r + q)) hzero⟩
  · obtain rfl | ⟨q, rfl⟩ := hy
    · exact ⟨.inr ⟨_, rfl⟩, congrArg (fun r => Binary64.round (p + r)) hzero⟩
    · exact ⟨.inr ⟨_, rfl⟩, rfl⟩

theorem plain_getNeededTime (pace : ℚ) (distance : Numeric) : Plain (getNeededTime (.float pace) distance) := by
  unfold getNeededTime
  split
  · exact .inl rfl
  · cases distance <;> exact .inr ⟨_, rfl⟩

theorem getNeededFuel_spec (w : World) (ship : ShipId) {time : Numeric} (htime : Plain time) (amount : ℤ) :
    Plain (getNeededFuel w ship time * (amount : Numeric)) ∧
      (getNeededFuel w ship time * (amount : Numeric)).value = burned (w.ship ship).consumption time.value amount := by
  have hnothing : (0 : Numeric) * (amount : Numeric) = 0 := by
    rw [show (0 : Numeric) = .int 0 from rfl, Numeric.int_mul_int, zero_mul]
  unfold getNeededFuel burned
  split
  · rw [hnothing]
    exact ⟨.inl rfl, rfl⟩
  · obtain rfl | ⟨q, rfl⟩ := htime
    · have hquotient : (0 : Numeric) / (((w.ship ship).consumption : ℤ) : Numeric) = 0 :=
        congrArg Numeric.int (Int.zero_fdiv _)
      rw [hquotient, hnothing]
      exact ⟨.inl rfl, by simp⟩
    · exact ⟨.inr ⟨_, rfl⟩, rfl⟩

theorem value_foldl_fuel (w : World) {time spent : Numeric} (htime : Plain time) (hspent : Plain spent)
    (amount : ShipId → ℤ) (types : List ShipId) :
    (types.foldl (fun spent ship => spent + getNeededFuel w ship time * (amount ship : Numeric)) spent).value =
      fuel w time.value amount types spent.value := by
  induction types generalizing spent with
  | nil => rfl
  | cons ship types ih =>
      obtain ⟨hship, hvalue⟩ := getNeededFuel_spec w ship htime (amount ship)
      obtain ⟨hplain, hsum⟩ := hspent.add hship
      rw [List.foldl_cons, ih hplain, hsum, hvalue]
      rfl

/-! ## The slowest type -/

section Slowest

variable (w : World)

/-- A speed that one of these rows flies with and none flies below. -/
def Slowest (rows : List Shipfleet) (speed : ℕ) : Prop :=
  (∃ ship ∈ typesOf rows, (w.ship ship).velocity = speed) ∧ ∀ ship ∈ typesOf rows, speed ≤ (w.ship ship).velocity

theorem slowest_iff {rows : List Shipfleet} {speed : ℕ} :
    (rows.map fun row => (w.ship row.shipId).velocity).min? = some speed ↔ Slowest w rows speed := by
  rw [List.min?_eq_some_iff]
  simp only [Slowest, typesOf, List.mem_map, exists_exists_and_eq_and, forall_exists_index, and_imp,
    forall_apply_eq_imp_iff₂]

variable {w} {rows : List Shipfleet} {shipHash : Hash ShipId ℤ} {speed speed' : ℕ}

theorem Slowest.anti (hrows : Slowest w rows speed) (hadded : Slowest w (added shipHash rows) speed') :
    speed' ≤ speed := by
  obtain ⟨ship, hship, rfl⟩ := hrows.1
  exact hadded.2 ship (mem_typesOf_added.mpr (.inl hship))

/-- With the added types the fleet can move as long as it could not before or they can. -/
theorem Slowest.moves_iff (hrows : Slowest w rows speed) (hadded : Slowest w (added shipHash rows) speed') :
    (speed' = 0 → speed = 0) ↔ ∀ ship ∈ shipHash.keys, (w.ship ship).velocity = 0 →
      ∃ own ∈ typesOf rows, (w.ship own).velocity = 0 := by
  constructor
  · intro hmoves ship hship hvelocity
    have hspeed' : speed' = 0 := Nat.le_zero.mp (hvelocity ▸ hadded.2 ship (mem_typesOf_added.mpr (.inr hship)))
    obtain ⟨own, hown, hspeed⟩ := hrows.1
    exact ⟨own, hown, hspeed.trans (hmoves hspeed')⟩
  · intro hkeys hspeed'
    obtain ⟨ship, hship, hvelocity⟩ := hadded.1
    have hown : ∃ own ∈ typesOf rows, (w.ship own).velocity = 0 := by
      rcases mem_typesOf_added.mp hship with hship | hship
      · exact ⟨ship, hship, hvelocity.trans hspeed'⟩
      · exact hkeys ship hship (hvelocity.trans hspeed')
    obtain ⟨own, hown, hvelocity⟩ := hown
    exact Nat.le_zero.mp (hvelocity ▸ hrows.2 own hown)

/-- The fleet keeps its speed when each added type is as fast as one it has. -/
theorem Slowest.same_iff (hrows : Slowest w rows speed) (hadded : Slowest w (added shipHash rows) speed') :
    speed' = speed ↔ ∀ ship ∈ shipHash.keys, ∃ own ∈ typesOf rows, (w.ship own).velocity ≤ (w.ship ship).velocity := by
  constructor
  · rintro rfl ship hship
    obtain ⟨own, hown, rfl⟩ := hrows.1
    exact ⟨own, hown, hadded.2 ship (mem_typesOf_added.mpr (.inr hship))⟩
  · intro hkeys
    refine le_antisymm (hrows.anti hadded) ?_
    obtain ⟨ship, hship, rfl⟩ := hadded.1
    rcases mem_typesOf_added.mp hship with hship | hship
    · exact hrows.2 ship hship
    · obtain ⟨own, hown, hle⟩ := hkeys ship hship
      exact (hrows.2 own hown).trans hle

end Slowest

section Times

variable {factor : Factor} {speed speed' : ℕ} {distance : ℚ}

theorem duration_le_iff (hle : speed' ≤ speed) (hdistance : 0 < distance) :
    duration (pace factor speed) distance ≤ duration (pace factor speed') distance ↔ (speed' = 0 → speed = 0) := by
  rcases Nat.eq_zero_or_pos speed' with rfl | hslow
  · rw [pace_zero, duration_zero]
    refine ⟨fun htime _ => ?_, fun hspeed => ?_⟩
    · by_contra hspeed
      exact absurd (duration_pos (pace_pos factor (Nat.pos_of_ne_zero hspeed)) hdistance) htime.not_gt
    · rw [hspeed rfl, pace_zero, duration_zero]
  · have htime := duration_anti (pace_pos factor hslow) (pace_mono factor hle) hdistance.le
    exact iff_of_true htime fun hzero => absurd hzero hslow.ne'

theorem duration_eq_iff (hle : speed' ≤ speed) (hfast : speed < 2 ^ 31) (hdistance : 0 < distance) :
    duration (pace factor speed) distance = duration (pace factor speed') distance ↔ speed' = speed := by
  refine ⟨fun htime => ?_, fun hspeed => by rw [hspeed]⟩
  by_contra hspeed
  have hless : speed' < speed := lt_of_le_of_ne hle hspeed
  rcases Nat.eq_zero_or_pos speed' with rfl | hslow
  · rw [pace_zero, duration_zero] at htime
    exact (duration_pos (pace_pos factor hless) hdistance).ne' htime
  · exact (duration_strictAnti factor hslow hless hfast hdistance).ne htime

end Times

/-! ## Adding ships -/

section Added

variable {w : World} {factor : Factor} {rows : List Shipfleet} {distance : Numeric} {needed more : Numeric × Numeric}
variable {shipHash : Hash ShipId ℤ} {speed speed' : ℕ}

/-- Time and energy of a flight, by the speed of the slowest type and the hash of the ships. -/
theorem value_flightOf (hspeed : Slowest w rows speed) (hneeded : flightOf w factor rows distance = some needed) :
    needed.1.value = duration (pace factor speed) distance.toF ∧
      needed.2.value = fuel w needed.1.value (amountOf rows) (shipsOf rows).keys 0 := by
  obtain ⟨found, hfound, rfl⟩ := Option.map_eq_some_iff.mp hneeded
  rw [(slowest_iff w).mpr hspeed, Option.some.injEq] at hfound
  subst hfound
  refine ⟨value_getNeededTime _ distance, ?_⟩
  have hentries := (shipsOf rows).entries_eq_map 0
  simp only [getD_shipsOf] at hentries
  rw [hentries]
  dsimp only
  rw [List.foldl_map]
  exact value_foldl_fuel w (plain_getNeededTime _ distance) (.inl rfl) (amountOf rows) _

/-- Added types come after those the fleet has. -/
theorem keys_shipsOf_added (shipHash : Hash ShipId ℤ) (rows : List Shipfleet) :
    ∃ others, (shipsOf (added shipHash rows)).keys = (shipsOf rows).keys ++ others := by
  have hkeys : ∀ rows, (shipsOf rows).keys =
      (typesOf rows).foldl (fun found ship => if ship ∈ found then found else found ++ [ship]) [] := by
    intro rows
    rw [shipsOf, collectShips, collectShips_eq_foldl (fun _ hmem => hmem), Option.getD_some, Hash.keys_foldl_insert]
    rfl
  rw [hkeys, hkeys, typesOf_added, List.foldl_append]
  obtain ⟨others, hothers⟩ := Hash.prefix_foldl_keys (shipHash.filterKeys fun key => key ∉ typesOf rows).keys _
  exact ⟨others, hothers.symm⟩

/-- A flight that takes at least as long with more ships costs at least as much. -/
theorem fuel_added_le {time time' : ℚ} (hvalid : Valid rows) (hamounts : hashIsValid? shipHash = true) (htime : 0 ≤ time)
    (hle : time ≤ time') :
    fuel w time (amountOf rows) (shipsOf rows).keys 0 ≤
      fuel w time' (amountOf (added shipHash rows)) (shipsOf (added shipHash rows)).keys 0 := by
  have hmore : ∀ ship, amountOf rows ship ≤ amountOf (added shipHash rows) ship := by
    intro ship
    rw [amountOf_added]
    exact le_add_of_nonneg_right (getD_nonneg_of_valid hamounts ship)
  have hnonneg := valid_iff.mp (hvalid.added hamounts)
  obtain ⟨others, hkeys⟩ := keys_shipsOf_added shipHash rows
  rw [hkeys, fuel_append]
  calc fuel w time (amountOf rows) (shipsOf rows).keys 0
      ≤ fuel w time' (amountOf (added shipHash rows)) (shipsOf rows).keys 0 :=
        fuel_mono htime hle (valid_iff.mp hvalid) hmore le_rfl
    _ ≤ _ := le_fuel (htime.trans hle) hnonneg (round_fuel Binary64.round_zero)

/-- Types added with amount 0 burn nothing. -/
theorem fuel_added_eq (hnothing : ∀ ship, shipHash.getD ship 0 = 0) (time : ℚ) :
    fuel w time (amountOf (added shipHash rows)) (shipsOf (added shipHash rows)).keys 0 =
      fuel w time (amountOf rows) (shipsOf rows).keys 0 := by
  have hsame : amountOf (added shipHash rows) = amountOf rows := by
    funext ship
    rw [amountOf_added, hnothing ship, add_zero]
  obtain ⟨others, hkeys⟩ := keys_shipsOf_added shipHash rows
  have hnodup := (shipsOf (added shipHash rows)).keys_nodup
  rw [hkeys] at hnodup
  rw [hkeys, fuel_append, hsame]
  refine fuel_nothing (fun ship hship => ?_) (round_fuel Binary64.round_zero)
  have hnew : ship ∉ typesOf rows := fun hown =>
    (List.nodup_append.mp hnodup).2.2 ship (mem_keys_shipsOf.mpr hown) ship hship rfl
  rw [amountOf, amountOf?_eq_none_iff.mpr hnew, Option.getD_none, burned_no_ships]

/-- With the added ships a flight takes and burns at least as much, and just as much when none were added. -/
def NeverFaster (shipHash : Hash ShipId ℤ) (needed more : Numeric × Numeric) : Prop :=
  needed.1 ≤ more.1 ∧ needed.2 ≤ more.2 ∧
    ((∀ ship, shipHash.getD ship 0 = 0) → more.1.value = needed.1.value ∧ more.2.value = needed.2.value)

/-- No type that cannot move joins types that all can, and a type with amount 0 is as fast as one there is. -/
def KeepsPace (w : World) (rows : List Shipfleet) (shipHash : Hash ShipId ℤ) (distance : Numeric) : Prop :=
  distance.value = 0 ∨
    (∀ ship ∈ shipHash.keys, (w.ship ship).velocity = 0 → ∃ own ∈ typesOf rows, (w.ship own).velocity = 0) ∧
      ((∀ ship, shipHash.getD ship 0 = 0) →
        ∀ ship ∈ shipHash.keys, ∃ own ∈ typesOf rows, (w.ship own).velocity ≤ (w.ship ship).velocity)

theorem slowest_of_flightOf (hneeded : flightOf w factor rows distance = some needed) :
    ∃ speed, Slowest w rows speed := by
  obtain ⟨speed, hspeed, -⟩ := Option.map_eq_some_iff.mp hneeded
  exact ⟨speed, (slowest_iff w).mp hspeed⟩

/-- A flight nowhere takes no time and no energy. -/
theorem value_flightOf_nowhere (hdistance : distance.value = 0)
    (hneeded : flightOf w factor rows distance = some needed) : needed.1.value = 0 ∧ needed.2.value = 0 := by
  obtain ⟨speed, hspeed⟩ := slowest_of_flightOf hneeded
  obtain ⟨htime, henergy⟩ := value_flightOf hspeed hneeded
  have htoF : distance.toF = 0 := by
    cases distance with
    | int n => exact (congrArg Binary64.round hdistance).trans Binary64.round_zero
    | float q => exact hdistance
  rw [htoF, duration_nowhere] at htime
  refine ⟨htime, henergy.trans ?_⟩
  rw [htime]
  exact fuel_nothing (fun ship _ => burned_no_time _ _) Binary64.round_zero

theorem toF_pos (hdistance : 0 < distance.value) : 0 < distance.toF := by
  cases distance with
  | int n => exact Binary64.round_pos hdistance
  | float q => exact hdistance

theorem neverFaster_iff (hspeeds : ∀ ship, (w.ship ship).velocity < 2 ^ 31) (hvalid : Valid rows)
    (hamounts : hashIsValid? shipHash = true) (hdistance : 0 ≤ distance)
    (hneeded : flightOf w factor rows distance = some needed)
    (hmore : flightOf w factor (added shipHash rows) distance = some more) :
    NeverFaster shipHash needed more ↔ KeepsPace w rows shipHash distance := by
  rcases (show 0 ≤ distance.value from hdistance).eq_or_lt with hnowhere | hpos
  · obtain ⟨htime, henergy⟩ := value_flightOf_nowhere hnowhere.symm hneeded
    obtain ⟨htime', henergy'⟩ := value_flightOf_nowhere hnowhere.symm hmore
    refine iff_of_true ⟨?_, ?_, fun _ => ⟨htime'.trans htime.symm, henergy'.trans henergy.symm⟩⟩ (.inl hnowhere.symm)
    · exact (htime.trans htime'.symm).le
    · exact (henergy.trans henergy'.symm).le
  obtain ⟨speed, hspeed⟩ := slowest_of_flightOf hneeded
  obtain ⟨speed', hspeed'⟩ := slowest_of_flightOf hmore
  obtain ⟨htime, henergy⟩ := value_flightOf hspeed hneeded
  obtain ⟨htime', henergy'⟩ := value_flightOf hspeed' hmore
  have hle := hspeed.anti hspeed'
  have hfast : speed < 2 ^ 31 := by
    obtain ⟨⟨ship, -, rfl⟩, -⟩ := hspeed
    exact hspeeds ship
  have hlonger : needed.1 ≤ more.1 ↔ (speed' = 0 → speed = 0) := by
    rw [Numeric.le_iff, htime, htime']
    exact duration_le_iff hle (toF_pos hpos)
  have hsame : more.1.value = needed.1.value ↔ speed' = speed := by
    rw [eq_comm, htime, htime']
    exact duration_eq_iff hle hfast (toF_pos hpos)
  have hstays : 0 ≤ needed.1.value := flightOf_nonneg w hdistance hneeded
  have hdearer : needed.1 ≤ more.1 → needed.2 ≤ more.2 := by
    intro hlonger
    rw [Numeric.le_iff, henergy, henergy']
    exact fuel_added_le hvalid hamounts hstays hlonger
  have hcheap : (∀ ship, shipHash.getD ship 0 = 0) → more.1.value = needed.1.value →
      more.2.value = needed.2.value := by
    intro hnothing hequal
    rw [henergy', henergy, hequal]
    exact fuel_added_eq hnothing _
  rw [NeverFaster, KeepsPace, or_iff_right hpos.ne', ← hspeed.moves_iff hspeed', ← hspeed.same_iff hspeed',
    ← hlonger, ← hsame]
  constructor
  · rintro ⟨htime, -, hnothing⟩
    exact ⟨htime, fun hzero => (hnothing hzero).1⟩
  · rintro ⟨htime, hnothing⟩
    exact ⟨htime, hdearer htime, fun hzero => ⟨hnothing hzero, hcheap hzero (hnothing hzero)⟩⟩

end Added

section Enlarged

variable (w : World) {db next next' : Db} {self enlarged : Fleet} {row : FleetRow} {shipHash : Hash ShipId ℤ}
variable {distance : Numeric} {needed more : Numeric × Numeric}

theorem flightOf_of_run (hget : db.fleets.get self.id = some row)
    (hrun : (self.flight w distance).run db = .ok needed next) :
    flightOf w self.velocityFactor row.shipfleets distance = some needed := by
  rw [flight_apply w hget] at hrun
  cases hflight : flightOf w self.velocityFactor row.shipfleets distance with
  | none =>
      rw [hflight] at hrun
      cases hrun
  | some found =>
      rw [hflight] at hrun
      cases hrun
      rfl

theorem neverFaster_of_run (hspeeds : ∀ ship, (w.ship ship).velocity < 2 ^ 31) (hget : db.fleets.get self.id = some row)
    (hvalid : Valid row.shipfleets) (hamounts : hashIsValid? shipHash = true) (hdistance : 0 ≤ distance)
    (hflight : (self.flight w distance).run db = .ok needed db)
    (hadd : (self.addShips w shipHash).run db = .ok enlarged next)
    (hflight' : ({ enlarged with velocityFactor := self.velocityFactor }.flight w distance).run next = .ok more next') :
    NeverFaster shipHash needed more ↔ KeepsPace w row.shipfleets shipHash distance := by
  rw [addShips_apply w hget hamounts] at hadd
  cases hadd
  refine neverFaster_iff hspeeds hvalid hamounts hdistance (flightOf_of_run w hget hflight) ?_
  exact flightOf_of_run w ((Table.get_put _ hget self.id).trans (if_pos rfl)) hflight'

/-- A fleet flies no faster and no cheaper for ships that are added exactly when they keep its pace.
The velocity factor stays what it was: that the user has researched meanwhile is not the ships' doing. -/
theorem more_ships_iff (hspeeds : ∀ ship, (w.ship ship).velocity < 2 ^ 31) (hget : db.fleets.get self.id = some row)
    (hvalid : Valid row.shipfleets) (hrows : row.shipfleets ≠ []) (shipHash : Hash ShipId ℤ)
    (hamounts : hashIsValid? shipHash = true) (hdistance : 0 ≤ distance) :
    ∃ needed enlarged next more, (self.flight w distance).run db = .ok needed db ∧
      (self.addShips w shipHash).run db = .ok enlarged next ∧
      ({ enlarged with velocityFactor := self.velocityFactor }.flight w distance).run next = .ok more next ∧
      (NeverFaster shipHash needed more ↔ KeepsPace w row.shipfleets shipHash distance) := by
  have hrows' : added shipHash row.shipfleets ≠ [] :=
    ne_nil_of_typesOf (fun ship hship => mem_typesOf_added.mpr (.inl hship)) hrows
  have hadd := addShips_apply w hget hamounts
  have hget' : (db.setFleets (db.fleets.put self.id
      ⟨valued w db (added shipHash row.shipfleets) self.toAttributes, added shipHash row.shipfleets⟩)).fleets.get
        { revalued w db (added shipHash row.shipfleets) self with velocityFactor := self.velocityFactor }.id = _ :=
    (Table.get_put _ hget self.id).trans (if_pos rfl)
  have hflight := flight_apply w hget distance
  have hflight' := flight_apply w hget' distance
  obtain ⟨needed, hneeded⟩ := flightOf_isSome w hrows distance
  obtain ⟨more, hmore⟩ := flightOf_isSome w hrows' distance
  rw [hneeded] at hflight
  rw [hmore] at hflight'
  exact ⟨needed, _, _, more, hflight, hadd, hflight',
    neverFaster_of_run w hspeeds hget hvalid hamounts hdistance hflight hadd hflight'⟩

end Enlarged

/-! ## A platform on board -/

/-- A board with a single fighter on it. -/
def hangar : Db := { Seeds.start with fleets := Table.empty.create ⟨Seeds.scout.toAttributes, [⟨3, 1⟩]⟩ }

theorem seeds_velocity_lt (ship : ShipId) : (Seeds.world.ship ship).velocity < 2 ^ 31 := by
  have hspeed : (Seeds.ship ship).velocity ≤ 15 := by
    unfold Seeds.ship
    split <;> norm_num
  exact hspeed.trans_lt (by norm_num)

theorem hangar_scout : hangar.fleets.get Seeds.scout.id = some ⟨Seeds.scout.toAttributes, [⟨3, 1⟩]⟩ := rfl

theorem fighter_valid : Valid [⟨3, 1⟩] := by
  unfold Valid
  decide

/-- A fighter that takes two cargo ships along. -/
theorem more_ships_iff_convoy : ∃ needed enlarged next more,
    (Seeds.scout.flight Seeds.world 10).run hangar = .ok needed hangar ∧
    (Seeds.scout.addShips Seeds.world (.single 1 2)).run hangar = .ok enlarged next ∧
    ({ enlarged with velocityFactor := Seeds.scout.velocityFactor }.flight Seeds.world 10).run next = .ok more next ∧
    (NeverFaster (.single 1 2) needed more ↔ KeepsPace Seeds.world [⟨3, 1⟩] (.single 1 2) 10) :=
  more_ships_iff Seeds.world seeds_velocity_lt hangar_scout fighter_valid
    (by decide) (.single 1 2) (by decide) (by decide)

/-- With a defense platform on board the fighter is there at once. -/
theorem platform_flies_at_once :
    ¬∀ (w : World) (db : Db) (self : Fleet) (row : FleetRow) (shipHash : Hash ShipId ℤ) (distance : Numeric),
      (∀ ship, (w.ship ship).velocity < 2 ^ 31) → db.fleets.get self.id = some row → Valid row.shipfleets →
      row.shipfleets ≠ [] → hashIsValid? shipHash = true → 0 ≤ distance →
      ∃ needed enlarged next more, (self.flight w distance).run db = .ok needed db ∧
        (self.addShips w shipHash).run db = .ok enlarged next ∧
        ({ enlarged with velocityFactor := self.velocityFactor }.flight w distance).run next = .ok more next ∧
        NeverFaster shipHash needed more := by
  intro hall
  obtain ⟨needed, enlarged, next, more, hflight, hadd, hflight', hnever⟩ :=
    hall Seeds.world hangar Seeds.scout ⟨Seeds.scout.toAttributes, [⟨3, 1⟩]⟩ (.single 8 1) 10 seeds_velocity_lt hangar_scout
      fighter_valid (by decide) (by decide) (by decide)
  have hpace := (neverFaster_of_run Seeds.world seeds_velocity_lt hangar_scout fighter_valid (by decide) (by decide)
    hflight hadd hflight').mp hnever
  rcases hpace with hnowhere | ⟨hmoves, -⟩
  · exact absurd hnowhere (by decide)
  · obtain ⟨own, hown, hvelocity⟩ := hmoves 8 List.mem_cons_self rfl
    rw [List.mem_singleton.mp hown] at hvelocity
    exact absurd hvelocity (by decide)

end Fleet

end Mmog
