import Mmog.Galaxies.Frontier
import Mmog.Ruby.Metric

/-!
# Distances of planets

With exact square roots `getDistance` is a distance in three layers: galaxies
on the torus, sunsystems in galaxies, planets in sunsystems.
-/

namespace Mmog.Map

open Ruby Floating

/-! ## Places -/

/-- Where a planet is. -/
@[ext] structure Place (length : ℤ) where
  cell : Cell length
  y : ℤ
  z : ℤ
  y_pos : 1 ≤ y
  z_pos : 1 ≤ z

namespace Place

variable {length : ℤ} (factor : ℤ)

noncomputable def galaxyDistance (p q : Place length) : ℝ := Cell.torus p.cell q.cell * (factor * 10 : ℤ)

noncomputable def sunsystemDistance : Place length → Place length → ℝ :=
  layered (galaxyDistance factor) fun p => (factor * p.y : ℤ)

noncomputable def distance : Place length → Place length → ℝ :=
  layered (sunsystemDistance factor) fun p => (p.z : ℤ)

variable {factor}

theorem z_cast_pos (p : Place length) : (0 : ℝ) < p.z := by
  exact_mod_cast p.z_pos

variable (hfactor : 1 ≤ factor)

include hfactor

theorem isDistance_galaxy : IsDistance (galaxyDistance factor : Place length → Place length → ℝ) := by
  have hpos : (0 : ℝ) ≤ (factor * 10 : ℤ) := by exact_mod_cast (show 0 ≤ factor * 10 by omega)
  exact (Cell.isDistance_torus.comp Place.cell).mul_const hpos

theorem galaxyDistance_eq_zero {p q : Place length} :
    galaxyDistance factor p q = 0 ↔ p.cell = q.cell := by
  have hne : ((factor * 10 : ℤ) : ℝ) ≠ 0 := by exact_mod_cast (show factor * 10 ≠ 0 by omega)
  rw [galaxyDistance, mul_eq_zero, or_iff_left hne, Cell.torus_eq_zero]

theorem y_factor_pos (p : Place length) : (0 : ℝ) < (factor * p.y : ℤ) := by
  exact_mod_cast Int.mul_pos (by omega) p.y_pos

theorem isDistance_sunsystem : IsDistance (sunsystemDistance factor : Place length → Place length → ℝ) :=
  (isDistance_galaxy hfactor).layered fun p => (y_factor_pos hfactor p).le

theorem sunsystemDistance_eq_zero {p q : Place length} :
    sunsystemDistance factor p q = 0 ↔ p.cell = q.cell ∧ p.y = q.y := by
  have hne : factor ≠ 0 := by omega
  rw [sunsystemDistance, layered_eq_zero (isDistance_galaxy hfactor) (y_factor_pos hfactor),
    galaxyDistance_eq_zero hfactor, Int.cast_inj, mul_right_inj' hne]

theorem isDistance : IsDistance (distance factor : Place length → Place length → ℝ) :=
  (isDistance_sunsystem hfactor).layered fun p => (z_cast_pos p).le

theorem distance_eq_zero {p q : Place length} : distance factor p q = 0 ↔ p = q := by
  rw [distance, layered_eq_zero (isDistance_sunsystem hfactor) z_cast_pos,
    sunsystemDistance_eq_zero hfactor, Int.cast_inj, Place.ext_iff, and_assoc]

end Place

/-! ## The distance that is computed -/

variable {settings : Settings}

/-- The galaxy of a cell. -/
def galaxyAt (settings : Settings) (p : Cell settings.worldLength) : Galaxy := ⟨pairing p.x p.y + 1⟩

theorem getCoords_galaxyAt (p : Cell settings.worldLength) :
    (galaxyAt settings p).getCoords ℝ = (p.x, p.y) :=
  getCoords_of_diagonal ℝ p.x_nonneg p.y_nonneg (diagonal_real p.x_nonneg p.y_nonneg)

theorem abs_of_if (a b : ℤ) : (if a < b then b - a else a - b) = |a - b| := by
  split
  · rw [abs_sub_comm, abs_of_pos (by omega)]
  · rw [abs_of_nonneg (by omega)]

theorem getDistance_of_coords {g h : Galaxy} {p q : Cell settings.worldLength}
    (hp : g.getCoords ℝ = (p.x, p.y)) (hq : h.getCoords ℝ = (q.x, q.y)) :
    g.getDistance settings (some h) = Cell.torus p q * (settings.worldDistanceFactor * 10 : ℤ) := by
  have hx : (0 : ℝ) ≤ settings.worldLength - |(p.x : ℝ) - q.x| := by
    have hlt := abs_sub_lt_of_nonneg_of_lt p.x_nonneg p.x_lt q.x_nonneg q.x_lt
    exact_mod_cast (show 0 ≤ settings.worldLength - |p.x - q.x| by omega)
  have hy : (0 : ℝ) ≤ settings.worldLength - |(p.y : ℝ) - q.y| := by
    have hlt := abs_sub_lt_of_nonneg_of_lt p.y_nonneg p.y_lt q.y_nonneg q.y_lt
    exact_mod_cast (show 0 ≤ settings.worldLength - |p.y - q.y| by omega)
  have hvalid : ¬(p.x < 0 ∨ p.y < 0 ∨ q.x < 0 ∨ q.y < 0) := by
    have hp := p.x_nonneg
    have hp' := p.y_nonneg
    have hq := q.x_nonneg
    have hq' := q.y_nonneg
    omega
  unfold Galaxy.getDistance
  simp only [hp, hq, abs_of_if, ofInt_real, sqrt_real]
  rw [if_neg hvalid]
  push_cast
  rw [min_four_ways (abs_nonneg _) hx (abs_nonneg _) hy, Cell.torus, wrapped, wrapped]
  push_cast
  rfl

theorem getDistance_galaxyAt (p q : Cell settings.worldLength) :
    (galaxyAt settings p).getDistance settings (some (galaxyAt settings q)) =
      Cell.torus p q * (settings.worldDistanceFactor * 10 : ℤ) :=
  getDistance_of_coords (getCoords_galaxyAt p) (getCoords_galaxyAt q)

/-- The distance of galaxies is the shortest way around the torus, symmetric, and the same when both
of them are moved by the same vector. -/
theorem getDistance_is_shortest (settings : Settings) {g h : Galaxy} {x y x' y' : ℤ}
    (hg : g.getCoords ℝ = (x, y)) (hh : h.getCoords ℝ = (x', y'))
    (hx : 0 ≤ x ∧ x < settings.worldLength) (hy : 0 ≤ y ∧ y < settings.worldLength)
    (hx' : 0 ≤ x' ∧ x' < settings.worldLength) (hy' : 0 ≤ y' ∧ y' < settings.worldLength) :
    (∃ shortest : ℝ, IsLeast (Set.range fun k : ℤ × ℤ =>
        √(((x - x' + k.1 * settings.worldLength : ℤ) : ℝ) ^ 2 +
          ((y - y' + k.2 * settings.worldLength : ℤ) : ℝ) ^ 2)) shortest ∧
      g.getDistance settings (some h) = shortest * (settings.worldDistanceFactor * 10 : ℤ)) ∧
    (h.getDistance settings (some g) : ℝ) = g.getDistance settings (some h) ∧
    ∀ (a b : ℤ) (g' h' : Galaxy),
      g'.getCoords ℝ = ((x + a) % settings.worldLength, (y + b) % settings.worldLength) →
      h'.getCoords ℝ = ((x' + a) % settings.worldLength, (y' + b) % settings.worldLength) →
      (g'.getDistance settings (some h') : ℝ) = g.getDistance settings (some h) := by
  let p : Cell settings.worldLength := ⟨x, y, hx.1, hx.2, hy.1, hy.2⟩
  let q : Cell settings.worldLength := ⟨x', y', hx'.1, hx'.2, hy'.1, hy'.2⟩
  have hdistance : g.getDistance settings (some h) =
      Cell.torus p q * (settings.worldDistanceFactor * 10 : ℤ) := getDistance_of_coords (p := p) (q := q) hg hh
  refine ⟨⟨Cell.torus p q, Cell.torus_isLeast p q, hdistance⟩, ?_, fun a b g' h' hg' hh' => ?_⟩
  · rw [hdistance, Cell.torus_comm]
    exact getDistance_of_coords hh hg
  · rw [hdistance, ← Cell.torus_shift p q a b]
    exact getDistance_of_coords (p := p.shift a b) (q := q.shift a b) hg' hh'

/-- The galaxies of opposite corners of a world of length three are neighbours of one another. -/
theorem getDistance_is_shortest_corners :
    let settings : Settings := ⟨3, 60, by decide⟩
    let p : Cell settings.worldLength := ⟨0, 0, by decide, by decide, by decide, by decide⟩
    let q : Cell settings.worldLength := ⟨2, 2, by decide, by decide, by decide, by decide⟩
    (galaxyAt settings q).getDistance settings (some (galaxyAt settings p)) =
      ((galaxyAt settings p).getDistance settings (some (galaxyAt settings q)) : ℝ) := by
  intro settings p q
  exact (getDistance_is_shortest settings (getCoords_galaxyAt p) (getCoords_galaxyAt q) p.x_bounds p.y_bounds
    q.x_bounds q.y_bounds).2.1

/-- One layer as it is computed, on positions that are scaled. -/
theorem layered_of_if {α : Type} {d : α → α → ℝ} (position : α → ℤ) {scale : ℤ} (hscale : 0 ≤ scale)
    (p q : α) :
    d p q + ((scale * if d p q = 0 then
        if position p < position q then position q - position p else position p - position q
      else position p + position q : ℤ) : ℝ) =
      layered d (fun p => (scale * position p : ℤ)) p q := by
  rw [abs_of_if]
  by_cases hzero : d p q = 0
  · have habs : scale * |position p - position q| = |scale * position p - scale * position q| := by
      rw [← mul_sub, abs_mul, abs_of_nonneg hscale]
    rw [layered_of_eq_zero hzero, if_pos hzero, hzero, zero_add, habs]
    push_cast
    rfl
  · rw [layered_of_ne_zero hzero, if_neg hzero]
    push_cast
    ring

/-- A sunsystem lies in a cell of the grid. -/
structure SunsystemAt (settings : Settings) (world : Universe) (sunsystem : Sunsystem)
    (p : Place settings.worldLength) : Prop where
  galaxy : world.galaxies.get sunsystem.galaxy = some (galaxyAt settings p.cell)
  y : sunsystem.y = p.y

/-- A planet lies at a place. -/
structure PlanetAt (settings : Settings) (world : Universe) (planet : Planet)
    (p : Place settings.worldLength) : Prop where
  sunsystem : ∃ sunsystem, world.sunsystems.get planet.sunsystem = some sunsystem ∧
    SunsystemAt settings world sunsystem p
  z : planet.z = p.z

section At

variable {world : Universe} {p q : Place settings.worldLength}

theorem SunsystemAt.getDistance {sunsystem sunsystem' : Sunsystem} (hfactor : 1 ≤ settings.worldDistanceFactor)
    (hp : SunsystemAt settings world sunsystem p) (hq : SunsystemAt settings world sunsystem' q) :
    sunsystem.getDistance settings world (some sunsystem') =
      some (Place.sunsystemDistance settings.worldDistanceFactor p q) := by
  have hnonneg := (Place.isDistance_galaxy hfactor).nonneg p q
  have hgalaxy : (galaxyAt settings p.cell).getDistance settings (some (galaxyAt settings q.cell)) =
      Place.galaxyDistance settings.worldDistanceFactor p q := getDistance_galaxyAt p.cell q.cell
  unfold Sunsystem.getDistance
  simp only [hp.galaxy, hq.galaxy, hp.y, hq.y, hgalaxy, Option.bind_eq_bind, Option.bind_some, ofInt_real,
    Int.cast_zero]
  rw [if_neg hnonneg.not_gt]
  exact congrArg some (layered_of_if Place.y (by omega) p q)

theorem PlanetAt.getDistance {planet planet' : Planet} (hfactor : 1 ≤ settings.worldDistanceFactor)
    (hp : PlanetAt settings world planet p) (hq : PlanetAt settings world planet' q) :
    planet.getDistance settings world (some planet') =
      some (Place.distance settings.worldDistanceFactor p q) := by
  obtain ⟨sunsystem, hsunsystem, hpsun⟩ := hp.sunsystem
  obtain ⟨sunsystem', hsunsystem', hqsun⟩ := hq.sunsystem
  have hnonneg := (Place.isDistance_sunsystem hfactor).nonneg p q
  have hlayer := layered_of_if (d := Place.sunsystemDistance settings.worldDistanceFactor) Place.z
    zero_le_one p q
  simp only [one_mul] at hlayer
  unfold Planet.getDistance
  simp only [hsunsystem, hsunsystem', hp.z, hq.z, hpsun.getDistance hfactor hqsun, Option.bind_eq_bind,
    Option.bind_some, ofInt_real, Int.cast_zero]
  rw [if_neg hnonneg.not_gt]
  exact congrArg some hlayer

/-- Every planet of a well formed world lies at a place. -/
theorem WellFormed.exists_planetAt (hworld : WellFormed settings world) {id : ℕ} {planet : Planet}
    (hplanet : world.planets.get id = some planet) :
    ∃ p : Place settings.worldLength, PlanetAt settings world planet p := by
  obtain ⟨sunsystem, hsunsystem⟩ := hworld.sunsystem id planet hplanet
  obtain ⟨galaxy, hgalaxy⟩ := hworld.galaxy _ sunsystem hsunsystem
  obtain ⟨a, b, hx⟩ := hworld.lies _ galaxy hgalaxy
  have hy : 1 ≤ sunsystem.y := by
    refine ((hworld.sunsystems _ galaxy hgalaxy).bounds sunsystem.y (List.mem_map_of_mem ?_)).1
    exact Table.mem_having.mpr ⟨decide_eq_true rfl, _, hsunsystem⟩
  have hz : 1 ≤ planet.z := by
    refine ((hworld.planets _ sunsystem hsunsystem).bounds planet.z (List.mem_map_of_mem ?_)).1
    exact Table.mem_having.mpr ⟨decide_eq_true rfl, id, hplanet⟩
  let cell : Cell settings.worldLength := ⟨a % settings.worldLength, b % settings.worldLength,
    settings.emod_nonneg a, settings.emod_lt a, settings.emod_nonneg b, settings.emod_lt b⟩
  refine ⟨⟨cell, sunsystem.y, planet.z, hy, hz⟩, ⟨sunsystem, hsunsystem, ?_, rfl⟩, rfl⟩
  rw [hgalaxy]
  exact congrArg (some ∘ Galaxy.mk) hx

/-- No two planets lie at the same place. -/
theorem WellFormed.eq_of_planetAt (hworld : WellFormed settings world) {id id' : ℕ} {planet planet' : Planet}
    (hget : world.planets.get id = some planet) (hget' : world.planets.get id' = some planet')
    (hplanet : PlanetAt settings world planet p) (hplanet' : PlanetAt settings world planet' p) :
    id = id' := by
  obtain ⟨sunsystem, hsunsystem, hat⟩ := hplanet.sunsystem
  obtain ⟨sunsystem', hsunsystem', hat'⟩ := hplanet'.sunsystem
  have hcell : galaxyAt settings p.cell = ⟨cell settings p.cell.x p.cell.y⟩ := by
    rw [cell_eq, Int.emod_eq_of_lt p.cell.x_nonneg p.cell.x_lt,
      Int.emod_eq_of_lt p.cell.y_nonneg p.cell.y_lt, galaxyAt]
  have hgalaxy : sunsystem.galaxy = sunsystem'.galaxy :=
    hworld.one p.cell.x p.cell.y _ _ _ _ hat.galaxy (congrArg Galaxy.x hcell) hat'.galaxy
      (congrArg Galaxy.x hcell)
  have hsun : planet.sunsystem = planet'.sunsystem :=
    Table.eq_of_nodup_having (hworld.sunsystems _ _ hat.galaxy).nodup hsunsystem (decide_eq_true rfl)
      hsunsystem' (decide_eq_true hgalaxy.symm) (hat.y.trans hat'.y.symm)
  exact Table.eq_of_nodup_having (hworld.planets _ _ hsunsystem).nodup hget (decide_eq_true rfl)
    hget' (decide_eq_true hsun.symm) (hplanet.z.trans hplanet'.z.symm)

end At

/-- Between planets of a generated world the distance is never negative, zero from a planet to
itself only, symmetric, and no longer than any detour. -/
theorem distance_is_metric {R : Type} [Add R] [Sub R] [Floating R] {settings : Settings}
    (hfactor : 1 ≤ settings.worldDistanceFactor) {calls : List Call} {world : Universe}
    (hrun : run (step R settings) .empty calls = some world) {p q r : ℕ} {first second third : Planet}
    (hp : world.planets.get p = some first) (hq : world.planets.get q = some second)
    (hr : world.planets.get r = some third) :
    ∃ pq qr pr : ℝ, first.getDistance settings world (some second) = some pq ∧
      second.getDistance settings world (some first) = some pq ∧
      second.getDistance settings world (some third) = some qr ∧
      first.getDistance settings world (some third) = some pr ∧
      0 ≤ pq ∧ (pq = 0 ↔ p = q) ∧ pr ≤ pq + qr := by
  have hworld := wellFormed_run hrun
  obtain ⟨a, ha⟩ := hworld.exists_planetAt hp
  obtain ⟨b, hb⟩ := hworld.exists_planetAt hq
  obtain ⟨c, hc⟩ := hworld.exists_planetAt hr
  have hdistance : IsDistance
      (Place.distance settings.worldDistanceFactor : Place settings.worldLength → _ → ℝ) :=
    Place.isDistance hfactor
  refine ⟨_, _, _, ha.getDistance hfactor hb, ?_, hb.getDistance hfactor hc, ha.getDistance hfactor hc,
    hdistance.nonneg a b, ?_, hdistance.triangle a b c⟩
  · rw [hb.getDistance hfactor ha, hdistance.symm]
  · constructor
    · intro hzero
      obtain rfl := (Place.distance_eq_zero hfactor).mp hzero
      exact hworld.eq_of_planetAt hp hq ha hb
    · rintro rfl
      obtain rfl := Option.some.inj (hp.symm.trans hq)
      rw [Option.some.inj ((ha.getDistance hfactor hb).symm.trans (ha.getDistance hfactor ha))]
      exact hdistance.self a

theorem one_le_small : (1 : ℤ) ≤ 3 := by norm_num

/-- Three planets of a single galaxy. -/
theorem distance_is_metric_sample :
    let settings : Settings := ⟨3, 60, one_le_small⟩
    let first : Planet := ⟨1, 0, 1⟩
    let second : Planet := ⟨2, 1, 1⟩
    let third : Planet := ⟨1, 0, 2⟩
    let world := generateAt settings default (.int 5) (.int (-1)) .empty
    ∃ pq qr pr : ℝ, first.getDistance settings world (some second) = some pq ∧
      second.getDistance settings world (some first) = some pq ∧
      second.getDistance settings world (some third) = some qr ∧
      first.getDistance settings world (some third) = some pr ∧
      0 ≤ pq ∧ (pq = 0 ↔ 1 = 2) ∧ pr ≤ pq + qr :=
  distance_is_metric (by norm_num)
    (show run (step Double _) .empty [.generateAt (.int 5) (.int (-1)) default] = some _ from rfl) (by decide) (by decide) (r := 5) (by decide)

end Mmog.Map
