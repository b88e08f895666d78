import Mmog.Galaxies.Coords

/-!
# What is generated

Chance decides how many sunsystems and planets a galaxy gets and where they
lie.  Whatever is drawn, the positions are different, every sunsystem has an
ordinary planet, and a cell is filled once.
-/

namespace Mmog.Map

open Ruby

/-! ## Positions -/

/-- Four to eight different positions from 1 to 8. -/
structure Positions (positions : List ℤ) : Prop where
  four_le : 4 ≤ positions.length
  le_eight : positions.length ≤ 8
  nodup : positions.Nodup
  bounds : ∀ n ∈ positions, 1 ≤ n ∧ n ≤ 8

theorem Shuffle.at_injective (pos : Shuffle) : Function.Injective pos.at := by
  intro m n heq
  have hval : ((pos.order m : ℕ) : ℤ) = (pos.order n : ℕ) := add_right_cancel heq
  exact pos.order.injective (Fin.ext (by exact_mod_cast hval))

theorem Shuffle.at_bounds (pos : Shuffle) (n : Fin 8) : 1 ≤ pos.at n ∧ pos.at n ≤ 8 := by
  have hlt := (pos.order n).isLt
  unfold Shuffle.at
  omega

/-- Different places of a shuffled list hold different positions. -/
theorem Shuffle.positions (pos : Shuffle) {places : List (Fin 8)} (hplaces : places.Nodup)
    (hfour : 4 ≤ places.length) : Positions (places.map pos.at) where
  four_le := by rwa [List.length_map]
  le_eight := by
    rw [List.length_map]
    exact hplaces.length_le_card
  nodup := hplaces.map pos.at_injective
  bounds := by
    intro n hn
    obtain ⟨place, -, rfl⟩ := List.mem_map.mp hn
    exact pos.at_bounds place

namespace GalaxyDraw

variable (draw : GalaxyDraw)

/-- The places of the shuffled list that are read. -/
def places : List (Fin 8) := (List.finRange draw.i).map fun y => y.castLE draw.i_le

theorem positions : Positions (draw.places.map draw.pos.at) := by
  apply draw.pos.positions
  · exact (List.nodup_finRange draw.i).map (Fin.castLE_injective draw.i_le)
  · rw [places, List.length_map, List.length_finRange]
    exact Nat.le_add_left 4 _

end GalaxyDraw

namespace SunsystemDraw

variable (draw : SunsystemDraw)

def ordinaryPlaces : List (Fin 8) :=
  (List.finRange draw.k).map fun k2 => k2.castLE draw.k_le

def specialPlaces : List (Fin 8) := (List.finRange (draw.j - draw.k)).map draw.rest

theorem positions : Positions ((draw.ordinaryPlaces ++ draw.specialPlaces).map draw.pos2.at) := by
  have hk := draw.k_le_j
  apply draw.pos2.positions
  · refine List.Nodup.append ?_ ?_ ?_
    · exact (List.nodup_finRange draw.k).map (Fin.castLE_injective _)
    · refine (List.nodup_finRange _).map fun m n heq => Fin.ext ?_
      exact Nat.add_right_cancel (Fin.mk.inj_iff.mp heq)
    · -- the offset leaves out what the ordinary planets have taken
      rintro place hordinary hspecial
      obtain ⟨m, -, rfl⟩ := List.mem_map.mp hordinary
      obtain ⟨n, -, heq⟩ := List.mem_map.mp hspecial
      have hval : (n : ℕ) + draw.k = m := congrArg Fin.val heq
      have hlt := m.isLt
      omega
  · rw [ordinaryPlaces, specialPlaces, List.length_append, List.length_map, List.length_map,
      List.length_finRange, List.length_finRange]
    have hj : 4 ≤ draw.j := Nat.le_add_left 4 _
    omega

/-- The planets of the new sunsystem `s`. -/
def rows (s : ℕ) : List Planet :=
  draw.ordinaryPlaces.map (fun n => ⟨draw.pos2.at n, 0, s⟩) ++
    draw.specialPlaces.map fun n => ⟨draw.pos2.at n, (draw.special n : ℕ) + 1, s⟩

theorem sunsystem_of_mem_rows {s : ℕ} {planet : Planet} (hmem : planet ∈ draw.rows s) :
    planet.sunsystem = s := by
  rcases List.mem_append.mp hmem with hmem | hmem
  · obtain ⟨n, -, rfl⟩ := List.mem_map.mp hmem
    rfl
  · obtain ⟨n, -, rfl⟩ := List.mem_map.mp hmem
    rfl

theorem positions_rows (s : ℕ) : Positions ((draw.rows s).map Planet.z) := by
  have hrows : (draw.rows s).map Planet.z =
      (draw.ordinaryPlaces ++ draw.specialPlaces).map draw.pos2.at := by
    rw [rows, List.map_append, List.map_append, List.map_map, List.map_map]
    rfl
  rw [hrows]
  exact draw.positions

theorem exists_ordinary (s : ℕ) : ∃ planet ∈ draw.rows s, planet.special = 0 := by
  have hmem : (⟨0, draw.k_pos⟩ : Fin draw.k) ∈ List.finRange draw.k := List.mem_finRange _
  exact ⟨_, List.mem_append_left _ (List.mem_map_of_mem (List.mem_map_of_mem hmem)), rfl⟩

end SunsystemDraw

/-! ## Sunsystems -/

theorem foldl_createPlanet {ι : Type} (l : List ι) (z : ι → ℤ) (special : ℤ) (s : ℕ) (roll : ι → Fin 7)
    (world : Universe) :
    l.foldl (fun world n => createPlanet (z n) special s (roll n) world) world =
      { world with
        planets := world.planets.createAll (l.map fun n =>
          ⟨z n, if special = 0 then special else (roll n : ℕ) + 1, s⟩) } := by
  induction l generalizing world with
  | nil => rfl
  | cons n l ih =>
      rw [List.foldl_cons, ih]
      rfl

/-- A sunsystem is created with all of its planets. -/
theorem createSunsystem_eq (draw : SunsystemDraw) (y : ℤ) (g : ℕ) (world : Universe) :
    createSunsystem draw y g world =
      { world with
        sunsystems := world.sunsystems.create ⟨y, g⟩
        planets := world.planets.createAll (draw.rows world.sunsystems.nextId) } := by
  unfold createSunsystem
  simp only [foldl_createPlanet]
  rw [SunsystemDraw.rows, Table.createAll, Table.createAll, Table.createAll, List.foldl_append,
    SunsystemDraw.ordinaryPlaces, SunsystemDraw.specialPlaces, List.map_map, List.map_map]
  rfl

@[simp] theorem galaxies_createSunsystem (draw : SunsystemDraw) (y : ℤ) (g : ℕ) (world : Universe) :
    (createSunsystem draw y g world).galaxies = world.galaxies := by
  rw [createSunsystem_eq]

theorem galaxies_createSunsystems (draw : GalaxyDraw) (g : ℕ) (l : List (Fin 8)) (world : Universe) :
    (l.foldl (fun world n => createSunsystem (draw.sunsystem n) (draw.pos.at n) g world) world).galaxies =
      world.galaxies := by
  induction l generalizing world with
  | nil => rfl
  | cons n l ih => rw [List.foldl_cons, ih, galaxies_createSunsystem]

namespace Universe

def sunsystemsOf (world : Universe) (g : ℕ) : List Sunsystem :=
  world.sunsystems.having fun sunsystem => sunsystem.galaxy = g

def planetsOf (world : Universe) (s : ℕ) : List Planet :=
  world.planets.having fun planet => planet.sunsystem = s

end Universe

/-- Every sunsystem lies in a galaxy and has its planets, and every planet lies in a sunsystem. -/
structure Furnished (world : Universe) : Prop where
  galaxy : ∀ s sunsystem, world.sunsystems.get s = some sunsystem →
    ∃ galaxy, world.galaxies.get sunsystem.galaxy = some galaxy
  sunsystem : ∀ p planet, world.planets.get p = some planet →
    ∃ sunsystem, world.sunsystems.get planet.sunsystem = some sunsystem
  planets : ∀ s sunsystem, world.sunsystems.get s = some sunsystem →
    Positions ((world.planetsOf s).map Planet.z)
  ordinary : ∀ s sunsystem, world.sunsystems.get s = some sunsystem →
    ∃ planet ∈ world.planetsOf s, planet.special = 0

theorem furnished_empty : Furnished .empty where
  galaxy := Table.all_empty _
  sunsystem := Table.all_empty _
  planets := fun _ _ hget => absurd hget.symm (Option.some_ne_none _)
  ordinary := fun _ _ hget => absurd hget.symm (Option.some_ne_none _)

namespace Furnished

variable {world : Universe} (hworld : Furnished world)

include hworld

/-- A sunsystem that does not exist yet has no planets. -/
theorem planetsOf_nextId : world.planetsOf world.sunsystems.nextId = [] := by
  apply List.eq_nil_iff_forall_not_mem.mpr
  intro planet hmem
  obtain ⟨hplanet, p, hget⟩ := Table.mem_having.mp hmem
  obtain ⟨sunsystem, hsunsystem⟩ := hworld.sunsystem p planet hget
  exact Table.ne_nextId hsunsystem (of_decide_eq_true hplanet)

theorem planetsOf_createSunsystem (draw : SunsystemDraw) (y : ℤ) (g s : ℕ) :
    (createSunsystem draw y g world).planetsOf s =
      if s = world.sunsystems.nextId then draw.rows s else world.planetsOf s := by
  rw [createSunsystem_eq]
  change (world.planets.createAll _).having _ = _
  rw [Table.having_createAll]
  split
  · rename_i heq
    subst heq
    have hnone := hworld.planetsOf_nextId
    unfold Universe.planetsOf at hnone
    rw [hnone, List.nil_append, List.filter_eq_self]
    intro planet hmem
    exact decide_eq_true (draw.sunsystem_of_mem_rows hmem)
  · rename_i hne
    have hnone : (draw.rows world.sunsystems.nextId).filter (fun planet => planet.sunsystem = s) = [] := by
      rw [List.filter_eq_nil_iff]
      intro planet hmem heq
      exact hne ((of_decide_eq_true heq).symm.trans (draw.sunsystem_of_mem_rows hmem))
    rw [hnone, List.append_nil, Universe.planetsOf]

theorem createSunsystem (draw : SunsystemDraw) (y : ℤ) {g : ℕ} {row : Galaxy}
    (hg : world.galaxies.get g = some row) : Furnished (createSunsystem draw y g world) := by
  have hget : ∀ s, (Map.createSunsystem draw y g world).sunsystems.get s =
      if s = world.sunsystems.nextId then some ⟨y, g⟩ else world.sunsystems.get s := by
    intro s
    rw [createSunsystem_eq, Table.get_create]
  constructor
  · rw [createSunsystem_eq]
    exact Table.All.create hworld.galaxy ⟨row, hg⟩
  · intro p planet hplanet
    rw [hget]
    split
    · exact ⟨_, rfl⟩
    · rename_i hne
      have hall : (world.planets.createAll (draw.rows world.sunsystems.nextId)).All fun planet =>
          planet.sunsystem ≠ world.sunsystems.nextId →
            ∃ sunsystem, world.sunsystems.get planet.sunsystem = some sunsystem := by
        apply Table.All.createAll
        · intro p planet hget _
          exact hworld.sunsystem p planet hget
        · intro planet hmem hother
          exact absurd (draw.sunsystem_of_mem_rows hmem) hother
      rw [createSunsystem_eq] at hplanet
      exact hall p planet hplanet hne
  · intro s sunsystem hs
    rw [hget] at hs
    rw [hworld.planetsOf_createSunsystem]
    by_cases hnew : s = world.sunsystems.nextId
    · rw [if_pos hnew]
      exact draw.positions_rows s
    · rw [if_neg hnew] at hs ⊢
      exact hworld.planets s sunsystem hs
  · intro s sunsystem hs
    rw [hget] at hs
    rw [hworld.planetsOf_createSunsystem]
    by_cases hnew : s = world.sunsystems.nextId
    · rw [if_pos hnew]
      exact draw.exists_ordinary s
    · rw [if_neg hnew] at hs ⊢
      exact hworld.ordinary s sunsystem hs

/-- The sunsystems of a galaxy are created one after the other. -/
theorem createSunsystems (draw : GalaxyDraw) {g : ℕ} {row : Galaxy}
    (hg : world.galaxies.get g = some row) (l : List (Fin 8)) :
    let next := l.foldl (fun world n => Map.createSunsystem (draw.sunsystem n) (draw.pos.at n) g world) world
    Furnished next ∧ ∀ other, next.sunsystemsOf other =
      world.sunsystemsOf other ++ if other = g then l.map fun n => ⟨draw.pos.at n, g⟩ else [] := by
  induction l generalizing world with
  | nil => exact ⟨hworld, fun other => by simp⟩
  | cons n l ih =>
      have hfirst := hworld.createSunsystem (draw.sunsystem n) (draw.pos.at n) hg
      obtain ⟨hrest, hsunsystems⟩ := ih hfirst (by rwa [galaxies_createSunsystem])
      refine ⟨hrest, fun other => ?_⟩
      have hone : (Map.createSunsystem (draw.sunsystem n) (draw.pos.at n) g world).sunsystemsOf other =
          world.sunsystemsOf other ++ if other = g then [⟨draw.pos.at n, g⟩] else [] := by
        rw [createSunsystem_eq]
        change (world.sunsystems.create _).having _ = _
        rw [Table.having_create, Universe.sunsystemsOf]
        by_cases heq : other = g
        · simp [heq]
        · simp [heq, Ne.symm heq]
      rw [List.foldl_cons, hsunsystems, hone, List.append_assoc]
      split <;> rfl

end Furnished

/-! ## Galaxies -/

section Generate

variable (settings : Settings)

/-- A galaxy lies in the cell of `(a, b)`. -/
def Holds (world : Universe) (a b : ℤ) : Prop :=
  ∃ g galaxy, world.galaxies.get g = some galaxy ∧ galaxy.x = cell settings a b

/-- The galaxies are told apart by the cells in which they lie, and are full. -/
structure WellFormed (world : Universe) : Prop extends Furnished world where
  lies : ∀ g galaxy, world.galaxies.get g = some galaxy → ∃ a b, galaxy.x = cell settings a b
  one : ∀ a b g galaxy g' galaxy', world.galaxies.get g = some galaxy → galaxy.x = cell settings a b →
    world.galaxies.get g' = some galaxy' → galaxy'.x = cell settings a b → g = g'
  sunsystems : ∀ g galaxy, world.galaxies.get g = some galaxy →
    Positions ((world.sunsystemsOf g).map Sunsystem.y)

variable {settings}

theorem wellFormed_empty : WellFormed settings .empty where
  toFurnished := furnished_empty
  lies := Table.all_empty _
  one := fun _ _ _ _ _ _ hget => absurd hget.symm (Option.some_ne_none _)
  sunsystems := fun _ _ hget => absurd hget.symm (Option.some_ne_none _)

theorem holds_congr {world other : Universe} (hsame : world.galaxies = other.galaxies) {a b : ℤ} :
    Holds settings world a b ↔ Holds settings other a b := by
  rw [Holds, Holds, hsame]

theorem first_isSome (world : Universe) (a b : ℤ) :
    (world.galaxies.first fun galaxy => galaxy.x = cell settings a b).isSome = true ↔
      Holds settings world a b := by
  rw [← not_iff_not, Bool.not_eq_true, Option.isSome_eq_false_iff, Option.isNone_iff_eq_none,
    Table.first_eq_none]
  simp [Holds]

theorem generateAt_of_holds {world : Universe} {a b : ℤ} (hholds : Holds settings world a b)
    (draw : GalaxyDraw) : generateAt settings draw (.int a) (.int b) world = world :=
  if_pos (Or.inr ((first_isSome world a b).mpr hholds))

theorem generateAt_of_not_holds {world : Universe} {a b : ℤ} (hfree : ¬Holds settings world a b)
    (draw : GalaxyDraw) : generateAt settings draw (.int a) (.int b) world =
      draw.places.foldl (fun next n =>
          createSunsystem (draw.sunsystem n) (draw.pos.at n) world.galaxies.nextId next)
        { world with galaxies := world.galaxies.create ⟨cell settings a b⟩ } := by
  have hpos := cell_pos settings a b
  have hcell : ¬(cell settings a b < 0 ∨
      (world.galaxies.first fun galaxy => galaxy.x = cell settings a b).isSome = true) := by
    rw [first_isSome]
    exact not_or.mpr ⟨by omega, hfree⟩
  rw [GalaxyDraw.places, List.foldl_map]
  exact if_neg hcell

theorem galaxies_generateAt {world : Universe} {a b : ℤ} (hfree : ¬Holds settings world a b)
    (draw : GalaxyDraw) : (generateAt settings draw (.int a) (.int b) world).galaxies =
      world.galaxies.create ⟨cell settings a b⟩ := by
  rw [generateAt_of_not_holds hfree, galaxies_createSunsystems]

/-- One cell is filled, and nothing is emptied. -/
theorem holds_generateAt (world : Universe) (draw : GalaxyDraw) (x y a b : ℤ) :
    Holds settings (generateAt settings draw (.int x) (.int y) world) a b ↔
      Holds settings world a b ∨ cell settings x y = cell settings a b := by
  by_cases hholds : Holds settings world x y
  · rw [generateAt_of_holds hholds]
    refine ⟨Or.inl, Or.rec id fun heq => ?_⟩
    rwa [Holds, ← heq]
  · rw [Holds, galaxies_generateAt hholds]
    constructor
    · rintro ⟨g, galaxy, hg, hx⟩
      rw [Table.get_create] at hg
      split at hg
      · cases hg
        exact Or.inr hx
      · exact Or.inl ⟨g, galaxy, hg, hx⟩
    · rintro (⟨g, galaxy, hg, hx⟩ | heq)
      · exact ⟨g, galaxy, Table.get_create_of_some _ hg, hx⟩
      · exact ⟨_, _, Table.get_create_self _ _, heq⟩

/-- Coordinates that are no integers generate nothing. -/
theorem generateAt_of_negative {world : Universe} {x y : Numeric} (hx : Galaxy.calcX settings x y = -1)
    (draw : GalaxyDraw) : generateAt settings draw x y world = world := by
  unfold generateAt
  rw [hx]
  exact if_pos (Or.inl (by norm_num))

theorem generateAt_cases (world : Universe) (draw : GalaxyDraw) (x y : Numeric) :
    generateAt settings draw x y world = world ∨
      ∃ a b, x = .int a ∧ y = .int b ∧ ¬Holds settings world a b := by
  cases x with
  | float _ => exact Or.inl (generateAt_of_negative rfl draw)
  | int a =>
      cases y with
      | float _ => exact Or.inl (generateAt_of_negative rfl draw)
      | int b =>
          by_cases hholds : Holds settings world a b
          · exact Or.inl (generateAt_of_holds hholds draw)
          · exact Or.inr ⟨a, b, rfl, rfl, hholds⟩

namespace WellFormed

variable {world : Universe} (hworld : WellFormed settings world)

include hworld

/-- A new galaxy leaves the sunsystems linked. -/
theorem furnished_createGalaxy (row : Galaxy) :
    Furnished { world with galaxies := world.galaxies.create row } where
  galaxy := by
    intro s sunsystem hget
    obtain ⟨galaxy, hgalaxy⟩ := hworld.galaxy s sunsystem hget
    exact ⟨galaxy, Table.get_create_of_some row hgalaxy⟩
  sunsystem := hworld.sunsystem
  planets := hworld.planets
  ordinary := hworld.ordinary

/-- A galaxy that does not exist yet has no sunsystems. -/
theorem sunsystemsOf_nextId : world.sunsystemsOf world.galaxies.nextId = [] := by
  apply List.eq_nil_iff_forall_not_mem.mpr
  intro sunsystem hmem
  obtain ⟨hsunsystem, s, hget⟩ := Table.mem_having.mp hmem
  obtain ⟨galaxy, hgalaxy⟩ := hworld.galaxy s sunsystem hget
  exact Table.ne_nextId hgalaxy (of_decide_eq_true hsunsystem)

/-- What happens to an empty cell. -/
theorem generateAt_spec {a b : ℤ} (hfree : ¬Holds settings world a b) (draw : GalaxyDraw) :
    let next := generateAt settings draw (.int a) (.int b) world
    Furnished next ∧ ∀ g, next.sunsystemsOf g = world.sunsystemsOf g ++
      if g = world.galaxies.nextId then
        draw.places.map fun n => ⟨draw.pos.at n, world.galaxies.nextId⟩ else [] := by
  rw [generateAt_of_not_holds hfree]
  exact (hworld.furnished_createGalaxy ⟨cell settings a b⟩).createSunsystems draw
    (Table.get_create_self _ _) draw.places

theorem generateAt (draw : GalaxyDraw) (x y : Numeric) :
    WellFormed settings (generateAt settings draw x y world) := by
  obtain hsame | ⟨a, b, rfl, rfl, hfree⟩ : Map.generateAt settings draw x y world = world ∨ _ :=
    generateAt_cases world draw x y
  · rwa [hsame]
  obtain ⟨hfurnished, hsunsystems⟩ := hworld.generateAt_spec hfree draw
  have hget : ∀ {g galaxy}, (Map.generateAt settings draw (.int a) (.int b) world).galaxies.get g =
      some galaxy → g = world.galaxies.nextId ∧ galaxy = ⟨cell settings a b⟩ ∨
        world.galaxies.get g = some galaxy := by
    intro g galaxy hg
    rw [galaxies_generateAt hfree, Table.get_create] at hg
    split at hg
    · exact Or.inl ⟨by assumption, (Option.some.inj hg).symm⟩
    · exact Or.inr hg
  refine ⟨hfurnished, ?_, ?_, ?_⟩
  · intro g galaxy hg
    rcases hget hg with ⟨-, rfl⟩ | hold
    · exact ⟨a, b, rfl⟩
    · exact hworld.lies g galaxy hold
  · intro c d g galaxy g' galaxy' hg hx hg' hx'
    rcases hget hg with ⟨rfl, rfl⟩ | hold
    · rcases hget hg' with ⟨rfl, rfl⟩ | hold'
      · rfl
      · exact absurd ⟨g', galaxy', hold', hx'.trans hx.symm⟩ hfree
    · rcases hget hg' with ⟨rfl, rfl⟩ | hold'
      · exact absurd ⟨g, galaxy, hold, hx.trans hx'.symm⟩ hfree
      · exact hworld.one c d g galaxy g' galaxy' hold hx hold' hx'
  · intro g galaxy hg
    rw [hsunsystems]
    by_cases hnew : g = world.galaxies.nextId
    · rw [if_pos hnew, hnew, hworld.sunsystemsOf_nextId, List.nil_append, List.map_map]
      exact draw.positions
    · rw [if_neg hnew, List.append_nil]
      rcases hget hg with ⟨heq, -⟩ | hold
      · exact absurd heq hnew
      · exact hworld.sunsystems g galaxy hold

end WellFormed

end Generate

end Mmog.Map
