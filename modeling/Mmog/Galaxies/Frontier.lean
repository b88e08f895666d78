import Mmog.Galaxies.Generation

/-!
# The frontier

Whatever is mentioned gets its whole neighbourhood, if its cell is read back
from the number of its galaxy.  In binary64 that is so in every world shorter
than `2 ^ 27`, and in no longer one.
-/

namespace Mmog.Map

open Ruby

variable {settings : Settings}

/-! ## Neighbourhoods -/

theorem holds_foldl {ι : Type} {fill : ι → Universe → Universe} {filled : ι → Prop} {a b : ℤ}
    (hfill : ∀ n world, Holds settings (fill n world) a b ↔ Holds settings world a b ∨ filled n)
    (l : List ι) (world : Universe) :
    Holds settings (l.foldl (fun world n => fill n world) world) a b ↔
      Holds settings world a b ∨ ∃ n ∈ l, filled n := by
  induction l generalizing world with
  | nil => simp
  | cons n l ih =>
      rw [List.foldl_cons, ih, hfill, or_assoc]
      simp

theorem holds_generateNear (world : Universe) (draws : Draws) (x y a b : ℤ) :
    Holds settings (generateNear settings draws (.int x) (.int y) world) a b ↔
      Holds settings world a b ∨
        ∃ m n : Fin 3, cell settings (x - 1 + (m : ℕ)) (y - 1 + (n : ℕ)) = cell settings a b := by
  have hrow : ∀ (m : Fin 3) (world : Universe),
      Holds settings ((List.finRange 3).foldl (fun world n =>
        generateAt settings (draws m n) (.int (x - 1 + (m : ℕ))) (.int (y - 1 + (n : ℕ))) world) world) a b ↔
      Holds settings world a b ∨
        ∃ n : Fin 3, cell settings (x - 1 + (m : ℕ)) (y - 1 + (n : ℕ)) = cell settings a b := by
    intro m world
    have hcell : ∀ (n : Fin 3) (world : Universe), Holds settings
        (generateAt settings (draws m n) (.int (x - 1 + (m : ℕ))) (.int (y - 1 + (n : ℕ))) world) a b ↔ _ :=
      fun n world => holds_generateAt world (draws m n) _ _ a b
    have hcells := holds_foldl hcell (List.finRange 3) world
    simp only [List.mem_finRange, true_and] at hcells
    exact hcells
  have hall := holds_foldl hrow (List.finRange 3) world
  simp only [List.mem_finRange, true_and] at hall
  exact hall

theorem WellFormed.foldl {ι : Type} {fill : ι → Universe → Universe}
    (hfill : ∀ n world, WellFormed settings world → WellFormed settings (fill n world))
    (l : List ι) {world : Universe} (hworld : WellFormed settings world) :
    WellFormed settings (l.foldl (fun world n => fill n world) world) := by
  induction l generalizing world with
  | nil => exact hworld
  | cons n l ih => exact ih (hfill n world hworld)

theorem WellFormed.generateNear {world : Universe} (hworld : WellFormed settings world) (draws : Draws)
    (x y : Numeric) : WellFormed settings (generateNear settings draws x y world) :=
  WellFormed.foldl (fun _ _ hworld =>
    WellFormed.foldl (fun _ _ hworld => hworld.generateAt _ _ _) _ hworld) _ hworld

/-- Discovering planets generates their galaxy and nothing else. -/
theorem discoverNewPlanetAt_world (settings : Settings) (draw : GalaxyDraw) (shuffle : List ℕ → List ℕ)
    (x y count : Numeric) (world : Universe) :
    (discoverNewPlanetAt settings draw shuffle x y count world).2 = generateAt settings draw x y world ∨
      (discoverNewPlanetAt settings draw shuffle x y count world).2 = world := by
  unfold discoverNewPlanetAt
  cases x with
  | float _ => exact Or.inr rfl
  | int x =>
      cases y with
      | float _ => exact Or.inr rfl
      | int y =>
          cases count with
          | float _ => exact Or.inr rfl
          | int count =>
              dsimp only
              cases (generateAt settings draw (.int x) (.int y) world).galaxies.first _ with
              | none => exact Or.inl rfl
              | some g => exact Or.inl rfl

/-! ## What is mentioned -/

/-- The galaxy a call mentions. -/
def Call.mentioned (world : Universe) : Call → Option Galaxy
  | .mentionGalaxy id _ => world.galaxies.get id
  | .mentionSunsystem id _ | .sunsystemSeenBy id _ _ _ =>
      (world.sunsystems.get id).bind fun sunsystem => world.galaxies.get sunsystem.galaxy
  | .mentionPlanet id _ | .planetSeenBy id _ _ _ =>
      (world.planets.get id).bind fun planet =>
        (world.sunsystems.get planet.sunsystem).bind fun sunsystem => world.galaxies.get sunsystem.galaxy
  | _ => none

@[simp] theorem galaxies_show (world : Universe) (s : ℕ) (user : Option ℕ) (isVisible : Bool) :
    (world.show s user isVisible).galaxies = world.galaxies := by
  unfold Universe.show
  split
  · split <;> rfl
  · rfl

theorem WellFormed.show {world : Universe} (hworld : WellFormed settings world) (s : ℕ)
    (user : Option ℕ) (isVisible : Bool) : WellFormed settings (world.show s user isVisible) := by
  unfold Universe.show
  split
  · split
    · exact hworld
    · exact ⟨⟨hworld.galaxy, hworld.sunsystem, hworld.planets, hworld.ordinary⟩, hworld.lies, hworld.one,
        hworld.sunsystems⟩
  · exact hworld

section Reading

variable (R : Type) [Add R] [Sub R] [Floating R]

theorem step_of_mentioned {world : Universe} {call : Call} {galaxy : Galaxy}
    (hmentioned : call.mentioned world = some galaxy) :
    ∃ draws next, step R settings world call = some next ∧
      next.galaxies = (galaxy.mention R settings draws world).galaxies := by
  cases call with
  | generateAt x y draw => cases hmentioned
  | generateNear x y draws => cases hmentioned
  | discoverNewPlanetAt x y count draw shuffle => cases hmentioned
  | mentionGalaxy id draws =>
      exact ⟨draws, _, congrArg (Option.map _) hmentioned, rfl⟩
  | mentionSunsystem id draws =>
      obtain ⟨sunsystem, hsunsystem, hgalaxy⟩ := Option.bind_eq_some_iff.mp hmentioned
      refine ⟨draws, galaxy.mention R settings draws world, ?_, rfl⟩
      simp [step, Sunsystem.mention, hsunsystem, hgalaxy]
  | mentionPlanet id draws =>
      obtain ⟨planet, hplanet, hrest⟩ := Option.bind_eq_some_iff.mp hmentioned
      obtain ⟨sunsystem, hsunsystem, hgalaxy⟩ := Option.bind_eq_some_iff.mp hrest
      refine ⟨draws, galaxy.mention R settings draws world, ?_, rfl⟩
      simp [step, Planet.mention, Sunsystem.mention, hplanet, hsunsystem, hgalaxy]
  | sunsystemSeenBy id user isVisible draws =>
      obtain ⟨sunsystem, hsunsystem, hgalaxy⟩ := Option.bind_eq_some_iff.mp hmentioned
      refine ⟨draws, (galaxy.mention R settings draws world).show id user isVisible, ?_, galaxies_show _ _ _ _⟩
      simp [step, Sunsystem.seenBy, Sunsystem.mention, hsunsystem, hgalaxy]
  | planetSeenBy id user isVisible draws =>
      obtain ⟨planet, hplanet, hrest⟩ := Option.bind_eq_some_iff.mp hmentioned
      obtain ⟨sunsystem, hsunsystem, hgalaxy⟩ := Option.bind_eq_some_iff.mp hrest
      refine ⟨draws, (galaxy.mention R settings draws world).show planet.sunsystem user isVisible, ?_,
        galaxies_show _ _ _ _⟩
      simp [step, Planet.seenBy, Planet.mention, Sunsystem.mention, hplanet, hsunsystem, hgalaxy]

variable {R}

/-- Every call keeps the world well formed, however the coordinates are read. -/
theorem WellFormed.step {world next : Universe} {call : Call} (hworld : WellFormed settings world)
    (hstep : step R settings world call = some next) : WellFormed settings next := by
  have hgalaxy : ∀ (galaxy : Galaxy) draws, WellFormed settings (galaxy.mention R settings draws world) :=
    fun galaxy draws => hworld.generateNear draws _ _
  have hsunsystem : ∀ (sunsystem : Sunsystem) draws after,
      sunsystem.mention R settings draws world = some after → WellFormed settings after := by
    intro sunsystem draws after hafter
    obtain ⟨galaxy, -, rfl⟩ := Option.map_eq_some_iff.mp hafter
    exact hgalaxy galaxy draws
  have hplanet : ∀ (planet : Planet) draws after,
      planet.mention R settings draws world = some after → WellFormed settings after := by
    intro planet draws after hafter
    obtain ⟨sunsystem, -, hmention⟩ := Option.bind_eq_some_iff.mp hafter
    exact hsunsystem sunsystem draws after hmention
  cases call with
  | generateAt x y draw =>
      cases hstep
      exact hworld.generateAt draw x y
  | generateNear x y draws =>
      cases hstep
      exact hworld.generateNear draws x y
  | discoverNewPlanetAt x y count draw shuffle =>
      cases hstep
      rcases discoverNewPlanetAt_world settings draw shuffle x y count world with heq | heq
      · rw [heq]
        exact hworld.generateAt draw x y
      · rwa [heq]
  | mentionGalaxy id draws =>
      obtain ⟨galaxy, -, rfl⟩ := Option.map_eq_some_iff.mp hstep
      exact hgalaxy galaxy draws
  | mentionSunsystem id draws =>
      obtain ⟨sunsystem, -, hmention⟩ := Option.bind_eq_some_iff.mp hstep
      exact hsunsystem sunsystem draws next hmention
  | mentionPlanet id draws =>
      obtain ⟨planet, -, hmention⟩ := Option.bind_eq_some_iff.mp hstep
      exact hplanet planet draws next hmention
  | sunsystemSeenBy id user isVisible draws =>
      obtain ⟨sunsystem, -, hseen⟩ := Option.bind_eq_some_iff.mp hstep
      obtain ⟨after, hmention, rfl⟩ := Option.map_eq_some_iff.mp hseen
      exact (hsunsystem sunsystem draws after hmention).show _ _ _
  | planetSeenBy id user isVisible draws =>
      obtain ⟨planet, -, hseen⟩ := Option.bind_eq_some_iff.mp hstep
      obtain ⟨after, hmention, rfl⟩ := Option.map_eq_some_iff.mp hseen
      exact (hplanet planet draws after hmention).show _ _ _

theorem wellFormed_run {calls : List Call} {world : Universe}
    (hrun : run (step R settings) .empty calls = some world) : WellFormed settings world :=
  run_invariant (fun _ _ _ hworld hstep => WellFormed.step hworld hstep) wellFormed_empty hrun

variable (R)

/-- What is promised of every world that comes into being. -/
structure Closed (settings : Settings) (world : Universe) : Prop where
  wellFormed : WellFormed settings world
  occupied : ∀ a b draw, Holds settings world a b →
    generateAt settings draw (.int a) (.int b) world = world
  frontier : ∀ call galaxy a b, call.mentioned world = some galaxy → galaxy.x = cell settings a b →
    ∃ next, step R settings world call = some next ∧
      ∀ i j, -1 ≤ i → i ≤ 1 → -1 ≤ j → j ≤ 1 → Holds settings next (a + i) (b + j)

variable {R}

/-- A galaxy whose cell is read back gets its neighbourhood. -/
theorem holds_mention (hreads : ReadsBack settings R) (draws : Draws) (world : Universe)
    {a b i j : ℤ} (hi : -1 ≤ i) (hi' : i ≤ 1) (hj : -1 ≤ j) (hj' : j ≤ 1) :
    Holds settings (Galaxy.mention R settings draws ⟨cell settings a b⟩ world) (a + i) (b + j) := by
  unfold Galaxy.mention
  rw [hreads, holds_generateNear]
  refine Or.inr ⟨⟨(i + 1).toNat, by omega⟩, ⟨(j + 1).toNat, by omega⟩, ?_⟩
  have hcolumn : a % settings.worldLength - 1 + ((i + 1).toNat : ℤ) = a % settings.worldLength + i := by
    omega
  have hrow : b % settings.worldLength - 1 + ((j + 1).toNat : ℤ) = b % settings.worldLength + j := by
    omega
  rw [← cell_add_emod settings a b i j, hcolumn, hrow]

theorem closed_of_readsBack (hreads : ReadsBack settings R) {world : Universe}
    (hworld : WellFormed settings world) : Closed R settings world where
  wellFormed := hworld
  occupied a b draw hholds := generateAt_of_holds hholds draw
  frontier call galaxy a b hmentioned hx := by
    obtain ⟨draws, next, hstep, hgalaxies⟩ : ∃ draws next, step R settings world call = some next ∧
        next.galaxies = (galaxy.mention R settings draws world).galaxies := step_of_mentioned R hmentioned
    refine ⟨next, hstep, fun i j hi hi' hj hj' => ?_⟩
    rw [holds_congr hgalaxies, show galaxy = ⟨cell settings a b⟩ from congrArg Galaxy.mk hx]
    exact holds_mention hreads draws world hi hi' hj hj'

end Reading

/-! ## Long worlds -/

section Long

variable (hlength : 2 ^ 27 ≤ settings.worldLength)

/-- The galaxy in the cell `(0, 2 ^ 27 - 1)` of a world without any other. -/
theorem get_generateAt_edge (draw : GalaxyDraw) :
    (generateAt settings draw (.int 0) (.int (2 ^ 27 - 1)) .empty).galaxies.get 1 =
      some ⟨cell settings 0 (2 ^ 27 - 1)⟩ := by
  have hedge : ¬Holds settings .empty 0 (2 ^ 27 - 1) := by
    rintro ⟨g, galaxy, hg, -⟩
    cases hg
  rw [galaxies_generateAt hedge]
  exact Table.get_create_self _ _

include hlength

/-- In a long world the neighbour of `(0, 2 ^ 27 - 1)` to the upper left stays empty. -/
theorem missing_neighbour (draw : GalaxyDraw) (draws : Draws) :
    ¬Holds settings
      (Galaxy.mention Double settings draws ⟨cell settings 0 (2 ^ 27 - 1)⟩
        (generateAt settings draw (.int 0) (.int (2 ^ 27 - 1)) .empty)) (0 + -1) (2 ^ 27 - 1 + -1) := by
  have hleft : (0 + -1) % settings.worldLength = settings.worldLength - 1 := by
    rw [← Int.add_emod_right, show 0 + -1 + settings.worldLength = settings.worldLength - 1 by ring]
    exact Int.emod_eq_of_lt (by omega) (by omega)
  have hup : (2 ^ 27 - 1 + -1) % settings.worldLength = 2 ^ 27 - 2 :=
    Int.emod_eq_of_lt (by norm_num) (by omega)
  rw [Galaxy.mention, getCoords_edge settings hlength, holds_generateNear, holds_generateAt]
  rintro ((⟨g, galaxy, hg, -⟩ | hsame) | ⟨m, n, hsame⟩)
  · cases hg
  · -- the cell itself lies in another row
    obtain ⟨-, hrow⟩ := (cell_eq_iff settings).mp hsame
    rw [hup, Int.emod_eq_of_lt (by norm_num) (by omega)] at hrow
    norm_num at hrow
  · obtain ⟨hcolumn, hrow⟩ := (cell_eq_iff settings).mp hsame
    rw [hleft] at hcolumn
    rw [hup] at hrow
    have hm := m.isLt
    have hn := n.isLt
    rcases eq_or_lt_of_le hlength with heq | hlt
    · -- the columns filled instead are the first three
      have hwrapped : (2 ^ 27 + 1 - 1 + ((m : ℕ) : ℤ)) % settings.worldLength = (m : ℕ) := by
        rw [← heq, show (2 ^ 27 + 1 - 1 + ((m : ℕ) : ℤ)) = (m : ℕ) + 2 ^ 27 by ring, Int.add_emod_right]
        exact Int.emod_eq_of_lt (by omega) (by omega)
      rw [hwrapped] at hcolumn
      omega
    · -- the rows filled instead are the last two and the first
      have hwrapped : (-1 - 1 + ((n : ℕ) : ℤ)) % settings.worldLength =
          if (n : ℕ) = 2 then 0 else settings.worldLength - 2 + (n : ℕ) := by
        split
        · rename_i htwo
          rw [htwo]
          norm_num
        · rename_i hnot
          rw [← Int.add_emod_right, Int.emod_eq_of_lt (by omega) (by omega)]
          ring
      rw [hwrapped] at hrow
      split at hrow <;> omega

theorem not_closed_of_long :
    ¬Closed Double settings (generateAt settings default (.int 0) (.int (2 ^ 27 - 1)) .empty) := by
  intro hclosed
  have hgalaxy : (generateAt settings default (.int 0) (.int (2 ^ 27 - 1)) .empty).galaxies.get 1 = some _ :=
    get_generateAt_edge default
  obtain ⟨next, hstep, hnear⟩ := hclosed.frontier (.mentionGalaxy 1 default) _ 0 (2 ^ 27 - 1) hgalaxy rfl
  apply missing_neighbour hlength default default
  rw [step, hgalaxy] at hstep
  rw [show Galaxy.mention Double settings default _ _ = next from Option.some.inj hstep]
  exact hnear (-1) (-1) (by norm_num) (by norm_num) (by norm_num) (by norm_num)

end Long

/-- Whatever is called in whatever order and whatever is drawn, the world is well formed and the
neighbourhood of what is mentioned exists, if and only if the world is shorter than `2 ^ 27`. -/
theorem frontier_is_closed (settings : Settings) :
    (∀ calls world, run (step Double settings) .empty calls = some world → Closed Double settings world) ↔
      settings.worldLength < 2 ^ 27 := by
  constructor
  · intro hclosed
    by_contra hlong
    exact not_closed_of_long (not_lt.mp hlong)
      (hclosed [.generateAt (.int 0) (.int (2 ^ 27 - 1)) default] _ rfl)
  · intro hlength calls world hrun
    exact closed_of_readsBack (readsBack_double settings hlength) (wellFormed_run hrun)

theorem one_le_long : (1 : ℤ) ≤ 2 ^ 27 := by norm_num

/-- A world of length `2 ^ 27`: a galaxy is generated and mentioned, and a neighbour is missing. -/
theorem neighbour_of_the_edge_missing :
    ∃ world, run (step Double ⟨2 ^ 27, 60, one_le_long⟩) .empty
        [.generateAt (.int 0) (.int (2 ^ 27 - 1)) default, .mentionGalaxy 1 default] = some world ∧
      ¬Holds ⟨2 ^ 27, 60, one_le_long⟩ world (0 + -1) (2 ^ 27 - 1 + -1) := by
  have hgalaxy : (generateAt ⟨2 ^ 27, 60, one_le_long⟩ default (.int 0) (.int (2 ^ 27 - 1))
      .empty).galaxies.get 1 = some _ := get_generateAt_edge default
  refine ⟨_, ?_, missing_neighbour (le_refl (2 ^ 27 : ℤ)) default default⟩
  simp only [run, step, Option.bind_some, hgalaxy, Option.map_some]

end Mmog.Map
