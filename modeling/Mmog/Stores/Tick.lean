import Mmog.Energy.Tick
import Mmog.Ownership.Tick
import Mmog.Model.Seeds

/-!
# What a tick adds

The whole outcome of a tick on a planet with an owner, from which it is read
off that the stocks and the money only grow, and the stocks not too much.
-/

namespace Mmog

open Ruby Action Game

namespace Planet

variable {rules : Rules} {game : Game} {p : PlanetId} {planet : Planet} {u : UserId}

theorem production_nonneg (rules : Rules) (game : Game) (u : UserId) (p : PlanetId) (planet : Planet)
    (name : BuildingName) : 0 ≤ planet.production rules game u p name := by
  unfold production
  split
  · exact le_rfl
  · exact zero_le_one.trans (le_max_right _ _)

theorem getProduction_apply (rules : Rules) (game : Game) (p : PlanetId) (planet : Planet) {u : UserId}
    (huser : planet.user = some u) (name : BuildingName) :
    (getProduction rules p planet name).run game = .ok (planet.production rules game u p name) game := by
  rw [getProduction, run_bind_get, huser]
  unfold production
  cases productionBuilding rules game.db.buildings p name <;> rfl

section Produced

variable (rules : Rules) (game : Game) (u : UserId) (p : PlanetId) (planet : Planet)

/-- The planet with the ore of a tick. -/
def withOre : Planet :=
  { planet with ore := grow planet.ore (planet.production rules game u p .oremine) planet.maxore }

/-- The planet with the population of a tick. -/
def withPopulation : Planet :=
  { planet with
    population := grow planet.population (planet.production rules game u p .city) planet.maxpopulation }

/-- The planet with the crystal of a tick. -/
def withCrystal : Planet :=
  { planet with crystal := grow planet.crystal (planet.production rules game u p .crystalmine) planet.maxcrystal }

/-- The planet with the stocks of a tick, which are made in this order. -/
def stocked : Planet :=
  ((planet.withOre rules game u p).withPopulation rules game u p).withCrystal rules game u p

end Produced

theorem produce_apply (huser : planet.user = some u) {usage : ℕ}
    (husage : energyUsage rules game.db.buildings p = some usage) :
    (produce rules p planet).run game = .ok { planet.stocked rules game u p with energy := planet.energy - usage }
      (game.setDb (game.db.setMoney u ((game.db.users u).money +
        (planet.stocked rules game u p).production rules game u p .headquarter))) := by
  let first := planet.withOre rules game u p
  let second := first.withPopulation rules game u p
  let third := second.withCrystal rules game u p
  rw [produce, run_bind_of_ok (getProduction_apply rules game p planet huser .oremine)]
  refine (run_bind_of_ok (getProduction_apply rules game p first huser .city) _).trans ?_
  refine (run_bind_of_ok (getProduction_apply rules game p second huser .crystalmine) _).trans ?_
  refine (run_bind_of_ok (getProduction_apply rules game p third huser .headquarter) _).trans ?_
  have hthird : third.user = some u := huser
  have husage' : energyUsage rules (game.setDb (game.db.setMoney u ((game.db.users u).money +
      third.production rules game u p .headquarter))).db.buildings p = some usage := husage
  dsimp only
  rw [huser]
  refine (run_bind_modify _ _ _).trans ((run_bind_get _ _).trans ?_)
  rw [husage', ← huser]
  rfl

/-- The planet before its power plant is counted. -/
def running (rules : Rules) (game : Game) (u : UserId) (p : PlanetId) (planet : Planet) (usage : ℕ) : Planet :=
  if 0 < planet.energy then { planet.stocked rules game u p with energy := planet.energy - usage } else planet

/-- The owner's money after a tick. -/
def earned (rules : Rules) (game : Game) (u : UserId) (p : PlanetId) (planet : Planet) : ℤ :=
  if 0 < planet.energy then
    (game.db.users u).money + (planet.stocked rules game u p).production rules game u p .headquarter
  else (game.db.users u).money

theorem setMoney_self (db : Db) (u : UserId) : db.setMoney u (db.users u).money = db := by
  have husers : (db.setMoney u (db.users u).money).users = db.users := by
    funext v
    by_cases hv : v = u
    · rw [hv]
      exact if_pos rfl
    · exact if_neg hv
  change { db with users := (db.setMoney u (db.users u).money).users } = db
  rw [husers]

/-- The state after the power plant of the object and the next job. -/
def powered (rules : Rules) (game : Game) (u : UserId) (p : PlanetId) (planet : Planet) : Game :=
  game.setDb ({ game.db with
      delayed := game.db.delayed ++ [(⟨game.db.now + 30, .produceResources p⟩ : Enqueued)] }.setPlanet p
    { planet with
      energy := grow planet.energy (planet.production rules game u p .powerplant) planet.maxenergy })

/-- The state after a tick. -/
def ticked (rules : Rules) (game : Game) (u : UserId) (p : PlanetId) (usage : ℕ) : Game :=
  powered rules (game.setDb (game.db.setMoney u ((game.db.planets p).earned rules game u p))) u p
    ((game.db.planets p).running rules game u p usage)

theorem powered_apply (huser : planet.user = some u) (game : Game) :
    (do
      let power ← getProduction rules p planet .powerplant
      let planet := { planet with energy := grow planet.energy power planet.maxenergy }
      onDb (createProductionJob p)
      modify fun game => game.setDb (game.db.setPlanet p planet) : GameAct Unit).run game =
        .ok ⟨⟩ (powered rules game u p planet) :=
  (run_bind_of_ok (getProduction_apply rules game p planet huser .powerplant) _).trans rfl

theorem updateResources_apply (huser : (game.db.planets p).user = some u) {usage : ℕ}
    (husage : energyUsage rules game.db.buildings p = some usage) :
    (updateResources rules p).run game = .ok ⟨⟩ (ticked rules game u p usage) := by
  rw [updateResources, run_bind_get, ticked]
  unfold running earned
  dsimp only
  split
  · let burning : Planet :=
      { (game.db.planets p).stocked rules game u p with energy := (game.db.planets p).energy - usage }
    have hburning : burning.user = some u := huser
    rw [run_bind_of_ok (produce_apply huser husage)]
    exact powered_apply hburning _
  · rw [run_bind_pure, setMoney_self, setDb_db]
    exact powered_apply huser game

/-! ## The tick -/

theorem grow_bounds {old production maximum : ℤ} (hold : old ≤ maximum) (hproduction : 0 ≤ production) :
    old ≤ grow old production maximum ∧ grow old production maximum ≤ maximum := by
  unfold grow
  split <;> omega

theorem grow_eq_min (old production maximum : ℤ) : grow old production maximum = min maximum (old + production) := by
  unfold grow
  split <;> omega

/-- A power plant makes the same after the stocks have changed. -/
theorem production_powerplant {other : Planet} (hspecial : other.special = planet.special) :
    other.production rules game u p .powerplant = planet.production rules game u p .powerplant := by
  unfold production
  cases productionBuilding rules game.db.buildings p .powerplant with
  | none => rfl
  | some type =>
      dsimp only
      unfold productionOf baseProduction spec
      rw [hspecial]

theorem energyUsage_filter (rules : Rules) (buildings : List Building) (p : PlanetId) :
    energyUsage rules (buildings.filter fun building => building.planet = p) p = energyUsage rules buildings p := by
  simp only [energyUsage, List.filter_filter, Bool.and_self]

/-- What a tick on a planet of `u` does: the stocks and the money grow within the stores, the
energy is used up before the power plant makes its own, and one more tick is enqueued. -/
structure Ticked (rules : Rules) (u : UserId) (p : PlanetId) (usage : ℕ) (game next : Game) : Prop where
  ore : (game.db.planets p).ore ≤ (next.db.planets p).ore ∧ (next.db.planets p).ore ≤ (game.db.planets p).maxore
  crystal : (game.db.planets p).crystal ≤ (next.db.planets p).crystal ∧
    (next.db.planets p).crystal ≤ (game.db.planets p).maxcrystal
  population : (game.db.planets p).population ≤ (next.db.planets p).population ∧
    (next.db.planets p).population ≤ (game.db.planets p).maxpopulation
  maxima : (next.db.planets p).maxore = (game.db.planets p).maxore ∧
    (next.db.planets p).maxcrystal = (game.db.planets p).maxcrystal ∧
    (next.db.planets p).maxpopulation = (game.db.planets p).maxpopulation
  money : (game.db.users u).money ≤ (next.db.users u).money
  dark : (game.db.planets p).energy ≤ 0 →
    (next.db.planets p).ore = (game.db.planets p).ore ∧ (next.db.planets p).crystal = (game.db.planets p).crystal ∧
      (next.db.planets p).population = (game.db.planets p).population ∧
      (next.db.users u).money = (game.db.users u).money
  energy : (next.db.planets p).energy = min (game.db.planets p).maxenergy
    ((if 0 < (game.db.planets p).energy then (game.db.planets p).energy - usage else (game.db.planets p).energy) +
      (game.db.planets p).production rules game u p .powerplant)
  jobs : next.db.delayed = game.db.delayed ++ [(⟨game.db.now + 30, .produceResources p⟩ : Enqueued)] ∧
    next.db.ready = game.db.ready

theorem running_stocks (rules : Rules) (game : Game) (u : UserId) (p : PlanetId) (planet : Planet) (usage : ℕ)
    (hore : planet.ore ≤ planet.maxore) (hcrystal : planet.crystal ≤ planet.maxcrystal)
    (hpopulation : planet.population ≤ planet.maxpopulation) :
    (planet.ore ≤ (planet.running rules game u p usage).ore ∧
        (planet.running rules game u p usage).ore ≤ planet.maxore) ∧
      (planet.crystal ≤ (planet.running rules game u p usage).crystal ∧
        (planet.running rules game u p usage).crystal ≤ planet.maxcrystal) ∧
      planet.population ≤ (planet.running rules game u p usage).population ∧
        (planet.running rules game u p usage).population ≤ planet.maxpopulation := by
  unfold running
  split
  · exact ⟨grow_bounds hore (production_nonneg ..), grow_bounds hcrystal (production_nonneg ..),
      grow_bounds hpopulation (production_nonneg ..)⟩
  · exact ⟨⟨le_rfl, hore⟩, ⟨le_rfl, hcrystal⟩, le_rfl, hpopulation⟩

/-- What stays as it is while the stocks grow. -/
theorem running_rest (rules : Rules) (game : Game) (u : UserId) (p : PlanetId) (planet : Planet) (usage : ℕ) :
    (planet.running rules game u p usage).special = planet.special ∧
      (planet.running rules game u p usage).maxore = planet.maxore ∧
      (planet.running rules game u p usage).maxcrystal = planet.maxcrystal ∧
      (planet.running rules game u p usage).maxpopulation = planet.maxpopulation ∧
      (planet.running rules game u p usage).maxenergy = planet.maxenergy ∧
      (planet.running rules game u p usage).energy =
        if 0 < planet.energy then planet.energy - usage else planet.energy := by
  unfold running
  split
  · exact ⟨rfl, rfl, rfl, rfl, rfl, rfl⟩
  · exact ⟨rfl, rfl, rfl, rfl, rfl, rfl⟩

theorem earned_bounds (rules : Rules) (game : Game) (u : UserId) (p : PlanetId) (planet : Planet) :
    (game.db.users u).money ≤ planet.earned rules game u p ∧
      (planet.energy ≤ 0 → planet.earned rules game u p = (game.db.users u).money) := by
  unfold earned
  split
  case isTrue hrun => exact ⟨le_add_of_nonneg_right (production_nonneg ..), fun hdark => absurd hrun hdark.not_gt⟩
  case isFalse => exact ⟨le_rfl, fun _ => rfl⟩

/-- A tick on an owned planet comes to the end, adds within the stores only and enqueues the
next tick. -/
theorem updateResources_ticks (rules : Rules) (game : Game) (p : PlanetId) (u : UserId)
    (howner : (game.db.planets p).user = some u)
    (htyped : rules.Typed (game.db.buildings.filter fun building => building.planet = p))
    (hore : 0 ≤ (game.db.planets p).ore ∧ (game.db.planets p).ore ≤ (game.db.planets p).maxore)
    (hcrystal : 0 ≤ (game.db.planets p).crystal ∧ (game.db.planets p).crystal ≤ (game.db.planets p).maxcrystal)
    (hpopulation : 0 ≤ (game.db.planets p).population ∧
      (game.db.planets p).population ≤ (game.db.planets p).maxpopulation) :
    ∃ usage next, energyUsage rules game.db.buildings p = some usage ∧
      (updateResources rules p).run game = .ok ⟨⟩ next ∧ Ticked rules u p usage game next := by
  obtain ⟨usage, husage⟩ := energyUsage_isSome htyped p
  rw [energyUsage_filter] at husage
  refine ⟨usage, ticked rules game u p usage, husage, updateResources_apply howner husage, ?_⟩
  let planet := game.db.planets p
  have hplanet : (ticked rules game u p usage).db.planets p =
      { planet.running rules game u p usage with
        energy := grow (planet.running rules game u p usage).energy
          ((planet.running rules game u p usage).production rules game u p .powerplant)
          (planet.running rules game u p usage).maxenergy } := if_pos rfl
  have hmoney : ((ticked rules game u p usage).db.users u).money = planet.earned rules game u p :=
    congrArg User.money (if_pos rfl)
  obtain ⟨hores, hcrystals, hpeople⟩ :=
    running_stocks rules game u p planet usage hore.2 hcrystal.2 hpopulation.2
  obtain ⟨hspecial, hmaxore, hmaxcrystal, hmaxpopulation, hmaxenergy, henergy⟩ :=
    running_rest rules game u p planet usage
  obtain ⟨hearned, hearned_dark⟩ := earned_bounds rules game u p planet
  constructor
  case ore => rwa [hplanet]
  case crystal => rwa [hplanet]
  case population => rwa [hplanet]
  case maxima => rw [hplanet]; exact ⟨hmaxore, hmaxcrystal, hmaxpopulation⟩
  case money => rwa [hmoney]
  case dark =>
    intro hdark
    rw [hplanet, hmoney, running, if_neg (not_lt.mpr hdark)]
    exact ⟨rfl, rfl, rfl, hearned_dark hdark⟩
  case energy =>
    rw [hplanet]
    dsimp only
    rw [grow_eq_min, production_powerplant hspecial, hmaxenergy, henergy]
  case jobs => exact ⟨rfl, rfl⟩

theorem updateResources_ticks_sample :
    ∃ usage next, energyUsage Seeds.rules (Seeds.game Seeds.start).db.buildings 1 = some usage ∧
      (updateResources Seeds.rules 1).run (Seeds.game Seeds.start) = .ok ⟨⟩ next ∧
      Ticked Seeds.rules 1 1 usage (Seeds.game Seeds.start) next :=
  updateResources_ticks Seeds.rules (Seeds.game Seeds.start) 1 1 rfl nofun (by decide) (by decide) (by decide)

end Planet

end Mmog
