import Mmog.Model.Research

/-!
# Seeded technologies

The table of technologies that `init_Technology` creates.
-/

namespace Mmog

open Ruby

namespace TechnologiesHelper

/-- A technology whose factor is a number above one, as a float. -/
def growing (name : SettingName) (factor : ℚ) (hfactor : 1 ≤ factor) (cost : ℕ) (maxrank : ℤ)
    (duration : ℕ) : TechnologyRow where
  name := name
  factor := Binary64.round factor
  cost := cost
  maxrank := maxrank
  duration := duration
  cost_nonneg := Nat.cast_nonneg cost
  one_le_factor _ _ := by simpa using Technology.one_le_power hfactor 1

/-- A technology that is created with the factor 0. -/
def factorless (name : SettingName) (hname : ∀ technology, name ≠ .fleet technology) (cost : ℕ)
    (maxrank : ℤ) (duration : ℕ) : TechnologyRow where
  name := name
  factor := 0
  cost := cost
  maxrank := maxrank
  duration := duration
  cost_nonneg := Nat.cast_nonneg cost
  one_le_factor technology htechnology := absurd htechnology (hname technology)

def initTechnology : List TechnologyRow :=
  [growing (.rate .increasedIncome) (105 / 100) (by norm_num) 100 (-1) 1500,
    growing (.rate .increasedIronproduction) (105 / 100) (by norm_num) 80 (-1) 1200,
    growing (.rate .increasedResearch) (12 / 10) (by norm_num) 140 (-1) 1800,
    growing (.rate .increasedEnergyEfficiency) (11 / 10) (by norm_num) 90 (-1) 900,
    growing (.fleet .increasedPower) (104 / 100) (by norm_num) 80 (-1) 2400,
    growing (.fleet .increasedDefense) (103 / 100) (by norm_num) 70 (-1) 1800,
    growing (.fleet .increasedSpypower) (105 / 100) (by norm_num) 110 (-1) 4200,
    growing (.fleet .increasedCapacity) (125 / 100) (by norm_num) 90 3 900,
    growing (.fleet .increasedMovement) (105 / 100) (by norm_num) 120 (-1) 1200,
    factorless (.flag .largeCargoShip) nofun 140 1 (3600 * 12),
    factorless (.flag .largeDefensePlatform) nofun 200 1 (3600 * 24),
    factorless (.rate .bigHouse) nofun 100 3 (3600 * 6),
    factorless (.flag .destroyer) nofun 100 1 (3600 * 18),
    factorless (.flag .cruiser) nofun 250 1 (3600 * 24),
    factorless (.flag .hyperspaceTechnology) nofun 350 1 (3600 * 24),
    factorless (.flag .deathstar) nofun 400 1 (3600 * 48)]

/-- `Technology.find`, where the rows got their ids in this order. -/
def technology : TechnologyId → Option TechnologyRow
  | 0 => none
  | id + 1 => initTechnology[id]?

/-- No two technologies change the same column. -/
theorem nodup_initTechnology : (initTechnology.map TechnologyRow.name).Nodup := by decide

theorem technology_inj {id other : TechnologyId} {row found : TechnologyRow} (hrow : technology id = some row)
    (hfound : technology other = some found) (hname : row.name = found.name) : id = other := by
  cases id with
  | zero => cases hrow
  | succ id =>
      cases other with
      | zero => cases hfound
      | succ other =>
          refine congrArg Nat.succ ((List.getElem?_inj ?_ nodup_initTechnology).mp ?_)
          · rw [List.length_map]
            exact (List.getElem?_eq_some_iff.mp hrow).1
          · rw [List.getElem?_map, List.getElem?_map]
            change (technology (id + 1)).map _ = (technology (other + 1)).map _
            rw [hrow, hfound, Option.map_some, Option.map_some, hname]

theorem mem_of_technology {id : TechnologyId} {row : TechnologyRow} (hrow : technology id = some row) :
    row ∈ initTechnology := by
  cases id with
  | zero => cases hrow
  | succ id => exact List.mem_of_getElem? hrow

/-- A factor is at least 1 or it is 0, and the factor of an unlock is 0. -/
theorem factor_initTechnology : ∀ row ∈ initTechnology,
    (row.factor = 0 ∨ 1 ≤ row.factor) ∧ ∀ flag, row.name = .flag flag → row.factor = 0 := by
  have hgrowing : ∀ {name factor} (hfactor : 1 ≤ factor) (cost maxrank duration),
      (∀ flag, name ≠ .flag flag) →
      let row := growing name factor hfactor cost maxrank duration
      (row.factor = 0 ∨ 1 ≤ row.factor) ∧ ∀ flag, row.name = .flag flag → row.factor = 0 := by
    intro name factor hfactor cost maxrank duration hname
    refine ⟨.inr ?_, fun flag hflag => absurd hflag (hname flag)⟩
    change 1 ≤ Binary64.round factor
    simpa using Technology.one_le_power hfactor 1
  have hfactorless : ∀ {name} (hname) (cost maxrank duration),
      let row := factorless name hname cost maxrank duration
      (row.factor = 0 ∨ 1 ≤ row.factor) ∧ ∀ flag, row.name = .flag flag → row.factor = 0 :=
    fun _ _ _ _ => ⟨.inl rfl, fun _ _ => rfl⟩
  simp only [initTechnology, List.forall_mem_cons, List.not_mem_nil, false_implies, implies_true, and_true]
  exact ⟨hgrowing _ _ _ _ nofun, hgrowing _ _ _ _ nofun, hgrowing _ _ _ _ nofun, hgrowing _ _ _ _ nofun,
    hgrowing _ _ _ _ nofun, hgrowing _ _ _ _ nofun, hgrowing _ _ _ _ nofun, hgrowing _ _ _ _ nofun,
    hgrowing _ _ _ _ nofun, hfactorless _ _ _ _, hfactorless _ _ _ _, hfactorless _ _ _ _,
    hfactorless _ _ _ _, hfactorless _ _ _ _, hfactorless _ _ _ _, hfactorless _ _ _ _⟩

end TechnologiesHelper

/-- The rules with the technologies of `init_Technology`. -/
def Rules.seeded (rules : Rules) : Rules :=
  { rules with
    technology := TechnologiesHelper.technology
    technology_zero := rfl }

end Mmog
