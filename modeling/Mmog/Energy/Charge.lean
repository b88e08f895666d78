import Mmog.Game.Build
import Mmog.Model.Creation
import Mmog.Solvency.Invariant

/-!
# The energy of a planet

It stays between nothing and what the planet can store, except that a tick
takes the usage of all buildings off before it adds what the power plant makes,
and that a depot may leave less room than there was.
-/

namespace Mmog

open Ruby Action Game

/-- The energy is not negative and there is room for it, no more than a `Float` counts exactly. -/
structure Planet.Charged (planet : Planet) : Prop where
  energy : 0 ≤ planet.energy
  full : planet.energy ≤ planet.maxenergy
  room : planet.maxenergy < 2 ^ 53

def Db.Charged (db : Db) : Prop := ∀ p, (db.planets p).Charged

/-- Only the energy and its store count. -/
theorem Planet.Charged.of_eq {planet other : Planet} (hplanet : planet.Charged)
    (henergy : other.energy = planet.energy) (hmaxenergy : other.maxenergy = planet.maxenergy) :
    other.Charged := by
  constructor
  · exact henergy ▸ hplanet.energy
  · exact henergy ▸ hmaxenergy ▸ hplanet.full
  · exact hmaxenergy ▸ hplanet.room

theorem Db.Charged.setPlanet {db : Db} (hdb : db.Charged) {planet : Planet} (hplanet : planet.Charged)
    (p : PlanetId) : (db.setPlanet p planet).Charged := by
  intro q
  rw [Db.setPlanet]
  dsimp only
  split
  · exact hplanet
  · exact hdb q

namespace Planet

theorem init_charged (special : Bool) (size : ℕ) (kind : Fin 7) (crystalSize : ℕ) :
    (init special size kind crystalSize).Charged := by
  unfold init
  dsimp only
  split_ifs <;> constructor <;> simp [filledIn]

/-! ## Fleets, requests and gifts -/

theorem Charged.setStock {planet : Planet} (hplanet : planet.Charged) {type : Resource} {n : ℤ}
    (hn : type = .energy → 0 ≤ n ∧ n ≤ planet.maxenergy) : (planet.setStock type n).Charged := by
  cases type with
  | energy => exact ⟨(hn rfl).1, (hn rfl).2, hplanet.room⟩
  | _ => exact hplanet.of_eq rfl rfl

theorem given_le {old maximum : ℤ} {number added : Numeric} (hmaximum : 0 ≤ maximum) :
    (given old maximum number added).1 ≤ maximum := by
  unfold given
  split
  · exact le_refl _
  · rename_i hroom
    exact Numeric.toI_le (Numeric.not_le_iff.mp hroom).le hmaximum

end Planet

theorem Db.Charged.frame : FleetFrame Db.Charged where
  fleets _ hdb := hdb
  stock := @fun _ p _ _ htype hdb => hdb.setPlanet ((hdb p).setStock fun heq => absurd heq htype) p
  spend := by
    intro db p number hrounded hnumber hdb
    have hplanet := hdb p
    refine hdb.setPlanet (hplanet.setStock fun _ => ⟨Planet.left_nonneg hrounded, ?_⟩) p
    exact (Planet.left_le hplanet.energy (hplanet.full.trans_lt hplanet.room) hnumber).trans hplanet.full
  charge := by
    intro db p number hnumber hdb
    have hplanet := hdb p
    have hmaximum := hplanet.energy.trans hplanet.full
    refine hdb.setPlanet (hplanet.setStock fun _ => ⟨?_, Planet.given_le hmaximum⟩) p
    exact Planet.grown_nonneg hplanet.energy hmaximum (Numeric.not_le_iff.mp hnumber).le
  money _ _ hdb := hdb
  setting _ _ hdb := hdb
  enqueue := @fun _ _ _ _ _ hdb => hdb
  remove := @fun _ _ _ _ hdb => hdb

theorem Db.Charged.queue : QueueFrame Db.Charged where
  wait _ hdb := hdb
  schedule := @fun _ _ _ _ hdb => hdb
  take := @fun _ _ _ _ _ _ hdb => hdb

/-! ## Claiming and building -/

namespace Planet

theorem constructing_charged {db : Db} (hdb : db.Charged) (p : PlanetId) (id : ℕ) :
    (constructing db p id).Charged := by
  refine hdb.setPlanet ?_ p
  exact (hdb p).of_eq rfl rfl

theorem createBuildingJob_charged (w : World) (p : PlanetId) (name : BuildingName) :
    Safe Db.Charged (createBuildingJob w p name) anything := by
  refine fun db hdb => ⟨?_, fun _ _ => trivial⟩
  obtain hsame | ⟨type, u, -, -, -, hordered⟩ := createBuildingJob_outcome w p name db
  · rw [hsame]
    exact hdb
  · rw [hordered]
    have hmoney : (db.setMoney u ((db.users u).money - type.buildCostMoney)).Charged := hdb
    refine hmoney.setPlanet ?_ p
    exact (hdb p).of_eq rfl rfl

theorem claim_charged (w : World) (p : PlanetId) (u : UserId) :
    Safe Db.Charged (claim w p u) anything := by
  refine claim_safe (fun db hdb => hdb.setPlanet ?_ p) (createBuildingJob_charged w p)
    (fun db hdb => constructing_charged hdb p 0) ?_
  · exact (hdb p).of_eq rfl rfl
  · exact Safe.get.bind fun db _ => Safe.modify fun db hdb => hdb

end Planet

end Mmog
