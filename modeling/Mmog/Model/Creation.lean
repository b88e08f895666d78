import Mmog.Model.Planet

/-!
# New planets

What `init` sets on a planet that has no name yet, and a universe of such
planets.  The size of a planet only matters for its population.
-/

namespace Mmog

open Ruby

namespace Planet

/-- The columns that `init` fills in if they are empty. -/
def filledIn (size : ℕ) : Planet where
  user := none
  special := 0
  ore := 20
  maxore := 100
  crystal := 0
  maxcrystal := 1
  energy := 50
  maxenergy := 200
  population := (size / 20 : ℕ)
  maxpopulation := (size / 2 : ℕ)
  underConstruction := 0

/-- `init` of a new planet; the size, the kind of a special planet and the size of a crystal
planet are random. -/
def init (special : Bool) (size : ℕ) (kind : Fin 7) (crystalSize : ℕ) : Planet :=
  let planet := filledIn size
  if special then
    let planet := { planet with special := kind.val + 1 }
    if planet.special = 1 then { planet with ore := 50 }
    else if planet.special = 2 then planet
    else if planet.special = 3 then planet
    else if planet.special = 4 then
      { planet with
        population := (crystalSize / 10 : ℕ)
        maxpopulation := (crystalSize / 2 : ℕ)
        maxore := 75
        maxenergy := 175
        maxcrystal := 5 }
    else if planet.special = 5 then { planet with ore := 50, energy := 100 }
    else if planet.special = 6 then { planet with maxore := 200, maxenergy := 400, maxcrystal := 5 }
    else { planet with energy := 100 }
  else { planet with maxpopulation := 5000 }

end Planet

/-- A universe as it is created: new planets, no debts and no fleets yet. -/
structure Db.Created (db : Db) : Prop where
  planets : ∀ p, ∃ special size kind crystalSize, db.planets p = Planet.init special size kind crystalSize
  money : ∀ u, 0 ≤ (db.users u).money
  fleets : ∀ id, db.fleets.get id = none

end Mmog
