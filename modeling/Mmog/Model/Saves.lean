import Mmog.Model.Schema
import Mmog.Ruby.Copies

/-!
# The money in the row of a user

A request or job loads the row of a user, computes with the money it loaded and
saves what it computed.  No row is locked for that.
-/

namespace Mmog

open Ruby

/-- A request or job that changes the money of a user, with what it reads of other rows. -/
inductive Operation where
  /-- A tick of a planet with this energy, whose headquarter makes this income. -/
  | updateResources (energy income : ℤ)
  /-- An order for the building that the planet can get next, if there is one. -/
  | createBuildingJob (planet : Planet) (buildMe : Option Buildingtype)
  /-- An order of ships, and whether the planet has what it costs besides the money. -/
  | insert (creditCost : ℤ) (restTaken : Bool)
  /-- The start of research, and whether everything but the money allows it. -/
  | upgradeTechnology (cost : ℤ) (allowed : Bool)
  | abortTechnology (cost : ℤ)
  | give (number : ℤ)
  | take (number : ℤ)

namespace Operation

/-- What `give(:Money, number)` saves. -/
def giveMoney (number : ℤ) : List ℤ := if number ≤ 0 then [] else [number]

/-- What `take(:Money, number)` saves and what it gives back. -/
def takeMoney (number money : ℤ) : List ℤ × ℤ :=
  if number ≤ 0 then ([], 0)
  else if number ≤ money then ([-number], number)
  else ([-money], money)

/-- By how much the money changes with each save, from what was loaded on. -/
def changes : Operation → ℤ → List ℤ
  | .updateResources energy income, _ => if 0 < energy then [income] else []
  | .createBuildingJob _ none, _ => []
  | .createBuildingJob planet (some type), money =>
      if planet.ore < type.buildCostOre ∨ planet.crystal < type.buildCostCrystal ∨
          planet.population < type.buildCostPopulation ∨ money < type.buildCostMoney then []
      else [-type.buildCostMoney]
  | .insert creditCost restTaken, money =>
      let (saved, m) := takeMoney creditCost money
      if m = creditCost ∧ restTaken then saved else saved ++ giveMoney m
  | .upgradeTechnology cost allowed, money => if allowed ∧ cost ≤ money then [-cost] else []
  | .abortTechnology cost, _ => [cost / 2]
  | .give number, _ => giveMoney number
  | .take number, money => (takeMoney number money).1

/-- The row and the operations before any of them has loaded it. -/
def start {ι : Type*} (operations : ι → Operation) (money : ℤ) : Shared ι ℤ where
  value := money
  clients i := .waiting (operations i).changes

end Operation

end Mmog
