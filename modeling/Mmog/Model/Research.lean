import Mmog.Model.Rules

/-!
# Research

Starting, aborting and finishing the research of a technology.
-/

namespace Mmog

open Ruby Game

namespace TechnologyRow

/-- A float to the power of a rank; it is rounded once. -/
def power (q : ℚ) (rank : ℕ) : Numeric := .float (Binary64.round (q ^ rank))

/-- `get_technology_cost`. -/
def getTechnologyCost (self : TechnologyRow) (rank : Option ℕ) : ℤ :=
  match rank with
  | some rank => (power (3 / 2) rank * .float self.cost).round
  | none => (Numeric.float self.cost).round

/-- `get_research_duration`, to a tenth of a second. -/
def getResearchDuration (self : TechnologyRow) (rank : Option ℕ) (increasedResearch : ℚ) : ℚ :=
  let duration : Numeric :=
    match rank with
    | some rank => power (Binary64.round (13 / 10)) rank * .int self.duration / .float increasedResearch
    | none => .int self.duration / .float increasedResearch
  Binary64.round ((Numeric.float (duration.value * 10)).round / 10)

def maxRank? (self : TechnologyRow) (rank : Option ℕ) : Bool :=
  rank.any fun (rank : ℕ) => (rank : ℤ) = self.maxrank

end TechnologyRow

/-- The rows of `technology_requires` of a technology. -/
def Rules.requires (rules : Rules) (id : TechnologyId) : List TechnologyRequire :=
  rules.technologyRequires.filter fun row => row.techId = id

namespace Technology

/-- Whether the user knows what one requirement asks for. -/
def meets (ranks : TechnologyId → Option ℕ) (row : TechnologyRequire) : Bool :=
  row.preTechId = 0 ∨
    (ranks row.preTechId).any fun (rank : ℕ) => ¬ ((rank : ℤ) < row.preTechRank ∧ row.preTechRank ≠ 0)

def techRequire? (rules : Rules) (id : TechnologyId) (ranks : TechnologyId → Option ℕ) : Bool :=
  (rules.requires id).all (meets ranks)

/-- `technology_require?`; a technology without any requirement row cannot be asked. -/
def technologyRequire? (rules : Rules) (game : Game) (id : TechnologyId) (row : TechnologyRow)
    (user : UserId) : Except Err Bool :=
  match (rules.requires id).head? with
  | none => .error .noMethodError
  | some first =>
      .ok (first.buildingRank ≤ (game.profiles user).researchlvl ∧
        !row.maxRank? (game.ranks user id) ∧
        row.getTechnologyCost (game.ranks user id) ≤ (game.db.users user).money ∧
        techRequire? rules id (game.ranks user))

def findRow (rules : Rules) (id : TechnologyId) : GameAct TechnologyRow :=
  match rules.technology id with
  | some row => return row
  | none => throw .recordNotFound

def upgradeTechnology (rules : Rules) (id : TechnologyId) (user : UserId) : GameAct Unit := do
  let row ← findRow rules id
  let game ← get
  match technologyRequire? rules game id row user with
  | .error err => throw err
  | .ok false => return
  | .ok true =>
      if (game.profiles user).researching ≠ 0 then return
      let rank := game.ranks user id
      let duration := row.getResearchDuration rank ((game.profiles user).rate .increasedResearch)
      let game := game.setProfile user { game.profiles user with researching := id }
      let game := game.setDb
        (game.db.setMoney user ((game.db.users user).money - row.getTechnologyCost rank))
      set { game with
        researches := game.researches.enqueueAt (game.db.now + ⌊duration⌋) ⟨user, id⟩ }

/-- Pays back half the present price, whether there is a job to remove or not. -/
def abortTechnology (rules : Rules) (id : TechnologyId) (user : UserId) : GameAct Unit := do
  let row ← findRow rules id
  let game ← get
  let game := game.setProfile user { game.profiles user with researching := 0 }
  let game := game.setDb (game.db.setMoney user
    ((game.db.users user).money + row.getTechnologyCost (game.ranks user id) / 2))
  set { game with researches := game.researches.removeDelayed ⟨user, id⟩ }

/-! ## Completion -/

theorem one_le_power {q : ℚ} (hq : 1 ≤ q) (rank : ℕ) : 1 ≤ Binary64.round (q ^ rank) := by
  have hone : Binary64.round ((1 : ℤ) : ℚ) = (1 : ℤ) := Binary64.round_intCast (by norm_num)
  rw [Int.cast_one] at hone
  calc (1 : ℚ) = Binary64.round 1 := hone.symm
    _ ≤ Binary64.round (q ^ rank) := Binary64.round_mono (one_le_pow₀ hq)

/-- `user_setting.update_attribute name, factor**new_rank`. -/
def updateSetting (game : Game) (user : UserId) (row : TechnologyRow) (newRank : ℕ) : Game :=
  match hname : row.name with
  | .fleet technology =>
      let factor : Factor :=
        ⟨Binary64.round (row.factor ^ newRank),
          one_le_power (row.one_le_factor technology hname) _⟩
      game.setDb (game.db.setUserSetting user
        ((game.db.users user).userSetting.update factor technology))
  | .rate rate =>
      let profile := game.profiles user
      game.setProfile user { profile with
        rate := Function.update profile.rate rate (Binary64.round (row.factor ^ newRank)) }
  | .flag flag =>
      let profile := game.profiles user
      -- a float is none of the values that a column of truth values takes for true
      game.setProfile user { profile with flag := Function.update profile.flag flag false }

def updateUservalues (rules : Rules) (id : TechnologyId) (user : UserId) : GameAct Unit := do
  let row ← findRow rules id
  let game ← get
  let newRank := (game.ranks user id).elim 1 (· + 1)
  let game := { game with
    ranks := fun other => if other = user then
      Function.update (game.ranks user) id (some newRank) else game.ranks other }
  let game := updateSetting game user row newRank
  set (game.setProfile user { game.profiles user with researching := 0 })

end Technology

def ResearchTechnology.perform (rules : Rules) (job : ResearchTechnology) : GameAct Unit :=
  Technology.updateUservalues rules job.technology job.user

end Mmog
