import Mmog.Model.System
import Mmog.Ruby.Backlog
import Mmog.Ruby.Safe

/-!
# The whole game

Beside planets and fleets the game has ships that wait to be built, research,
and what users have researched.  The seeded tables gain the columns that these
parts read.
-/

namespace Mmog

open Ruby

abbrev TechnologyId := ℕ

/-! ## Seeded tables -/

/-- The research factors that production and research use. -/
inductive Rate where
  | increasedIncome | increasedIronproduction | increasedEnergyEfficiency | increasedResearch
  | bigHouse
  deriving DecidableEq

/-- The columns of the user settings that are true or false. -/
inductive Flag where
  | hyperspaceTechnology | largeCargoShip | largeDefensePlatform | destroyer | cruiser | deathstar
  deriving DecidableEq

/-- The name of a technology is that of the column of the user settings it changes. -/
inductive SettingName where
  | fleet (technology : Technology)
  | rate (rate : Rate)
  | flag (flag : Flag)
  deriving DecidableEq

structure TechnologyRow where
  name : SettingName
  factor : ℚ
  cost : ℚ
  maxrank : ℤ
  duration : ℕ
  cost_nonneg : 0 ≤ cost
  one_le_factor : ∀ technology, name = .fleet technology → 1 ≤ factor

structure TechnologyRequire where
  techId : TechnologyId
  buildingRank : ℕ
  /-- 0 where there is no technology to know before. -/
  preTechId : TechnologyId
  preTechRank : ℤ
  deriving DecidableEq

structure Rules extends World where
  constructionTime : ShipId → ℕ
  crewCapacity : ShipId → ℕ
  production : ℕ → ℕ
  energyusage : ℕ → ℕ
  buildingtypes_nodup : (buildingtypes.map Buildingtype.id).Nodup
  one_le_level : ∀ type ∈ buildingtypes, 1 ≤ type.level
  technology : TechnologyId → Option TechnologyRow
  technology_zero : technology 0 = none
  technologyRequires : List TechnologyRequire
  planetIds : List PlanetId

namespace Rules

variable (rules : Rules)

/-- `Buildingtype.where(id: id).first`. -/
def buildingtype (id : ℕ) : Option Buildingtype := rules.buildingtypes.find? (·.id = id)

/-- A row of the seeded table is the one its id finds. -/
theorem buildingtype_of_mem {type : Buildingtype} (hmem : type ∈ rules.buildingtypes) :
    rules.buildingtype type.id = some type := by
  have hnodup := rules.buildingtypes_nodup
  unfold buildingtype
  generalize rules.buildingtypes = types at hmem hnodup
  induction types with
  | nil => cases hmem
  | cons first types ih =>
      rw [List.map_cons, List.nodup_cons] at hnodup
      rcases List.mem_cons.mp hmem with rfl | htypes
      · exact List.find?_cons_of_pos (decide_eq_true rfl)
      · have hne : first.id ≠ type.id := by
          intro heq
          exact hnodup.1 (heq ▸ List.mem_map_of_mem htypes)
        rw [List.find?_cons_of_neg (by simpa using hne)]
        exact ih htypes hnodup.2

end Rules

/-! ## Tables -/

/-- An entry of the queue of ships that are being built. -/
structure ShipBuildingQueue where
  ship : ShipId
  planet : PlanetId
  endTime : ℤ
  qid : ℕ
  deriving DecidableEq

/-- The arguments of an `AddShip` job. -/
structure AddShip where
  ship : ShipId
  planet : PlanetId
  qid : ℕ
  deriving DecidableEq

/-- The arguments of a `ResearchTechnology` job. -/
structure ResearchTechnology where
  user : UserId
  technology : TechnologyId
  deriving DecidableEq

/-- The columns of a user and the user's settings that production and research use. -/
structure Profile where
  homePlanet : PlanetId := 0
  rate : Rate → ℚ := fun _ => 1
  flag : Flag → Bool := fun _ => false
  researchlvl : ℕ := 0
  /-- The technology that is being researched, 0 if none is. -/
  researching : TechnologyId := 0

structure Game where
  db : Db
  profiles : UserId → Profile
  /-- The rank in a user's first row for a technology. -/
  ranks : UserId → TechnologyId → Option ℕ
  queue : Table ShipBuildingQueue
  addShips : Backlog AddShip
  researches : Backlog ResearchTechnology

abbrev GameAct := Action Err Game

namespace Game

def setDb (game : Game) (db : Db) : Game := { game with db }

def setProfile (game : Game) (user : UserId) (profile : Profile) : Game :=
  { game with profiles := fun other => if other = user then profile else game.profiles other }

@[simp] theorem db_setDb (game : Game) (db : Db) : (game.setDb db).db = db := rfl
@[simp] theorem profiles_setDb (game : Game) (db : Db) : (game.setDb db).profiles = game.profiles := rfl
@[simp] theorem ranks_setDb (game : Game) (db : Db) : (game.setDb db).ranks = game.ranks := rfl
@[simp] theorem queue_setDb (game : Game) (db : Db) : (game.setDb db).queue = game.queue := rfl
@[simp] theorem addShips_setDb (game : Game) (db : Db) : (game.setDb db).addShips = game.addShips := rfl
@[simp] theorem researches_setDb (game : Game) (db : Db) :
    (game.setDb db).researches = game.researches := rfl
@[simp] theorem setDb_setDb (game : Game) (first second : Db) :
    (game.setDb first).setDb second = game.setDb second := rfl
@[simp] theorem setDb_db (game : Game) : game.setDb game.db = game := rfl

/-- An action on planets and fleets as one on the whole game. -/
def onDb {α : Type} (action : Act α) : GameAct α := fun game =>
  match action.run game.db with
  | .ok value db => .ok value (game.setDb db)
  | .error err db => .error err (game.setDb db)

theorem run_onDb {α : Type} (action : Act α) (game : Game) :
    (onDb action).run game = match action.run game.db with
      | .ok value db => .ok value (game.setDb db)
      | .error err db => .error err (game.setDb db) := rfl

theorem run_onDb_of_ok {α : Type} {action : Act α} {game : Game} {value : α} {db : Db}
    (hok : action.run game.db = .ok value db) :
    (onDb action).run game = .ok value (game.setDb db) := by
  rw [run_onDb, hok]

theorem run_onDb_of_error {α : Type} {action : Act α} {game : Game} {err : Err} {db : Db}
    (herror : action.run game.db = .error err db) :
    (onDb action).run game = .error err (game.setDb db) := by
  rw [run_onDb, herror]

theorem after_onDb {α : Type} (action : Act α) (game : Game) :
    Action.after ((onDb action).run game) = game.setDb (Action.after (action.run game.db)) := by
  rw [run_onDb]
  cases action.run game.db <;> rfl

/-- What keeps an invariant of planets and fleets keeps it in the whole game. -/
theorem safe_onDb {α : Type} {I : Db → Prop} {action : Act α} {φ : α → Prop}
    (hsafe : Action.Safe I action φ) : Action.Safe (fun game => I game.db) (onDb action) φ := by
  intro game hgame
  obtain ⟨hdb, hvalue⟩ := hsafe game.db hgame
  rw [run_onDb]
  cases hrun : action.run game.db with
  | ok value db =>
      rw [hrun] at hdb hvalue
      exact ⟨hdb, hvalue⟩
  | error err db =>
      rw [hrun] at hdb
      exact ⟨hdb, nofun⟩

end Game

end Mmog
