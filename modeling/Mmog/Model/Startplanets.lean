import Mmog.Model.Production
import Mmog.Ruby.Run

/-!
# Start planets

A process keeps a list of at most eight free planets and a position in it.  A new
user gets the planet at the next position, which leaves the list.
-/

namespace Mmog

open Ruby

/-- A planet in memory, with the owner that was read. -/
structure Candidate where
  id : PlanetId
  user : Option UserId
  deriving DecidableEq

/-- `@@marker` and `@@marker_pos`; a list that was never loaded counts as an empty one. -/
structure Marker where
  marker : List Candidate
  markerPos : ℕ

def Marker.initial : Marker := ⟨[], 0⟩

/-- The database and what the process remembers. -/
structure Process where
  game : Game
  marker : Marker

namespace Process

/-- An action on the game as one of the process. -/
def onGame {α : Type} (action : GameAct α) : Action Err Process α := fun process =>
  match action.run process.game with
  | .ok value game => .ok value { process with game }
  | .error err game => .error err { process with game }

theorem run_onGame_of_ok {α : Type} {action : GameAct α} {process : Process} {value : α} {game : Game}
    (hok : action.run process.game = .ok value game) :
    (onGame action).run process = .ok value { process with game } := by
  have hrun : (onGame action).run process = match action.run process.game with
      | .ok value game => .ok value { process with game }
      | .error err game => .error err { process with game } := rfl
  rw [hrun, hok]

end Process

namespace PlanetsHelper

/-- `Planet.where(special: 0, user_id: nil)`. -/
def freePlanets (rules : Rules) (db : Db) : List PlanetId :=
  rules.planetIds.filter fun p => (db.planets p).special = 0 ∧ (db.planets p).user = none

def candidates (rules : Rules) (db : Db) : List Candidate :=
  ((freePlanets rules db).take 8).map fun p => ⟨p, (db.planets p).user⟩

/-- The planet at the next position, if there is one, and what is remembered. -/
def searchStartplanet (rules : Rules) (db : Db) (self : Marker) : Option Candidate × Marker :=
  let marker := if self.marker.length < 8 then candidates rules db else self.marker
  if marker.isEmpty then (none, { self with marker })
  else
    let markerPos := (self.markerPos + 1) % 8
    -- the place is blanked, and blanks are dropped; blanks behind the end are dropped as well
    (marker[markerPos]?, ⟨marker.eraseIdx markerPos, markerPos⟩)

def hasPlanets (rules : Rules) (db : Db) (u : UserId) : Bool :=
  rules.planetIds.any fun p => (db.planets p).user = some u

def claimAndSettle (rules : Rules) (p : PlanetId) (u : UserId) : GameAct Unit := do
  Game.onDb (Planet.claim rules.toWorld p u)
  modify fun game => game.setProfile u { game.profiles u with homePlanet := p }

def claimStartplanetFor (rules : Rules) (u : UserId) : Action Err Process Bool := do
  let process ← get
  if hasPlanets rules process.game.db u then return false
  let (p, marker) := searchStartplanet rules process.game.db process.marker
  set { process with marker }
  match p with
  | some ⟨p, none⟩ =>
      Process.onGame (claimAndSettle rules p u)
      return true
  | _ => return false

end PlanetsHelper

namespace Process

inductive Event where
  | claimStartplanetFor (user : UserId)
  /-- Whatever else happens to the database. -/
  | change (game : Game)

def step (rules : Rules) (process : Process) : Event → Option Process
  | .claimStartplanetFor user => some (Action.after ((PlanetsHelper.claimStartplanetFor rules user).run process))
  | .change game => some { process with game }

end Process

end Mmog
