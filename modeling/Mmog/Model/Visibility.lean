import Mmog.Model.Schema

/-!
# What a user sees

A user sees the sunsystems that he has visited or owns planets in, and those that
the members of his alliance have visited.  A record of a user in memory keeps the
associations that it has loaded and the lists that it has computed.  `<<` on an
association writes a row of the join table at once.
-/

namespace Mmog.Visibility

open Ruby

structure Sunsystem where
  galaxy : ℕ
  deriving DecidableEq

structure Planet where
  user : Option UserId
  sunsystem : ℕ
  deriving DecidableEq

structure User where
  alliance : Option AllianceId
  deriving DecidableEq

structure Sky where
  sunsystems : Table Sunsystem
  planets : Table Planet
  users : Table User
  /-- A sunsystem and a user who has visited it. -/
  sunsystemsUsers : List (ℕ × UserId)

namespace Sky

def empty : Sky := ⟨.empty, .empty, .empty, []⟩

/-- `user.planets`. -/
def planetsOf (sky : Sky) (user : UserId) : List Planet :=
  (sky.planets.select fun planet => planet.user = some user).filterMap sky.planets.get

/-- `user.sunsystems`. -/
def sunsystemsOf (sky : Sky) (user : UserId) : List ℕ :=
  (sky.sunsystemsUsers.filter fun row => row.2 = user).map Prod.fst

/-- `alliance.users`. -/
def usersOf (sky : Sky) (alliance : AllianceId) : List UserId :=
  sky.users.select fun user => user.alliance = some alliance

/-- `sunsystem.planets`. -/
def planetsIn (sky : Sky) (sunsystem : ℕ) : List ℕ :=
  sky.planets.select fun planet => planet.sunsystem = sunsystem

/-- `sunsystem.users << user` for each of the sunsystems. -/
def reveal (sky : Sky) (sunsystems : List ℕ) (user : UserId) : Sky :=
  { sky with sunsystemsUsers := sky.sunsystemsUsers ++ sunsystems.map fun sunsystem => (sunsystem, user) }

end Sky

/-- The value of `@cache_visible_sunsystems`: the association of the user itself, or a list. -/
inductive Suns where
  | association
  | array (suns : List ℕ)
  deriving DecidableEq

/-- A user in memory. -/
structure Record where
  id : UserId
  /-- The alliance column as it was read. -/
  alliance : Option AllianceId
  /-- `planets`, if it is loaded. -/
  planets : Option (List Planet)
  /-- `sunsystems`, if it is loaded. -/
  sunsystems : Option (List ℕ)
  /-- The `sunsystems` of the `users` of the alliance, one after the other, if they are loaded. -/
  fellows : Option (List ℕ)
  cacheVisibleSunsystems : Option Suns
  cacheVisiblePlanets : List ℕ
  cacheVisibleGalaxies : List (Option ℕ)
  deriving DecidableEq

/-- `User.find`; a list that was never computed counts as an empty one. -/
def Record.find (id : UserId) (user : User) : Record where
  id := id
  alliance := user.alliance
  planets := none
  sunsystems := none
  fellows := none
  cacheVisibleSunsystems := none
  cacheVisiblePlanets := []
  cacheVisibleGalaxies := []

/-- A user in memory and the tables. -/
structure Sight where
  user : Record
  sky : Sky

namespace Sight

/-- What is in the association: what was loaded, else what is stored. -/
def sunsystems (self : Sight) : List ℕ := self.user.sunsystems.getD (self.sky.sunsystemsOf self.user.id)

def elements (self : Sight) : Suns → List ℕ
  | .association => self.sunsystems
  | .array suns => suns

/-- `for s in suns` loads an association. -/
def load (self : Sight) : Suns → Sight
  | .association => { self with user.sunsystems := some self.sunsystems }
  | .array _ => self

def planets (self : Sight) : List Planet := self.user.planets.getD (self.sky.planetsOf self.user.id)

def fellows (self : Sight) (alliance : AllianceId) : List ℕ :=
  self.user.fellows.getD ((self.sky.usersOf alliance).flatMap self.sky.sunsystemsOf)

/-- The new value of `@cache_visible_sunsystems`. -/
def computeSunsystems (self : Sight) : Suns × Sight :=
  let planets := self.planets
  let own := planets.map (·.sunsystem)
  match self.user.alliance with
  | none =>
      -- the association is the list, and every `<<` stores a row
      (.association,
        { user := { self.user with planets := some planets, sunsystems := self.user.sunsystems.map (· ++ own) }
          sky := self.sky.reveal own self.user.id })
  | some alliance =>
      let fellows := self.fellows alliance
      (.array (own ++ fellows), { self with user.planets := some planets, user.fellows := some fellows })

variable (caching : Bool)

/-- The list of the sunsystems is not taken from memory. -/
def recomputesSunsystems (self : Sight) : Bool :=
  !caching || (self.user.cacheVisibleSunsystems.map fun suns => (self.elements suns).isEmpty).getD true

def visibleSunsystems (self : Sight) : Suns × Sight :=
  if self.recomputesSunsystems caching then
    let (suns, sight) := self.computeSunsystems
    (suns, { sight with user.cacheVisibleSunsystems := some suns })
  else (self.user.cacheVisibleSunsystems.getD (.array []), self)

def visiblePlanets (self : Sight) : List ℕ × Sight :=
  if !caching || self.user.cacheVisiblePlanets.isEmpty then
    let (suns, sight) := self.visibleSunsystems caching
    let planets := (sight.elements suns).flatMap sight.sky.planetsIn
    let sight := sight.load suns
    (planets, { sight with user.cacheVisiblePlanets := planets })
  else (self.user.cacheVisiblePlanets, self)

def visibleGalaxies (self : Sight) : List (Option ℕ) × Sight :=
  if !caching || self.user.cacheVisibleGalaxies.isEmpty then
    let (suns, sight) := self.visibleSunsystems caching
    let galaxies := (sight.elements suns).map fun sun => (sight.sky.sunsystems.get sun).map (·.galaxy)
    let sight := sight.load suns
    (galaxies, { sight with user.cacheVisibleGalaxies := galaxies })
  else (self.user.cacheVisibleGalaxies, self)

end Sight

/-! ## `is_visible_by?` and `seen_by` -/

section Visit

variable (caching : Bool)

def Sunsystem.isVisibleBy (sunsystem : ℕ) (sight : Sight) : Bool × Sight :=
  let (suns, sight) := sight.visibleSunsystems caching
  ((sight.elements suns).contains sunsystem, sight)

def Planet.isVisibleBy (planet : ℕ) (sight : Sight) : Bool × Sight :=
  let (planets, sight) := sight.visiblePlanets caching
  (planets.contains planet, sight)

def Galaxy.isVisibleBy (galaxy : ℕ) (sight : Sight) : Bool × Sight :=
  let (galaxies, sight) := sight.visibleGalaxies caching
  (galaxies.contains (some galaxy), sight)

/-- What `mention` finds is in the tables already; see `Event.discover`. -/
def Sunsystem.seenBy (sunsystem : ℕ) (sight : Sight) : Sight :=
  let (visible, sight) := isVisibleBy caching sunsystem sight
  if visible then sight else { sight with sky := sight.sky.reveal [sunsystem] sight.user.id }

def Planet.seenBy (self : Planet) (sight : Sight) : Sight := Sunsystem.seenBy caching self.sunsystem sight

def Planet.setUser (planet : ℕ) (sight : Sight) : Sight :=
  { sight with sky.planets := sight.sky.planets.modify planet fun row => { row with user := some sight.user.id } }

/-- The buildings of the new planet are left out. -/
def Planet.claim (planet : ℕ) (self : Planet) (sight : Sight) : Sight :=
  match self.user with
  | none => setUser planet (self.seenBy caching sight)
  | some _ => setUser planet sight

end Visit

/-! ## Alliances -/

namespace Alliance

def setAlliance (sky : Sky) (user : UserId) (change : Option AllianceId → Option AllianceId) : Sky :=
  { sky with users := sky.users.modify user fun row => { row with alliance := change row.alliance } }

/-- `users <<` writes the column of the record, and the members are read anew. -/
def addUser (self : AllianceId) (sight : Sight) : Sight :=
  match sight.user.alliance with
  | none =>
      { user := { sight.user with alliance := some self, fellows := none }
        sky := setAlliance sight.sky sight.user.id fun _ => some self }
  | some _ => sight

/-- `users.delete` changes the row of a member and leaves the record as it is. -/
def removeUser (self : AllianceId) (sight : Sight) : Sight :=
  if sight.user.alliance = some self then
    { sight with
      sky := setAlliance sight.sky sight.user.id fun alliance => if alliance = some self then none else alliance }
  else sight

end Alliance

/-! ## Runs -/

inductive Query where
  | visibleSunsystems
  | visiblePlanets
  | visibleGalaxies
  | sunsystemIsVisible (sunsystem : ℕ)
  | planetIsVisible (planet : ℕ)
  | galaxyIsVisible (galaxy : ℕ)
  deriving DecidableEq

/-- What a query leaves behind. -/
def Query.run (caching : Bool) (sight : Sight) : Query → Sight
  | .visibleSunsystems => (sight.visibleSunsystems caching).2
  | .visiblePlanets => (sight.visiblePlanets caching).2
  | .visibleGalaxies => (sight.visibleGalaxies caching).2
  | .sunsystemIsVisible sunsystem => (Sunsystem.isVisibleBy caching sunsystem sight).2
  | .planetIsVisible planet => (Planet.isVisibleBy caching planet sight).2
  | .galaxyIsVisible galaxy => (Galaxy.isVisibleBy caching galaxy sight).2

/-- An event on a record names the place of the record. -/
inductive Event where
  | register
  /-- A new sunsystem of a galaxy with as many free planets. -/
  | discover (galaxy planets : ℕ)
  | find (user : UserId)
  | query (record : ℕ) (query : Query)
  | planetSeenBy (record planet : ℕ)
  | sunsystemSeenBy (record sunsystem : ℕ)
  | claim (record planet : ℕ)
  | addUser (record : ℕ) (alliance : AllianceId)
  | removeUser (record : ℕ) (alliance : AllianceId)
  deriving DecidableEq

/-- The tables and the records that are in memory anywhere. -/
structure State where
  sky : Sky
  records : List Record

namespace State

def start (sky : Sky) : State := ⟨sky, []⟩

def sight (state : State) (record : ℕ) : Option Sight :=
  state.records[record]?.map fun user => ⟨user, state.sky⟩

def put (state : State) (record : ℕ) (sight : Sight) : State :=
  ⟨sight.sky, state.records.set record sight.user⟩

end State

namespace Sky

def discover (galaxy planets : ℕ) (sky : Sky) : Sky :=
  { sky with
    sunsystems := sky.sunsystems.create ⟨galaxy⟩
    planets := (List.replicate planets ⟨none, sky.sunsystems.nextId⟩).foldl Table.create sky.planets }

end Sky

/-- The state after an event; nothing happens to records that do not exist. -/
def step (caching : Bool) (state : State) : Event → Option State
  | .register => some { state with sky.users := state.sky.users.create ⟨none⟩ }
  | .discover galaxy planets => some { state with sky := state.sky.discover galaxy planets }
  | .find user => (state.sky.users.get user).map fun row =>
      { state with records := state.records ++ [Record.find user row] }
  | .query record query => (state.sight record).map fun sight => state.put record (query.run caching sight)
  | .planetSeenBy record planet => do
      let sight ← state.sight record
      let self ← state.sky.planets.get planet
      return state.put record (self.seenBy caching sight)
  | .sunsystemSeenBy record sunsystem => do
      let sight ← state.sight record
      let _ ← state.sky.sunsystems.get sunsystem
      return state.put record (Sunsystem.seenBy caching sunsystem sight)
  | .claim record planet => do
      let sight ← state.sight record
      let self ← state.sky.planets.get planet
      return state.put record (Planet.claim caching planet self sight)
  | .addUser record alliance => (state.sight record).map fun sight => state.put record (Alliance.addUser alliance sight)
  | .removeUser record alliance =>
      (state.sight record).map fun sight => state.put record (Alliance.removeUser alliance sight)

end Mmog.Visibility
