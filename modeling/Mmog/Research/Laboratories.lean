import Mmog.Buildings.Count
import Mmog.Game.Board
import Mmog.Model.Seeds
import Mmog.Model.Universe
import Mmog.Ruby.Best

/-!
# The best laboratory

The research level of a user is written when a building is finished on one of his
planets.  It is the level of his best laboratory, until a laboratory changes hands
that is better than those of its new owner, or the best one of its old owner.
-/

namespace Mmog

open Ruby Action Game

/-! ## Laboratories -/

section Level

variable (rules : Rules) (buildings : List Building) (p : PlanetId)

def Rules.levelOf (building : Building) : ℕ := ((rules.buildingtype building.buildingtype).map Buildingtype.level).getD 0

/-- The level of the best laboratory on a planet, 0 if there is none. -/
def labLevel : ℕ := ((buildings.filter (rules.isRow p .researchLab)).map rules.levelOf).foldl max 0

end Level

/-- The level of the best laboratory on all planets of a user, 0 if there is none. -/
def Db.bestLab (rules : Rules) (db : Db) (u : UserId) : ℕ :=
  best rules.planetIds.toFinset (fun p => (db.planets p).user) (labLevel rules db.buildings) u

/-- No planet has two buildings of one type. -/
def Db.Single (rules : Rules) (db : Db) : Prop := ∀ p name, db.rows rules p name ≤ 1

theorem foldl_max_le_iff {l : List ℕ} {start n : ℕ} : l.foldl max start ≤ n ↔ start ≤ n ∧ ∀ a ∈ l, a ≤ n := by
  induction l generalizing start with
  | nil => simp
  | cons a l ih =>
      rw [List.foldl_cons, ih, max_le_iff, List.forall_mem_cons, and_assoc]

section Hash

variable {rules : Rules} {buildings : List Building} {p : PlanetId}

/-- The laboratories that `buildings_to_hash` comes to. -/
theorem labs_eq : (buildings.filterMap fun building =>
      if building.planet = p then rules.buildingtypes.find? (·.id = building.buildingtype) else none).filter
        (·.name = .researchLab) =
    (buildings.filter (rules.isRow p .researchLab)).filterMap fun building => rules.buildingtype building.buildingtype := by
  induction buildings with
  | nil => rfl
  | cons building buildings ih =>
      rw [List.filterMap_cons, List.filter_cons]
      by_cases hplanet : building.planet = p
      · rw [if_pos hplanet, ← Rules.buildingtype]
        cases htype : rules.buildingtype building.buildingtype with
        | none => simpa [Rules.isRow, Rules.isNamed, hplanet, htype] using ih
        | some type =>
            by_cases hname : type.name = .researchLab
            · simpa [Rules.isRow, Rules.isNamed, hplanet, htype, hname] using ih
            · simpa [Rules.isRow, Rules.isNamed, hplanet, htype, hname] using ih
      · simpa [Rules.isRow, hplanet] using ih

/-- With a single laboratory the hash has its level. -/
theorem buildingsToHash_eq (hsingle : buildings.countP (rules.isRow p .researchLab) ≤ 1) :
    Planet.buildingsToHash rules.toWorld buildings p .researchLab = labLevel rules buildings p := by
  rw [Planet.buildingsToHash, labs_eq, labLevel]
  rw [List.countP_eq_length_filter] at hsingle
  match hlabs : buildings.filter (rules.isRow p .researchLab), hsingle with
  | [], _ => rfl
  | [building], _ =>
      rw [List.filterMap_cons, List.map_singleton, List.foldl_cons, List.foldl_nil, Nat.zero_max, Rules.levelOf]
      cases rules.buildingtype building.buildingtype <;> rfl

theorem maxResearchLevel_eq {db : Db} (hsingle : db.Single rules) (u : UserId) :
    Planet.maxResearchLevel rules db u = db.bestLab rules u := by
  refine eq_of_forall_ge_iff fun n => ?_
  rw [Planet.maxResearchLevel, foldl_max_le_iff, Db.bestLab, best_le_iff]
  simp only [List.forall_mem_map, List.mem_filter, List.mem_toFinset, decide_eq_true_eq, and_imp, Nat.zero_le,
    true_and, fun p => buildingsToHash_eq (hsingle p .researchLab)]

end Hash

/-! ## What changes buildings and owners -/

/-- These are the buildings, and the owners. -/
structure Db.Standing (buildings : List Building) (who : PlanetId → Option UserId) (db : Db) : Prop where
  buildings : db.buildings = buildings
  owner : ∀ p, (db.planets p).user = who p

namespace Db.Standing

variable {buildings : List Building} {who : PlanetId → Option UserId} {db : Db}

theorem setPlanet (hdb : db.Standing buildings who) {p : PlanetId} {planet : Planet}
    (huser : planet.user = (db.planets p).user) : (db.setPlanet p planet).Standing buildings who := by
  refine ⟨hdb.buildings, fun q => ?_⟩
  rw [Db.setPlanet]
  dsimp only
  split
  · rename_i heq
    rw [huser, heq]
    exact hdb.owner p
  · exact hdb.owner q

theorem frame : FleetFrame (Db.Standing buildings who) where
  fleets _ hdb := ⟨hdb.buildings, hdb.owner⟩
  stock := @fun _ _ type n _ hdb => hdb.setPlanet (Planet.user_setStock type n _)
  spend := @fun _ _ _ _ _ hdb => hdb.setPlanet (Planet.user_setStock .energy _ _)
  charge := @fun _ _ _ _ hdb => hdb.setPlanet (Planet.user_setStock .energy _ _)
  money _ _ hdb := ⟨hdb.buildings, hdb.owner⟩
  setting _ _ hdb := ⟨hdb.buildings, hdb.owner⟩
  enqueue := @fun _ _ _ _ _ hdb => ⟨hdb.buildings, hdb.owner⟩
  remove := @fun _ _ _ _ hdb => ⟨hdb.buildings, hdb.owner⟩

theorem createBuildingJob (w : World) (p : PlanetId) (name : BuildingName) :
    Safe (Db.Standing buildings who) (Planet.createBuildingJob w p name) anything := by
  refine fun db hdb => ⟨?_, fun _ _ => trivial⟩
  obtain hsame | ⟨type, u, -, -, -, hordered⟩ := Planet.createBuildingJob_outcome w p name db
  · rw [hsame]
    exact hdb
  · rw [hordered]
    have hpaid : (db.setMoney u ((db.users u).money - type.buildCostMoney)).Standing buildings who :=
      ⟨hdb.buildings, hdb.owner⟩
    have hordered : (Planet.paid db p u type).Standing buildings who := hpaid.setPlanet rfl
    exact ⟨hordered.buildings, hordered.owner⟩

/-- A claim sets the owner and leaves the buildings. -/
theorem claim (w : World) (p : PlanetId) (u : UserId) (hdb : db.Standing buildings who) :
    (after ((Planet.claim w p u).run db)).Standing buildings (Function.update who p (some u)) := by
  have hclaimed : (db.setPlanet p { db.planets p with user := some u }).Standing buildings
      (Function.update who p (some u)) := by
    refine ⟨hdb.buildings, fun q => ?_⟩
    by_cases heq : q = p
    · subst heq
      simp [Db.setPlanet]
    · simpa [Db.setPlanet, heq] using hdb.owner q
  cases hfree : (db.planets p).user with
  | some owner =>
      rw [Planet.claim, run_bind_get]
      dsimp only
      rw [hfree, run_bind_modify]
      exact hclaimed
  | none =>
      obtain ⟨next, hnext, hrun⟩ := Planet.claim_of_free (w := w)
        (J := fun _ db => db.Standing buildings (Function.update who p (some u))) hfree hclaimed fun _ name db hdb => by
          have huser := (hdb.owner p).trans (Function.update_self p (some u) who)
          refine ⟨_, Planet.startBuilding_run w huser name, ?_⟩
          exact ((createBuildingJob w p name).after hdb).setPlanet rfl
      rw [hrun]
      exact ⟨hnext.buildings, hnext.owner⟩

theorem settle (w : World) (self : Fleet) (planet : PlanetId) (hdb : db.Standing buildings who) :
    (after ((self.settle w planet).run db)).Standing buildings (Function.update who planet (some self.user)) := by
  have hclaim := hdb.claim w planet self.user
  rw [Fleet.settle, run_bind]
  cases hres : (Planet.claim w planet self.user).run db with
  | error err middle =>
      rw [hres] at hclaim
      exact hclaim
  | ok value middle =>
      rw [hres] at hclaim
      refine Safe.after (φ := anything) (Safe.get.bind fun later _ => ?_) hclaim
      refine (frame.unloadRessources _ planet).bind fun unloaded _ => ?_
      refine (frame.destroyShips w unloaded _).bind fun valued _ => ?_
      exact (frame.updateValues w _).bind fun _ _ => Safe.pure trivial

/-- Colonising claims a planet without an owner, and no other. -/
theorem colonize (w : World) (self : Fleet) (planet : PlanetId) (hdb : db.Standing buildings who) :
    (after ((self.colonize w planet).run db)).Standing buildings
      (if who planet = none then Function.update who planet (some self.user) else who) := by
  rw [Fleet.colonize, run_bind_get]
  cases hrelation : db.relation self.user planet with
  | unknown =>
      rw [if_pos ((hdb.owner planet).symm.trans (Planet.user_of_unknown hrelation))]
      exact hdb.settle w self planet
  | own | allied | enemy =>
      have howned : who planet ≠ none := by
        rw [← hdb.owner planet]
        intro hfree
        rw [Db.relation, hfree] at hrelation
        cases hrelation
      rw [if_neg howned]
      exact (frame.returnToOrigin w self planet).after hdb

end Db.Standing

/-! ## Finished buildings -/

namespace Planet

variable {rules : Rules} {p : PlanetId}

/-- The owner's level is written, if there is an owner. -/
def leveled (rules : Rules) (p : PlanetId) (game : Game) : Game :=
  match (game.db.planets p).user with
  | none => game
  | some u => game.setProfile u { game.profiles u with researchlvl := maxResearchLevel rules game.db u }

theorem finishBuilding_leveled (buildMe : Buildingtype) (buildings : List Building) (game : Game) :
    after ((finishBuilding rules p buildMe buildings).run game) =
      leveled rules p (game.setDb (finished rules p buildMe buildings game.db)) := by
  have hlevel : ∀ game : Game, after ((do
      let game ← get
      match (game.db.planets p).user with
      | none => throw .noMethodError
      | some u =>
          set (game.setProfile u { game.profiles u with
            researchlvl := maxResearchLevel rules game.db u })
          return true : GameAct Bool).run game) = leveled rules p game := by
    intro game
    rw [run_bind_get, leveled]
    cases (game.db.planets p).user <;> rfl
  rw [finishBuilding, run_bind_modify, finished]
  dsimp only
  split
  · rw [run_bind_modify]
    exact hlevel _
  · exact hlevel _

/-- A job changes nothing that counts, or finishes a building and writes the level. -/
theorem buildBuilding_leveled (rules : Rules) (p : PlanetId) (buildingtype : ℕ) (game : Game) :
    after ((buildBuilding rules p buildingtype).run game) = game.setDb (constructing game.db p 0) ∨
      ∃ buildMe new, Built rules p buildMe game.db.buildings new ∧
        after ((buildBuilding rules p buildingtype).run game) =
          leveled rules p (game.setDb (finished rules p buildMe new (constructing game.db p 0))) := by
  rw [buildBuilding, run_bind_modify]
  cases htype : rules.buildingtype buildingtype with
  | none => exact Or.inl rfl
  | some buildMe =>
      dsimp only
      rw [run_bind_get, show (game.setDb (game.db.setPlanet p
        { game.db.planets p with underConstruction := 0 })).db.buildings = game.db.buildings from rfl]
      cases hupgrade : upgradeFirst rules p buildMe game.db.buildings with
      | error err => exact Or.inl rfl
      | ok upgraded =>
          cases upgraded with
          | some new => exact Or.inr ⟨buildMe, new, .upgraded hupgrade, finishBuilding_leveled buildMe new _⟩
          | none =>
              dsimp only
              split
              · rename_i hfirst
                exact Or.inr ⟨buildMe, _, .added hupgrade hfirst, finishBuilding_leveled buildMe _ _⟩
              · exact Or.inl rfl

theorem upgradeFirst_others {buildMe : Buildingtype} {test : Building → Bool}
    (htest : ∀ building : Building, building.planet = p → test building = false) {old new : List Building}
    (hupgrade : upgradeFirst rules p buildMe old = .ok (some new)) : new.filter test = old.filter test := by
  induction old generalizing new with
  | nil => cases hupgrade
  | cons building rest ih =>
      have hskip : (upgradeFirst rules p buildMe rest).map (fun found => found.map (building :: ·)) =
          .ok (some new) → new.filter test = (building :: rest).filter test := by
        intro hmap
        cases hrest : upgradeFirst rules p buildMe rest with
        | error err =>
            rw [hrest] at hmap
            cases hmap
        | ok found =>
            rw [hrest] at hmap
            obtain ⟨others, rfl, rfl⟩ := Option.map_eq_some_iff.mp (Except.ok.inj hmap)
            rw [List.filter_cons, List.filter_cons, ih hrest]
      rw [upgradeFirst] at hupgrade
      split at hupgrade
      · rename_i hplanet
        split at hupgrade
        · cases hupgrade
        · split at hupgrade
          · cases hupgrade
            rw [List.filter_cons, List.filter_cons, htest building hplanet]
            exact congrArg (fun found : Bool => if found then _ else rest.filter test)
              (htest { building with buildingtype := buildMe.id } hplanet)
          · exact hskip hupgrade
      · exact hskip hupgrade

/-- Laboratories of other planets are what they were. -/
theorem built_labLevel {buildMe : Buildingtype} {old new : List Building} (hbuilt : Built rules p buildMe old new)
    {q : PlanetId} (hne : q ≠ p) : labLevel rules new q = labLevel rules old q := by
  have htest : ∀ building : Building, building.planet = p → rules.isRow q .researchLab building = false :=
    fun building hplanet => decide_eq_false fun h => hne (h.1.symm.trans hplanet)
  have hsame : new.filter (rules.isRow q .researchLab) = old.filter (rules.isRow q .researchLab) := by
    cases hbuilt with
    | upgraded hupgrade => exact upgradeFirst_others htest hupgrade
    | added hnone hlevel => rw [List.filter_append, List.filter_singleton, htest _ rfl, cond_false, List.append_nil]
  rw [labLevel, hsame, labLevel]

theorem finished_standing {old : List Building} {who : PlanetId → Option UserId} {db : Db} (hdb : db.Standing old who)
    (buildMe : Buildingtype) (new : List Building) : (finished rules p buildMe new db).Standing new who := by
  have hnew : Db.Standing new who { db with buildings := new } := ⟨rfl, hdb.owner⟩
  rw [finished]
  dsimp only
  split
  · exact hnew.setPlanet rfl
  · exact hnew

@[simp] theorem leveled_db (rules : Rules) (p : PlanetId) (game : Game) : (leveled rules p game).db = game.db := by
  rw [leveled]
  split <;> rfl

end Planet

/-! ## Steps -/

/-- What may happen to planets and laboratories. -/
inductive LabEvent where
  | claim (planet : PlanetId) (user : UserId)
  | colonize (fleet : FleetId) (planet : PlanetId)
  | createBuildingJob (planet : PlanetId) (name : BuildingName)
  /-- `BuildBuildings.perform`. -/
  | buildBuilding (planet : PlanetId) (buildingtype : ℕ)
  deriving DecidableEq

namespace LabEvent

def step (rules : Rules) (game : Game) : LabEvent → Option Game
  | .claim planet user => some (after ((onDb (Planet.claim rules.toWorld planet user)).run game))
  | .colonize fleet planet =>
      some (after ((onDb (do (← Fleet.find fleet).colonize rules.toWorld planet)).run game))
  | .createBuildingJob planet name =>
      some (after ((onDb (Planet.createBuildingJob rules.toWorld planet name)).run game))
  | .buildBuilding planet buildingtype => some (after ((Planet.buildBuilding rules planet buildingtype).run game))

/-- Every user's research level is the level of his best laboratory. -/
def Honest (rules : Rules) (game : Game) : Prop :=
  ∀ u, (game.profiles u).researchlvl = game.db.bestLab rules u

/-- The new owner has as good a laboratory already, and the old one keeps one. -/
def Spared (rules : Rules) (game : Game) (p : PlanetId) (u : UserId) : Prop :=
  p ∈ rules.planetIds.toFinset → labLevel rules game.db.buildings p ≤ game.db.bestLab rules u ∧
    ∀ v ∈ (game.db.planets p).user, v ≠ u → labLevel rules game.db.buildings p ≤
      best (rules.planetIds.toFinset.erase p) (fun q => (game.db.planets q).user) (labLevel rules game.db.buildings) v

def Fair (rules : Rules) (game : Game) : LabEvent → Prop
  | .claim planet user => Spared rules game planet user
  | .colonize fleet planet => ∀ row ∈ game.db.fleets.get fleet, (game.db.planets planet).user = none →
      Spared rules game planet row.attributes.user
  | .createBuildingJob _ _ => True
  | .buildBuilding _ _ => True

instance (rules : Rules) (game : Game) (p : PlanetId) (u : UserId) : Decidable (Spared rules game p u) :=
  inferInstanceAs (Decidable (_ → _ ∧ ∀ v ∈ (game.db.planets p).user, _))

instance (rules : Rules) (game : Game) : (event : LabEvent) → Decidable (event.Fair rules game)
  | .claim planet user => inferInstanceAs (Decidable (Spared rules game planet user))
  | .colonize fleet _ => inferInstanceAs (Decidable (∀ row ∈ game.db.fleets.get fleet, _ → _))
  | .createBuildingJob _ _ => .isTrue trivial
  | .buildBuilding _ _ => .isTrue trivial

variable {rules : Rules} {game next : Game}

theorem bestLab_of_standing {db : Db} {buildings : List Building} {who : PlanetId → Option UserId}
    (hdb : db.Standing buildings who) (u : UserId) :
    db.bestLab rules u = best rules.planetIds.toFinset who (labLevel rules buildings) u := by
  rw [Db.bestLab, hdb.buildings, show (fun p => (db.planets p).user) = who from funext hdb.owner]

/-- Nothing that counts has changed. -/
theorem honest_of_same (hhonest : Honest rules game) {db : Db}
    (hdb : db.Standing game.db.buildings fun p => (game.db.planets p).user) : Honest rules (game.setDb db) :=
  fun u => (hhonest u).trans (bestLab_of_standing hdb u).symm

/-- A planet has changed hands. -/
theorem honest_of_claimed (hhonest : Honest rules game) {db : Db} {p : PlanetId} {u : UserId}
    (hdb : db.Standing game.db.buildings (Function.update (fun q => (game.db.planets q).user) p (some u))) :
    Honest rules (game.setDb db) ↔ Spared rules game p u := by
  refine (forall_congr' fun v => ?_).trans best_update_iff
  rw [db_setDb, profiles_setDb, hhonest v, bestLab_of_standing hdb, Db.bestLab]
  exact eq_comm

/-- A finished building leaves the levels honest. -/
theorem honest_leveled (hhonest : Honest rules game) {p : PlanetId} {buildMe : Buildingtype} {new : List Building}
    {db : Db} (hbuilt : Planet.Built rules p buildMe game.db.buildings new)
    (hdb : db.Standing new fun q => (game.db.planets q).user) (hsingle : db.Single rules) :
    Honest rules (Planet.leveled rules p (game.setDb db)) := by
  -- whoever does not own the planet has the laboratories that he had
  have hother : ∀ v, (game.db.planets p).user ≠ some v → db.bestLab rules v = game.db.bestLab rules v := by
    intro v hne
    rw [bestLab_of_standing hdb, Db.bestLab]
    refine best_congr (fun _ _ => Iff.rfl) fun q _ hown => Planet.built_labLevel hbuilt ?_
    rintro rfl
    exact hne hown
  intro v
  rw [Planet.leveled, db_setDb, hdb.owner p]
  cases hown : (game.db.planets p).user with
  | none => exact (hhonest v).trans (hother v (hown ▸ nofun)).symm
  | some u =>
      by_cases heq : v = u
      · subst heq
        exact (congrArg Profile.researchlvl (if_pos rfl)).trans (maxResearchLevel_eq hsingle v)
      · have hlevel := (hhonest v).trans (hother v (by rw [hown]; simpa using Ne.symm heq)).symm
        exact (congrArg Profile.researchlvl (if_neg heq)).trans hlevel

theorem step_honest_iff (hhonest : Honest rules game) {event : LabEvent} (hstep : event.step rules game = some next)
    (hsingle : next.db.Single rules) : Honest rules next ↔ event.Fair rules game := by
  have hgame : game.db.Standing game.db.buildings fun p => (game.db.planets p).user := ⟨rfl, fun _ => rfl⟩
  cases event with
  | claim planet user =>
      cases hstep
      rw [after_onDb]
      exact honest_of_claimed hhonest (hgame.claim rules.toWorld planet user)
  | colonize fleet planet =>
      cases hstep
      rw [after_onDb]
      cases hget : game.db.fleets.get fleet with
      | none =>
          rw [run_bind_of_error (Fleet.find_of_none hget)]
          exact iff_of_true (honest_of_same hhonest hgame) (by simp [Fair, hget])
      | some row =>
          rw [run_bind_of_ok (Fleet.find_of_some hget)]
          have hafter := hgame.colonize rules.toWorld (Fleet.ofRow fleet row) planet
          by_cases hfree : (game.db.planets planet).user = none
          · rw [if_pos hfree] at hafter
            rw [honest_of_claimed hhonest hafter]
            simp [Fair, hget, hfree, Fleet.ofRow]
          · rw [if_neg hfree] at hafter
            exact iff_of_true (honest_of_same hhonest hafter) (by simp [Fair, hfree])
  | createBuildingJob planet name =>
      cases hstep
      rw [after_onDb]
      exact iff_of_true (honest_of_same hhonest ((Db.Standing.createBuildingJob _ planet name).after hgame)) trivial
  | buildBuilding planet buildingtype =>
      cases hstep
      refine iff_of_true ?_ trivial
      obtain hsame | ⟨buildMe, new, hbuilt, hnew⟩ := Planet.buildBuilding_leveled rules planet buildingtype game
      · rw [hsame]
        exact honest_of_same hhonest (hgame.setPlanet rfl)
      · rw [hnew] at hsingle ⊢
        rw [Planet.leveled_db] at hsingle
        have hidle : (Planet.constructing game.db planet 0).Standing game.db.buildings _ := hgame.setPlanet rfl
        exact honest_leveled hhonest hbuilt (Planet.finished_standing hidle buildMe new) hsingle

/-- The levels are honest in the state that is reached. -/
def HonestAfter (rules : Rules) (game : Game) (event : LabEvent) : Prop :=
  ∀ next, event.step rules game = some next → Honest rules next

/-- No planet has two buildings of one type in the state that is reached. -/
def SingleAfter (rules : Rules) (game : Game) (event : LabEvent) : Prop :=
  ∀ next, event.step rules game = some next → next.db.Single rules

theorem honestAfter_iff {event : LabEvent} (hhonest : Honest rules game) (hsingle : event.SingleAfter rules game) :
    event.HonestAfter rules game ↔ event.Fair rules game := by
  obtain ⟨next, hnext⟩ : ∃ next, event.step rules game = some next := by cases event <;> exact ⟨_, rfl⟩
  rw [← step_honest_iff hhonest hnext (hsingle next hnext)]
  constructor
  · exact fun hafter => hafter next hnext
  · intro hhonest other hother
    cases hnext.symm.trans hother
    exact hhonest

/-- With honest levels research asks for the best laboratory. -/
theorem technologyRequire?_of_honest (hhonest : Honest rules game) {id : TechnologyId} {row : TechnologyRow}
    {user : UserId} {first : TechnologyRequire} (hfirst : (rules.requires id).head? = some first)
    (hallowed : Technology.technologyRequire? rules game id row user = .ok true) :
    first.buildingRank ≤ game.db.bestLab rules user := by
  rw [Technology.technologyRequire?, hfirst] at hallowed
  have hall := of_decide_eq_true (Except.ok.inj hallowed)
  exact hhonest user ▸ hall.1

/-! ## Two users -/

/-- The first two laboratories. -/
def labRules : Rules := { Seeds.rules with
  buildingtypes := [
    ⟨31, .researchLab, 1, 5, 200, 0, 0, 100, [(.oremine, 3), (.powerplant, 1), (.headquarter, 1), (.city, 1)]⟩,
    ⟨32, .researchLab, 2, 3000, 500, 0, 0, 200,
      [(.oremine, 5), (.researchLab, 1), (.powerplant, 2), (.headquarter, 2), (.starport, 1)]⟩]
  buildingtypes_nodup := by decide
  one_le_level := by decide }

/-- Nobody has a planet, and nobody a research level. -/
def newGame : Game := { deserted with profiles := fun _ => {} }

theorem newGame_honest : Honest labRules newGame := fun _ =>
  (Nat.le_zero.mp (best_le_iff.mpr fun _ _ _ => Nat.le_refl 0)).symm

theorem single_of_length {db : Db} (hlength : db.buildings.length ≤ 1) : db.Single rules :=
  fun _ _ => List.countP_le_length.trans hlength

/-- There is at most one building after each step. -/
theorem singleAfter_of_lengths {events : List LabEvent} (hlengths : Along (step rules) (fun game event =>
      (event.step rules game).all (fun next => next.db.buildings.length ≤ 1) = true) game events) :
    Along (step rules) (fun game event => event.SingleAfter rules game) game events := by
  refine hlengths.of_invariant (fun _ => True) (fun _ _ _ _ _ _ => trivial) ?_ trivial
  intro state event _ hall next hnext
  rw [hnext, Option.all_some, decide_eq_true_eq] at hall
  exact single_of_length hall

end LabEvent

end Mmog
