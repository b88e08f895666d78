import Mmog.Game.Holdings
import Mmog.Game.Step

/-!
# What building does

An order for a building is refused or paid and enqueued; a finished building is
an upgrade of one that is there or a new one of level 1.  What these and an
abort do to the tables is said once here.
-/

namespace Mmog

open Ruby Action Game

def Buildingtype.cost (type : Buildingtype) : Resource → ℕ
  | .ore => type.buildCostOre
  | .crystal => type.buildCostCrystal
  | .population => type.buildCostPopulation
  | .money => type.buildCostMoney
  | .energy => 0
  | .other => 0

namespace Planet

/-! ## Orders -/

/-- Sets what is under construction on a planet. -/
def constructing (db : Db) (p : PlanetId) (id : ℕ) : Db :=
  db.setPlanet p { db.planets p with underConstruction := id }

def Affords (db : Db) (p : PlanetId) (u : UserId) (type : Buildingtype) : Prop :=
  (type.buildCostOre : ℤ) ≤ (db.planets p).ore ∧ (type.buildCostCrystal : ℤ) ≤ (db.planets p).crystal ∧
    (type.buildCostPopulation : ℤ) ≤ (db.planets p).population ∧
    (type.buildCostMoney : ℤ) ≤ (db.users u).money

instance (db : Db) (p : PlanetId) (u : UserId) (type : Buildingtype) : Decidable (Affords db p u type) :=
  inferInstanceAs (Decidable (_ ∧ _))

/-- The planet and its owner have paid for a building of this type. -/
def paid (db : Db) (p : PlanetId) (u : UserId) (type : Buildingtype) : Db :=
  let planet := db.planets p
  (db.setMoney u ((db.users u).money - type.buildCostMoney)).setPlanet p
    { planet with
      ore := planet.ore - type.buildCostOre
      crystal := planet.crystal - type.buildCostCrystal
      population := planet.population - type.buildCostPopulation
      underConstruction := type.id }

/-- An order takes exactly what its building costs. -/
theorem holding_paid {db : Db} {p : PlanetId} {u : UserId} (huser : (db.planets p).user = some u)
    (type : Buildingtype) (resource : Resource) :
    (paid db p u type).holding p resource = db.holding p resource - type.cost resource := by
  cases resource <;> simp [Db.holding, paid, Db.setPlanet, Db.setMoney, stock, huser, Buildingtype.cost]

theorem holding_constructing (db : Db) (p : PlanetId) (id : ℕ) (type : Resource) :
    (constructing db p id).holding p type = db.holding p type := by
  cases type <;> simp [Db.holding, constructing, Db.setPlanet, stock]

/-- The entry of the delayed set that an order makes. -/
def order (db : Db) (p : PlanetId) (type : Buildingtype) : Enqueued :=
  ⟨db.now + ((type.buildTime : ℤ) * buildFactor (db.planets p)).toI, .buildBuildings p type.id⟩

/-- An order changes nothing, or it is paid and enqueued. -/
theorem createBuildingJob_outcome (w : World) (p : PlanetId) (name : BuildingName) (db : Db) :
    after ((createBuildingJob w p name).run db) = db ∨
      ∃ type u, buildable w db p name = some type ∧ (db.planets p).user = some u ∧ Affords db p u type ∧
        after ((createBuildingJob w p name).run db) =
          { paid db p u type with delayed := db.delayed ++ [order db p type] } := by
  rw [createBuildingJob, run_bind_get]
  dsimp only
  cases hbuildable : buildable w db p name with
  | none => exact Or.inl rfl
  | some type =>
      cases huser : (db.planets p).user with
      | none => exact Or.inl rfl
      | some u =>
          dsimp only
          split
          · exact Or.inl rfl
          · rename_i hafford
            have haffords : Affords db p u type := by
              unfold Affords
              omega
            refine Or.inr ⟨type, u, rfl, rfl, haffords, ?_⟩
            rw [run_bind_modify]
            unfold paid order
            rw [← huser]
            rfl

/-- An order of an owner returns. -/
theorem createBuildingJob_returns (w : World) {p : PlanetId} {u : UserId} {db : Db}
    (huser : (db.planets p).user = some u) (name : BuildingName) :
    ∃ done next, (createBuildingJob w p name).run db = .ok done next := by
  rw [createBuildingJob, run_bind_get]
  dsimp only
  rw [huser]
  cases buildable w db p name with
  | none => exact ⟨false, db, rfl⟩
  | some type =>
      dsimp only
      split
      · exact ⟨false, db, rfl⟩
      · exact ⟨true, _, rfl⟩

/-! ## Finished buildings -/

/-- The table of buildings when one of type `buildMe` is finished. -/
inductive Built (rules : Rules) (p : PlanetId) (buildMe : Buildingtype) (old : List Building) :
    List Building → Prop
  | upgraded {new : List Building} (hupgrade : upgradeFirst rules p buildMe old = .ok (some new)) :
      Built rules p buildMe old new
  | added (hnone : upgradeFirst rules p buildMe old = .ok none) (hlevel : buildMe.level = 1) :
      Built rules p buildMe old (old ++ [⟨p, buildMe.id⟩])

/-- The building is in the table, and the room of a depot is there. -/
def finished (rules : Rules) (p : PlanetId) (buildMe : Buildingtype) (buildings : List Building)
    (db : Db) : Db :=
  let db := { db with buildings }
  if buildMe.name = .depot then
    db.setPlanet p (depotSizeIncrease (db.planets p) (rules.production buildMe.id))
  else db

theorem finishBuilding_db (rules : Rules) (p : PlanetId) (buildMe : Buildingtype)
    (buildings : List Building) (game : Game) :
    (after ((finishBuilding rules p buildMe buildings).run game)).db =
      finished rules p buildMe buildings game.db := by
  rw [finishBuilding, run_bind_modify, finished]
  dsimp only
  -- the rank of the owner is no part of the tables of planets
  split
  · rw [run_bind_modify, run_bind_get]
    split <;> rfl
  · rw [run_bind_get]
    split <;> rfl

/-- A job leaves the buildings as they are, or finishes one; nothing is under construction then. -/
theorem buildBuilding_outcome (rules : Rules) (p : PlanetId) (buildingtype : ℕ) (game : Game) :
    (after ((buildBuilding rules p buildingtype).run game)).db = constructing game.db p 0 ∨
      ∃ buildMe new, rules.buildingtype buildingtype = some buildMe ∧
        Built rules p buildMe game.db.buildings new ∧
        (after ((buildBuilding rules p buildingtype).run game)).db =
          finished rules p buildMe new (constructing game.db p 0) := by
  rw [buildBuilding, run_bind_modify]
  cases htype : rules.buildingtype buildingtype with
  | none => exact Or.inl rfl
  | some buildMe =>
      dsimp only
      rw [run_bind_get, show (game.setDb (game.db.setPlanet p
        { game.db.planets p with underConstruction := 0 })).db.buildings = game.db.buildings from rfl]
      cases hupgrade : upgradeFirst rules p buildMe game.db.buildings with
      | error err => exact Or.inl rfl
      | ok upgraded =>
          cases upgraded with
          | some new =>
              exact Or.inr ⟨buildMe, new, rfl, .upgraded hupgrade, finishBuilding_db rules p buildMe new _⟩
          | none =>
              dsimp only
              split
              · rename_i hlevel
                exact Or.inr ⟨buildMe, _, rfl, .added hupgrade hlevel, finishBuilding_db rules p buildMe _ _⟩
              · exact Or.inl rfl

end Planet

/-! ## Aborts -/

namespace FleetFrame

variable {I : Db → Prop} (hframe : FleetFrame I) (rules : Rules) (p : PlanetId) (buildingtype : ℕ)

include hframe

/-- Deleting a job keeps what removing it and setting the flag back keep. -/
theorem deleteBuildingJob (hflag : ∀ db, I db → I (Planet.constructing db p 0))
    (hremove : Safe I (Resque.removeDelayed (.buildBuildings p buildingtype)) anything) :
    Safe (fun game => I game.db) (Planet.deleteBuildingJob rules p buildingtype) anything := by
  have hgive := fun type number => safe_onDb (hframe.give p type number)
  refine Safe.get.bind fun game _ => (safe_onDb hremove).bind fun _ _ => ?_
  refine Safe.ite (fun _ => ?_) fun _ => Safe.pure trivial
  refine (Safe.modify fun game hgame => hflag game.db hgame).bind fun _ _ => ?_
  cases rules.buildingtype buildingtype with
  | none => exact Safe.throw _ _
  | some destroyMe =>
      refine (hgive .ore _).bind fun _ _ => (hgive .crystal _).bind fun _ _ => ?_
      refine (hgive .population _).bind fun _ _ => (hgive .money _).bind fun _ _ => ?_
      exact Safe.pure trivial

theorem abortUpgrade (hflag : ∀ db, I db → I (Planet.constructing db p 0))
    (hremove : Safe I (Resque.removeDelayed (.buildBuildings p buildingtype)) anything) :
    Safe (fun game => I game.db) (Planet.abortUpgrade rules p buildingtype) anything := by
  refine (hframe.deleteBuildingJob rules p buildingtype hflag hremove).bind fun removed _ => ?_
  exact Safe.ite (fun _ => Safe.pure trivial) fun _ => Safe.modify fun game hgame => hflag game.db hgame

end FleetFrame

/-! ## Claims -/

namespace Planet

variable {I : Db → Prop} {w : World}

/-- Claiming keeps what setting the owner, four orders and enqueuing a tick keep. -/
theorem claim_safe {p : PlanetId} {u : UserId}
    (howner : ∀ db, I db → I (db.setPlanet p { db.planets p with user := some u }))
    (horder : ∀ name, Safe I (createBuildingJob w p name) anything)
    (hflag : ∀ db, I db → I (constructing db p 0))
    (hproduce : Safe I (createProductionJob p) anything) : Safe I (claim w p u) anything := by
  have hstart : ∀ name, Safe I (startBuilding w p name) anything := fun name =>
    (horder name).bind fun _ _ => Safe.modify hflag
  have hrest : Safe I (do
      startBuilding w p .oremine
      startBuilding w p .headquarter
      startBuilding w p .powerplant
      startBuilding w p .city
      createProductionJob p : Act Unit) anything := by
    refine (hstart .oremine).bind fun _ _ => (hstart .headquarter).bind fun _ _ => ?_
    exact (hstart .powerplant).bind fun _ _ => (hstart .city).bind fun _ _ => hproduce
  intro db hdb
  rw [claim, run_bind_get]
  dsimp only
  rw [run_bind_modify]
  split
  · exact hrest _ (howner db hdb)
  · exact ⟨howner db hdb, fun _ _ => trivial⟩

theorem startBuilding_run (w : World) {p : PlanetId} {u : UserId} {db : Db}
    (huser : (db.planets p).user = some u) (name : BuildingName) :
    (startBuilding w p name).run db =
      .ok ⟨⟩ (constructing (after ((createBuildingJob w p name).run db)) p 0) := by
  obtain ⟨done, next, hrun⟩ := createBuildingJob_returns w huser name
  rw [startBuilding, run_bind_of_ok hrun, hrun]
  rfl

/-- A planet that is claimed when a fleet arrives has no owner. -/
theorem user_of_unknown {db : Db} {user : UserId} {planet : PlanetId}
    (hunknown : db.relation user planet = .unknown) : (db.planets planet).user = none := by
  unfold Db.relation at hunknown
  split at hunknown
  · assumption
  · split_ifs at hunknown

/-- Claiming a planet without an owner starts four buildings one after the other, and its ticks. -/
theorem claim_of_free {J : List BuildingName → Db → Prop} {p : PlanetId} {u : UserId} {db : Db}
    (hfree : (db.planets p).user = none)
    (hbegin : J [] (db.setPlanet p { db.planets p with user := some u }))
    (hstart : ∀ done name db, J done db →
      ∃ next, (startBuilding w p name).run db = .ok ⟨⟩ next ∧ J (name :: done) next) :
    ∃ next, J [.city, .powerplant, .headquarter, .oremine] next ∧ (claim w p u).run db =
      .ok ⟨⟩ { next with delayed := next.delayed ++ [⟨next.now + 30, .produceResources p⟩] } := by
  obtain ⟨db₁, hrun₁, hdb₁⟩ := hstart _ .oremine _ hbegin
  obtain ⟨db₂, hrun₂, hdb₂⟩ := hstart _ .headquarter _ hdb₁
  obtain ⟨db₃, hrun₃, hdb₃⟩ := hstart _ .powerplant _ hdb₂
  obtain ⟨db₄, hrun₄, hdb₄⟩ := hstart _ .city _ hdb₃
  refine ⟨db₄, hdb₄, ?_⟩
  rw [claim, run_bind_get]
  dsimp only
  rw [hfree, run_bind_modify]
  refine (run_bind_of_ok hrun₁ _).trans ((run_bind_of_ok hrun₂ _).trans ?_)
  exact (run_bind_of_ok hrun₃ _).trans ((run_bind_of_ok hrun₄ _).trans rfl)

theorem claimStartplanetFor_safe {rules : Rules} {u : UserId}
    (hclaim : ∀ p, Safe I (claim rules.toWorld p u) anything) (markerPos : ℕ) :
    Safe (fun game => I game.db) (claimStartplanetFor rules u markerPos) anything := by
  refine Safe.get.bind fun game _ => Safe.ite (fun _ => Safe.pure trivial) fun _ => ?_
  cases searchStartplanet rules game.db markerPos with
  | none => exact Safe.pure trivial
  | some p =>
      refine (safe_onDb (hclaim p)).bind fun _ _ => ?_
      refine (Safe.modify fun state hstate => ?_).bind fun _ _ => Safe.pure trivial
      exact hstate

/-! ## Ticks -/

/-- Computing a production only reads. -/
theorem getProduction_reads {J : Game → Prop} (rules : Rules) (p : PlanetId) (planet : Planet)
    (name : BuildingName) : Safe J (getProduction rules p planet name) anything := by
  refine Safe.get.bind fun game _ => ?_
  split
  · exact Safe.pure trivial
  · exact Safe.throw _ _
  · exact Safe.pure trivial

theorem produce_safe (hmoney : ∀ db u n, I db → I (db.setMoney u n)) (rules : Rules) (p : PlanetId)
    (planet : Planet) :
    Safe (fun game => I game.db) (produce rules p planet) fun produced => produced.user = planet.user := by
  refine (getProduction_reads rules p _ .oremine).bind fun ore _ => ?_
  refine (getProduction_reads rules p _ .city).bind fun population _ => ?_
  refine (getProduction_reads rules p _ .crystalmine).bind fun crystal _ => ?_
  refine (getProduction_reads rules p _ .headquarter).bind fun income _ => ?_
  dsimp only
  cases planet.user with
  | none => exact Safe.throw _ _
  | some u =>
      refine (Safe.modify fun game hgame => ?_).bind fun _ _ => Safe.get.bind fun game _ => ?_
      · exact hmoney game.db u _ hgame
      · split
        · exact Safe.throw _ _
        · exact Safe.pure rfl

/-- A tick keeps what money, the next tick, and saving the planet with its owner keep. -/
theorem updateResources_safe {rules : Rules} {p : PlanetId} {game : Game} (hgame : I game.db)
    (hmoney : ∀ db u n, I db → I (db.setMoney u n)) (hproduce : Safe I (createProductionJob p) anything)
    (hplanet : ∀ db planet, planet.user = (game.db.planets p).user → I db → I (db.setPlanet p planet)) :
    I (after ((updateResources rules p).run game)).db := by
  have hrest : ∀ planet : Planet, planet.user = (game.db.planets p).user → Safe (fun game => I game.db) (do
      let power ← getProduction rules p planet .powerplant
      let planet := { planet with energy := grow planet.energy power planet.maxenergy }
      onDb (createProductionJob p)
      modify fun game => game.setDb (game.db.setPlanet p planet) : GameAct Unit) anything := by
    intro planet huser
    refine (getProduction_reads rules p planet .powerplant).bind fun power _ => ?_
    refine (safe_onDb hproduce).bind fun _ _ => Safe.modify fun state hstate => ?_
    exact hplanet state.db _ huser hstate
  rw [updateResources, run_bind_get]
  dsimp only
  split
  · exact ((produce_safe hmoney rules p _).bind hrest).after hgame
  · rw [run_bind_pure]
    exact (hrest _ rfl).after hgame

end Planet

end Mmog
