import Mmog.Energy.Charge

/-!
# Ticks and depots

The two events that can take the energy of a planet out of its bounds, and the
condition under which they do not.
-/

namespace Mmog

open Ruby Action Game

namespace Planet

/-- What the first building of this name makes in a tick, 0 without one. -/
def production (rules : Rules) (game : Game) (u : UserId) (p : PlanetId) (planet : Planet)
    (name : BuildingName) : ℤ :=
  match productionBuilding rules game.db.buildings p name with
  | none => 0
  | some type => productionOf (game.profiles u) p planet (rules.production type.id) name

/-- Whether the planet has as much energy, with what its power plant makes, as its buildings use.
A planet without energy, without an owner or with a building without a type uses none. -/
def sustains (rules : Rules) (game : Game) (p : PlanetId) : Bool :=
  let planet := game.db.planets p
  match planet.user, energyUsage rules game.db.buildings p with
  | some u, some usage =>
      planet.energy ≤ 0 ∨ usage ≤ planet.energy + production rules game u p planet .powerplant
  | _, _ => true

/-- Whether a finished building changes the table of buildings. -/
def builds (rules : Rules) (buildings : List Building) (p : PlanetId) (buildMe : Buildingtype) : Bool :=
  match upgradeFirst rules p buildMe buildings with
  | .error _ => false
  | .ok (some _) => true
  | .ok none => buildMe.level = 1

/-- Whether the energy of the planet fits into the depot that is finished. -/
def hasRoom (rules : Rules) (game : Game) (p : PlanetId) (buildingtype : ℕ) : Bool :=
  match rules.buildingtype buildingtype with
  | none => true
  | some buildMe =>
      let planet := game.db.planets p
      let room := (depotSizeIncrease planet (rules.production buildMe.id)).maxenergy
      (buildMe.name = .depot ∧ builds rules game.db.buildings p buildMe) →
        planet.energy ≤ room ∧ room < 2 ^ 53

/-! ## Production -/

/-- The game as a tick of one planet finds it, as far as the energy depends on it. -/
structure Linked (game state : Game) : Prop where
  charged : state.db.Charged
  buildings : state.db.buildings = game.db.buildings
  profiles : state.profiles = game.profiles

variable {rules : Rules} {game : Game} {p : PlanetId}

theorem getProduction_linked (planet : Planet) (name : BuildingName) :
    Safe (Linked game) (getProduction rules p planet name) fun production =>
      0 ≤ production ∧ ∀ u, planet.user = some u → production = planet.production rules game u p name := by
  refine Safe.get.bind fun state hstate => ?_
  unfold Planet.production
  rw [hstate.buildings, hstate.profiles]
  cases productionBuilding rules game.db.buildings p name with
  | none => exact Safe.pure ⟨le_refl _, fun _ _ => rfl⟩
  | some type =>
      cases planet.user with
      | none => exact Safe.throw _ _
      | some u =>
          refine Safe.pure ⟨zero_le_one.trans (le_max_right _ _), fun v hv => ?_⟩
          rw [Option.some.inj hv]

/-- The production that runs on energy takes the usage of the buildings off the energy. -/
theorem produce_linked (planet : Planet) :
    Safe (Linked game) (produce rules p planet) fun produced =>
      ∃ u usage, planet.user = some u ∧ energyUsage rules game.db.buildings p = some usage ∧
        produced = { planet with
          ore := produced.ore
          population := produced.population
          crystal := produced.crystal
          energy := planet.energy - usage } := by
  refine (getProduction_linked _ .oremine).bind fun ore _ => ?_
  refine (getProduction_linked _ .city).bind fun population _ => ?_
  refine (getProduction_linked _ .crystalmine).bind fun crystal _ => ?_
  refine (getProduction_linked _ .headquarter).bind fun income _ => ?_
  dsimp only
  cases huser : planet.user with
  | none => exact Safe.throw _ _
  | some u =>
      refine (Safe.modify fun state hstate => ?_).bind fun _ _ => Safe.get.bind fun state hstate => ?_
      · exact ⟨hstate.charged, hstate.buildings, hstate.profiles⟩
      · rw [hstate.buildings]
        cases energyUsage rules game.db.buildings p with
        | none => exact Safe.throw _ _
        | some usage => exact Safe.pure ⟨u, usage, rfl, rfl, rfl⟩

theorem grow_charged {planet : Planet} {production : ℤ} (hmaximum : 0 ≤ planet.maxenergy)
    (hroom : planet.maxenergy < 2 ^ 53) (hsum : 0 ≤ planet.energy + production) :
    Planet.Charged { planet with energy := grow planet.energy production planet.maxenergy } := by
  unfold grow
  split
  · exact ⟨hsum, le_of_lt ‹_›, hroom⟩
  · exact ⟨hmaximum, le_refl _, hroom⟩

/-- A tick of a planet that sustains its buildings keeps the energy within bounds. -/
theorem updateResources_charged (hgame : game.db.Charged) (hsustains : sustains rules game p = true) :
    (after ((updateResources rules p).run game)).db.Charged := by
  have hplanet := hgame p
  have hmaximum := hplanet.energy.trans hplanet.full
  have hrest : ∀ planet : Planet, planet.maxenergy = (game.db.planets p).maxenergy →
      (∀ power, 0 ≤ power → (∀ u, planet.user = some u → power = planet.production rules game u p .powerplant) →
        0 ≤ planet.energy + power) →
      Safe (Linked game) (do
        let power ← getProduction rules p planet .powerplant
        let planet := { planet with energy := grow planet.energy power planet.maxenergy }
        onDb (createProductionJob p)
        modify fun game => game.setDb (game.db.setPlanet p planet) : GameAct Unit) anything := by
    intro planet hmaxenergy hpower
    refine (getProduction_linked planet .powerplant).bind fun power hvalue => ?_
    refine Safe.bind (φ := anything) ?_ fun _ _ => Safe.modify fun state hstate => ?_
    · intro state hstate
      exact ⟨⟨hstate.charged, hstate.buildings, hstate.profiles⟩, fun _ _ => trivial⟩
    · refine ⟨hstate.charged.setPlanet ?_ p, hstate.buildings, hstate.profiles⟩
      exact grow_charged (hmaxenergy ▸ hmaximum) (hmaxenergy ▸ hplanet.room) (hpower power hvalue.1 hvalue.2)
  have hsafe : Safe (Linked game) (do
      let planet ← if 0 < (game.db.planets p).energy then produce rules p (game.db.planets p)
        else pure (game.db.planets p)
      let power ← getProduction rules p planet .powerplant
      let planet := { planet with energy := grow planet.energy power planet.maxenergy }
      onDb (createProductionJob p)
      modify fun game => game.setDb (game.db.setPlanet p planet) : GameAct Unit) anything := by
    split
    · rename_i henergy
      refine (produce_linked _).bind fun produced hproduced => ?_
      obtain ⟨u, usage, huser, husage, heq⟩ := hproduced
      refine hrest produced (by rw [heq]) fun power _ hvalue => ?_
      -- neither the population nor the stocks matter to a power plant
      have hpower : power = (game.db.planets p).production rules game u p .powerplant := by
        rw [hvalue u (by rw [heq, huser]), heq]
        rfl
      unfold sustains at hsustains
      dsimp only at hsustains
      rw [huser, husage] at hsustains
      rcases of_decide_eq_true hsustains with hnone | hsum
      · exact absurd henergy (not_lt.mpr hnone)
      · have hleft : produced.energy = (game.db.planets p).energy - usage := by rw [heq]
        rw [hleft, hpower]
        omega
    · rw [pure_bind]
      exact hrest _ rfl fun power hpower _ => add_nonneg hplanet.energy hpower
  exact (hsafe.after ⟨hgame, rfl, rfl⟩).charged

/-! ## Depots -/

/-- A finished building keeps the energy within bounds if a new depot has room for it. -/
theorem buildBuilding_charged (hgame : game.db.Charged) {buildingtype : ℕ}
    (hroom : hasRoom rules game p buildingtype = true) :
    (after ((buildBuilding rules p buildingtype).run game)).db.Charged := by
  have hidle := constructing_charged hgame p 0
  obtain hsame | ⟨buildMe, new, htype, hbuilt, hfinished⟩ := buildBuilding_outcome rules p buildingtype game
  · rw [hsame]
    exact hidle
  · rw [hfinished, finished]
    dsimp only
    split
    · rename_i hdepot
      have hbuilds : builds rules game.db.buildings p buildMe = true := by
        unfold builds
        cases hbuilt with
        | upgraded hupgrade => rw [hupgrade]
        | added hnone hlevel =>
            rw [hnone]
            exact decide_eq_true hlevel
      unfold hasRoom at hroom
      rw [htype] at hroom
      obtain ⟨hfull, hbound⟩ := of_decide_eq_true hroom ⟨hdepot, hbuilds⟩
      have hself : (constructing game.db p 0).planets p =
          { game.db.planets p with underConstruction := 0 } := if_pos rfl
      have hnew : Db.Charged { constructing game.db p 0 with buildings := new } := hidle
      refine hnew.setPlanet ?_ p
      rw [hself]
      exact ⟨(hgame p).energy, hfull, hbound⟩
    · exact hidle

/-! ## Aborts and new players -/

theorem removeDelayed_charged (job : Job) : Safe Db.Charged (Resque.removeDelayed job) anything :=
  Safe.modify fun _ hdb => hdb

theorem abortUpgrade_charged (rules : Rules) (p : PlanetId) (buildingtype : ℕ) :
    Safe (fun game => game.db.Charged) (abortUpgrade rules p buildingtype) anything :=
  Db.Charged.frame.abortUpgrade rules p buildingtype (fun _ hdb => constructing_charged hdb p 0)
    (removeDelayed_charged _)

theorem deleteBuildingJob_charged (rules : Rules) (p : PlanetId) (buildingtype : ℕ) :
    Safe (fun game => game.db.Charged) (deleteBuildingJob rules p buildingtype) anything :=
  Db.Charged.frame.deleteBuildingJob rules p buildingtype (fun _ hdb => constructing_charged hdb p 0)
    (removeDelayed_charged _)

end Planet

/-! ## Every event -/

theorem step_charged {w : World} {db next : Db} (hdb : db.Charged) {event : Event}
    (hstep : step w db event = some next) : next.Charged := by
  refine Db.Charged.frame.step Db.Charged.queue (fun _ hcharged => hcharged) ?_ hdb hstep
  refine fun fleet planet start hstart => Safe.after (φ := anything) ?_ hstart
  exact (Fleet.find_safe fleet).bind fun self _ =>
    Db.Charged.frame.colonize w (Planet.claim_charged w) self planet

namespace GameEvent

/-- No tick uses more energy than there is and is made, and no depot is too small for what there is. -/
def charges (rules : Rules) (game : Game) : GameEvent → Bool
  | .updateResources planet => Planet.sustains rules game planet
  | .workPlanet index =>
      match game.db.ready[index]? with
      | some (.produceResources planet) => Planet.sustains rules game planet
      | some (.buildBuildings planet buildingtype) => Planet.hasRoom rules game planet buildingtype
      | _ => true
  | _ => true

theorem step_charged {rules : Rules} {game next : Game} (hgame : game.db.Charged) {event : GameEvent}
    (hcharges : event.charges rules game = true) (hstep : event.step rules game = some next) :
    next.db.Charged := by
  have hends : ∀ {α : Type} {action : GameAct α} {φ : α → Prop},
      Safe (fun game => game.db.Charged) action φ → ends action game = some next → next.db.Charged := by
    intro α action φ hsafe hsome
    cases hsome
    exact hsafe.after hgame
  cases event with
  | fleets event =>
      obtain ⟨db, hdb, rfl⟩ := Option.map_eq_some_iff.mp hstep
      exact Mmog.step_charged hgame hdb
  | claim planet user => exact hends (safe_onDb (Planet.claim_charged rules.toWorld planet user)) hstep
  | claimStartplanetFor user markerPos =>
      refine hends (Planet.claimStartplanetFor_safe (fun p => ?_) markerPos) hstep
      exact Planet.claim_charged rules.toWorld p user
  | createBuildingJob planet name =>
      exact hends (safe_onDb (Planet.createBuildingJob_charged rules.toWorld planet name)) hstep
  | deleteBuildingJob planet buildingtype =>
      exact hends (Planet.deleteBuildingJob_charged rules planet buildingtype) hstep
  | abortUpgrade planet buildingtype =>
      exact hends (Planet.abortUpgrade_charged rules planet buildingtype) hstep
  | updateResources planet =>
      cases hstep
      exact Planet.updateResources_charged hgame hcharges
  | workPlanet index =>
      simp only [step] at hstep
      simp only [charges] at hcharges
      split at hstep
      · rename_i job hget
        rw [hget] at hcharges
        -- the job leaves the queue, which the energy does not depend on
        let taken := game.setDb { game.db with ready := game.db.ready.eraseIdx index }
        cases job with
        | buildBuildings planet buildingtype =>
            cases hstep
            rw [after_bind_pure]
            exact Planet.buildBuilding_charged (show taken.db.Charged from hgame) hcharges
        | produceResources planet =>
            cases hstep
            exact Planet.updateResources_charged (show taken.db.Charged from hgame) hcharges
        | _ => cases hstep
      · cases hstep
  | _ => exact Db.Charged.frame.jobless hgame rfl hstep

end GameEvent

end Mmog
