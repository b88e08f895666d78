import Mmog.Ownership.Chain

/-!
# Ticks and colonists

The tick of an owned planet always comes to the end and enqueues the next one.
A colonist claims a planet only if it has no owner.
-/

namespace Mmog

open Ruby Action Game

variable {rules : Rules} {who : PlanetId → Option UserId} {pending : PlanetId → ℕ}

namespace Planet

variable {p : PlanetId} {u : UserId} {planet : Planet} {game : Game}

/-! ## Production -/

/-- The production of an owned planet can be computed. -/
theorem getProduction_returns (rules : Rules) (p : PlanetId) (huser : planet.user = some u)
    (name : BuildingName) (game : Game) :
    ∃ production, (getProduction rules p planet name).run game = .ok production game := by
  rw [getProduction, run_bind_get]
  cases productionBuilding rules game.db.buildings p name with
  | none => exact ⟨0, rfl⟩
  | some type =>
      rw [huser]
      exact ⟨_, rfl⟩

theorem energyUsage_isSome {buildings : List Building} (htyped : rules.Typed buildings) (p : PlanetId) :
    ∃ usage, energyUsage rules buildings p = some usage := by
  have hall : ∀ l : List Building, (∀ building ∈ l, (rules.buildingtype building.buildingtype).isSome = true) →
      ∃ usages, (l.mapM fun building => (rules.buildingtype building.buildingtype).map fun type =>
        rules.energyusage type.id) = some usages := by
    intro l hl
    induction l with
    | nil => exact ⟨[], rfl⟩
    | cons building l ih =>
        obtain ⟨hhead, htail⟩ := List.forall_mem_cons.mp hl
        obtain ⟨type, htype⟩ := Option.isSome_iff_exists.mp hhead
        obtain ⟨usages, husages⟩ := ih htail
        refine ⟨rules.energyusage type.id :: usages, ?_⟩
        rw [List.mapM_cons, htype, husages]
        rfl
  obtain ⟨usages, husages⟩ := hall (buildings.filter fun building => building.planet = p)
    fun building hbuilding => htyped building (List.mem_of_mem_filter hbuilding)
  exact ⟨usages.sum, by rw [energyUsage, husages, Option.map_some]⟩

/-- The part of a tick that runs on energy changes the object and the money of the owner. -/
theorem produce_returns (huser : planet.user = some u) (htyped : rules.Typed game.db.buildings)
    (p : PlanetId) :
    ∃ produced money, (produce rules p planet).run game =
        .ok produced (game.setDb (game.db.setMoney u money)) ∧ produced.user = some u := by
  obtain ⟨ore, hore⟩ := getProduction_returns rules p huser .oremine game
  let mined : Planet := { planet with ore := grow planet.ore ore planet.maxore }
  have hmined : mined.user = some u := huser
  obtain ⟨people, hpeople⟩ := getProduction_returns rules p hmined .city game
  let settled : Planet :=
    { mined with population := grow mined.population people mined.maxpopulation }
  have hsettled : settled.user = some u := huser
  obtain ⟨crystal, hcrystal⟩ := getProduction_returns rules p hsettled .crystalmine game
  let dug : Planet := { settled with crystal := grow settled.crystal crystal settled.maxcrystal }
  have hdug : dug.user = some u := huser
  obtain ⟨income, hincome⟩ := getProduction_returns rules p hdug .headquarter game
  obtain ⟨usage, husage⟩ := energyUsage_isSome htyped p
  refine ⟨{ dug with energy := dug.energy - usage }, (game.db.users u).money + income, ?_, huser⟩
  refine (run_bind_of_ok hore _).trans ((run_bind_of_ok hpeople _).trans ?_)
  refine (run_bind_of_ok hcrystal _).trans ((run_bind_of_ok hincome _).trans ?_)
  dsimp only
  rw [hdug, run_bind_modify, run_bind_get, show (game.setDb (game.db.setMoney u
    ((game.db.users u).money + income))).db.buildings = game.db.buildings from rfl, husage]
  rfl

/-- A tick on an owned planet enqueues the next one and changes no owner. -/
theorem updateResources_chains (hgame : game.db.Chains rules who pending) (hown : who p = some u) :
    (after ((updateResources rules p).run game)).db.Chains rules who
      (Function.update pending p (pending p + 1)) := by
  have hrest : ∀ (planet : Planet) (state : Game), planet.user = some u →
      state.db.Chains rules who pending →
        (after ((do
          let power ← getProduction rules p planet .powerplant
          let planet := { planet with energy := grow planet.energy power planet.maxenergy }
          onDb (createProductionJob p)
          modify fun game => game.setDb (game.db.setPlanet p planet) : GameAct Unit).run state)).db.Chains
            rules who (Function.update pending p (pending p + 1)) := by
    intro planet state huser hstate
    obtain ⟨power, hpower⟩ := getProduction_returns rules p huser .powerplant state
    obtain ⟨next, hrun, hnext⟩ := createProductionJob_chains hstate p
    rw [run_bind_of_ok hpower]
    dsimp only
    rw [run_bind_of_ok (run_onDb_of_ok hrun), run_modify]
    exact hnext.setPlanet (huser.trans (hown.symm.trans (hnext.owner p).symm))
  have huser : (game.db.planets p).user = some u := (hgame.owner p).trans hown
  rw [updateResources, run_bind_get]
  dsimp only
  split
  · obtain ⟨produced, money, hproduce, hproduced⟩ := produce_returns huser hgame.typed p
    rw [run_bind_of_ok hproduce]
    exact hrest produced _ hproduced (hgame.setMoney u money)
  · rw [run_bind_pure]
    exact hrest _ game huser hgame

end Planet

/-! ## Colonists -/

namespace Fleet

variable {db : Db} {planet : PlanetId}

theorem settle_chains (w : World) (self : Fleet) (hdb : db.Chains rules who pending)
    (hfree : who planet = none) :
    (after ((self.settle w planet).run db)).Chains rules
      (Function.update who planet (some self.user)) (Function.update pending planet (pending planet + 1)) := by
  obtain ⟨next, hclaim, hnext⟩ := Planet.claim_chains w hdb hfree self.user
  have hframe : FleetFrame (Db.Chains rules (Function.update who planet (some self.user))
      (Function.update pending planet (pending planet + 1))) := Db.Chains.frame
  rw [settle, run_bind_of_ok hclaim]
  refine Safe.after (φ := anything) (Safe.get.bind fun state _ => ?_) hnext
  refine (hframe.unloadRessources _ planet).bind fun unloaded _ => ?_
  refine (hframe.destroyShips w unloaded _).bind fun valued _ => ?_
  exact (hframe.updateValues w _).bind fun _ _ => Safe.pure trivial

/-- Colonising leaves the owners as they are, or claims a planet without one. -/
theorem colonize_chains (w : World) (self : Fleet) (planet : PlanetId)
    (hdb : db.Chains rules who pending) :
    (after ((self.colonize w planet).run db)).Chains rules who pending ∨
      (who planet = none ∧ (after ((self.colonize w planet).run db)).Chains rules
        (Function.update who planet (some self.user))
        (Function.update pending planet (pending planet + 1))) := by
  have hreturn := ((Db.Chains.frame.returnToOrigin w self planet).after hdb)
  rw [colonize, run_bind_get]
  cases hrelation : db.relation self.user planet with
  | unknown =>
      have hfree := (hdb.owner planet).symm.trans (Planet.user_of_unknown hrelation)
      exact Or.inr ⟨hfree, settle_chains w self hdb hfree⟩
  | own => exact Or.inl hreturn
  | allied => exact Or.inl hreturn
  | enemy => exact Or.inl hreturn

end Fleet

end Mmog
