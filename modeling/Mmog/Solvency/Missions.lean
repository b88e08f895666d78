import Mmog.Model.Controller
import Mmog.Solvency.Fleets

/-!
# Missions and fights

Every mission, whatever its random draws, keeps the stocks, the money and the
cargo from falling below zero.
-/

namespace Mmog

open Ruby Action

namespace Fleet

/-! ## Departure -/

section Departure

variable (w : World)

theorem attackPlanetIn_solvent (self : Fleet) (time : ℤ) (planet : PlanetId) :
    Safe Db.Solvent (self.attackPlanetIn time planet) anything :=
  Safe.ite (fun _ => Safe.throw_bind _ _ _) fun _ => Resque.enqueueAt_solvent _ _

theorem travelToPlanetIn_solvent (self : Fleet) (time : ℤ) (planet : PlanetId) :
    Safe Db.Solvent (self.travelToPlanetIn time planet) anything :=
  Safe.ite (fun _ => Safe.throw_bind _ _ _) fun _ => Resque.enqueueAt_solvent _ _

theorem transportToPlanetIn_solvent (self : Fleet) (time : ℤ) (planet : PlanetId) :
    Safe Db.Solvent (self.transportToPlanetIn time planet) anything :=
  Safe.ite (fun _ => Safe.throw_bind _ _ _) fun _ => Resque.enqueueAt_solvent _ _

theorem spyPlanetIn_solvent (self : Fleet) (time : ℤ) (planet : PlanetId) :
    Safe Db.Solvent (self.spyPlanetIn time planet) anything := by
  refine (getShips_solvent self).bind fun ships _ => ?_
  refine Safe.ite (fun _ => Safe.throw_bind _ _ _) fun _ => ?_
  refine Safe.ite (fun _ => Safe.throw_bind _ _ _) fun _ => ?_
  exact Safe.get.bind fun db _ => Resque.enqueueAt_solvent _ _

theorem colonizePlanetIn_solvent {self : Fleet} (hself : self.Solvent) (time : ℤ)
    (planet : PlanetId) : Safe Db.Solvent (self.colonizePlanetIn w time planet) anything := by
  refine (getShips_solvent self).bind fun ships _ => ?_
  refine Safe.ite (fun _ => Safe.throw_bind _ _ _) fun _ => ?_
  refine Safe.ite (fun _ => Safe.throw_bind _ _ _) fun _ => ?_
  exact (loadRessources_solvent hself _ _ _ _).bind fun _ _ => Resque.enqueueAt_solvent _ _

theorem depart_solvent {self fleet : Fleet} (hparted : Parted self fleet) (mission : MissionId)
    (energy : Numeric) {prepare : Fleet → Act Fleet} {enqueue : Fleet → Act Unit}
    (hprepare : ∀ fleet : Fleet, fleet.Solvent → Safe Db.Solvent (prepare fleet) Solvent)
    (henqueue : ∀ fleet : Fleet, fleet.Solvent → Safe Db.Solvent (enqueue fleet) anything) :
    Safe Db.Solvent (depart w self fleet mission energy prepare enqueue) anything := by
  refine Safe.get.bind fun db _ => Safe.ite (fun _ => ?_) fun _ => ?_
  · refine (Planet.take_solvent _ .energy fun h => absurd rfl h).bind fun _ _ => ?_
    refine (hprepare fleet hparted.leaving).bind fun prepared hprepared => ?_
    have hsolvent : Solvent { prepared with missionId := mission } := hprepared
    exact (save_solvent hsolvent).bind fun _ _ => henqueue _ hsolvent
  · exact (mergeFleet_solvent w hparted.merged).bind fun _ _ => Safe.throw _ _

theorem launch_solvent {self fleet : Fleet} (hparted : Parted self fleet) (mission : MissionId)
    (energy : Numeric) (destination : PlanetId) (ore crystal credit : ℤ) :
    Safe Db.Solvent (launch w self fleet mission energy destination ore crystal credit) anything := by
  have hload : ∀ fleet : Fleet, fleet.Solvent →
      Safe Db.Solvent (fleet.loadRessources ore crystal credit fleet.originPlanet) Solvent :=
    fun fleet hfleet => loadRessources_solvent hfleet _ _ _ _
  have hpure : ∀ fleet : Fleet, fleet.Solvent → Safe Db.Solvent (pure fleet : Act Fleet) Solvent :=
    fun _ hfleet => Safe.pure hfleet
  unfold launch
  dsimp only
  split
  · exact depart_solvent w hparted 2 _ hload fun _ hfleet => colonizePlanetIn_solvent w hfleet _ _
  · exact depart_solvent w hparted 3 _ hpure fun fleet _ => attackPlanetIn_solvent fleet _ _
  · exact depart_solvent w hparted 4 _ hpure fun fleet _ => travelToPlanetIn_solvent fleet _ _
  · exact depart_solvent w hparted 5 _ hpure fun fleet _ => spyPlanetIn_solvent fleet _ _
  · exact depart_solvent w hparted 6 _ hload fun fleet _ => transportToPlanetIn_solvent fleet _ _
  · exact (mergeFleet_solvent w hparted.merged).bind fun _ _ => Safe.throw _ _

theorem move_solvent {self : Fleet} (hself : self.Solvent) (mission : MissionId)
    (destination : PlanetId) (shipHash : Hash ShipId ℤ) (ore crystal credit : ℤ) :
    Safe Db.Solvent (self.move w mission destination shipHash ore crystal credit) anything := by
  refine Safe.ite (fun _ => Safe.throw_bind _ _ _) fun _ => ?_
  refine (splitFleet_solvent w hself shipHash).bind fun fleets hparted => ?_
  obtain ⟨staying, leaving⟩ := fleets
  refine (flight_safe w leaving _).bind fun needs _ => ?_
  obtain ⟨time, energy⟩ := needs
  refine Safe.get.bind fun db _ => ?_
  refine launch_solvent w ?_ mission energy destination ore crystal credit
  exact (show Parted staying leaving from hparted).of_eq rfl

end Departure

/-! ## Return -/

theorem returnToOrigin_solvent (w : World) {self : Fleet} (hself : self.Solvent)
    (planet : PlanetId) : Safe Db.Solvent (self.returnToOrigin w planet) anything := by
  refine (getVelocity_safe w self).bind fun velocity _ => Safe.get.bind fun db _ => ?_
  refine (save_solvent ?_).bind fun _ _ => Resque.enqueueAt_solvent _ _
  exact hself

theorem breakupMission_solvent {self : Fleet} (hself : self.Solvent) :
    Safe Db.Solvent self.breakupMission anything := by
  refine Safe.ite (fun _ => Safe.throw_bind _ _ _) fun _ => Safe.get.bind fun db _ => ?_
  refine (Resque.removeDelayed_solvent _).bind fun _ _ => Safe.get.bind fun later _ => ?_
  exact (Resque.enqueueAt_solvent _ _).bind fun _ _ => save_solvent hself

theorem arriveHome_solvent (w : World) {self : Fleet} (hself : self.Solvent) :
    Safe Db.Solvent (self.arriveHome w) anything := by
  refine (getHomeFleet_solvent _).bind fun found hfound => ?_
  cases found with
  | none => exact Safe.throw _ _
  | some homeFleet =>
      have hparted := parted_of_solvent (hfound homeFleet rfl) hself
      exact (mergeFleet_solvent w hparted.merged).bind fun _ _ => Safe.pure trivial

/-! ## Arrival -/

theorem settle_solvent (w : World) (self : Fleet) (planet : PlanetId) :
    Safe Db.Solvent (self.settle w planet) anything := by
  refine (Planet.claim_solvent w planet _).bind fun _ _ => Safe.get.bind fun db _ => ?_
  refine (unloadRessources_solvent _ planet).bind fun unloaded hunloaded => ?_
  refine (destroyShips_solvent w hunloaded _).bind fun valued hvalued => ?_
  have hthird : 0 ≤ (valued.getCapacity / 3).toI :=
    Numeric.toI_nonneg (Numeric.value_div_nonneg (getCapacity_nonneg hvalued.capacity)
      (by norm_num))
  refine (updateValues_solvent w ?_).bind fun _ _ => Safe.pure trivial
  split
  · exact ⟨hthird, hthird, hthird⟩
  · exact hvalued.solvent hunloaded

section Arrival

variable (w : World) {self : Fleet} (hself : self.Solvent)

include hself

theorem colonize_solvent (planet : PlanetId) : Safe Db.Solvent (self.colonize w planet) anything := by
  refine Safe.get.bind fun db _ => ?_
  cases db.relation self.user planet with
  | unknown => exact settle_solvent w self planet
  | own => exact returnToOrigin_solvent w hself planet
  | allied => exact returnToOrigin_solvent w hself planet
  | enemy => exact returnToOrigin_solvent w hself planet

theorem travel_solvent (planet : PlanetId) : Safe Db.Solvent (self.travel w planet) anything := by
  refine Safe.get.bind fun db _ => ?_
  cases db.relation self.user planet with
  | unknown => exact returnToOrigin_solvent w hself planet
  | own =>
      refine (getHomeFleet_solvent planet).bind fun found hfound => ?_
      cases found with
      | none => exact Safe.throw _ _
      | some homeFleet =>
          have hparted := parted_of_solvent (hfound homeFleet rfl) hself
          exact (mergeFleet_solvent w hparted.merged).bind fun _ _ => Safe.pure trivial
  | allied => exact Safe.get.bind fun later _ => save_solvent hself
  | enemy => exact returnToOrigin_solvent w hself planet

theorem transport_solvent (planet : PlanetId) :
    Safe Db.Solvent (self.transport w planet) anything := by
  have hunload : Safe Db.Solvent (do
      let self ← self.unloadRessources planet
      self.returnToOrigin w planet : Act Unit) anything :=
    (unloadRessources_solvent self planet).bind fun _ hunloaded =>
      returnToOrigin_solvent w hunloaded planet
  refine Safe.get.bind fun db _ => ?_
  cases db.relation self.user planet with
  | unknown => exact returnToOrigin_solvent w hself planet
  | own => exact hunload
  | allied => exact hunload
  | enemy => exact returnToOrigin_solvent w hself planet

theorem spy_solvent (r : ℚ) (ownSpyFactor : Factor) (planet : PlanetId) :
    Safe Db.Solvent (self.spy w r ownSpyFactor planet) anything := by
  refine Safe.get.bind fun db _ => ?_
  cases db.relation self.user planet with
  | unknown => exact returnToOrigin_solvent w hself planet
  | own => exact returnToOrigin_solvent w hself planet
  | allied => exact returnToOrigin_solvent w hself planet
  | enemy =>
      exact Safe.ite (fun _ => destroy_solvent self) fun _ => returnToOrigin_solvent w hself planet

/-! ## Fights -/

theorem fight_solvent (draws : Draws) (planet : PlanetId) :
    Safe Db.Solvent (self.fight w draws planet) fun winner => ∀ fleet ∈ winner, fleet.Solvent := by
  have hselect : Safe Db.Solvent (select (Db.stationedAt planet)) fun fleets =>
      ∀ fleet ∈ fleets, fleet.Solvent := by
    refine Safe.get.bind fun db hdb => Safe.pure fun fleet hfleet => ?_
    obtain ⟨id, -, hfound⟩ := List.mem_filterMap.mp hfleet
    obtain ⟨row, hrow, rfl⟩ := Option.map_eq_some_iff.mp hfound
    exact (hdb.fleets id row hrow).cargo
  have hraise : ∀ {α : Type} (outcome : Except Err α), Safe Db.Solvent (Fight.orRaise outcome) anything := by
    intro α outcome
    cases outcome with
    | ok value => exact Safe.pure trivial
    | error err => exact Safe.throw _ _
  have hdestroyAll : ∀ fleets : List Fleet, Safe Db.Solvent (fleets.forM destroy) anything :=
    fun fleets => Safe.forM fun fleet _ => destroy_solvent fleet
  refine hselect.bind fun defenders hdefenders => ?_
  refine Safe.ite (fun _ => ?_) fun _ => Safe.ite (fun _ => ?_) fun _ => ?_
  · refine (Safe.mapM fun fleet _ => getShips_solvent fleet).bind fun ships _ => ?_
    refine (hraise _).bind fun lost _ => ?_
    refine (Safe.forM (φ := anything) fun entry hentry => ?_).bind fun _ _ => ?_
    · have hdefender := hdefenders entry.1 (List.of_mem_zip hentry).1
      exact (destroyShips_solvent w hdefender entry.2).bind fun _ _ => Safe.pure trivial
    · exact (destroy_solvent self).bind fun _ _ => Safe.pureNone
  · refine (getShips_solvent self).bind fun ships _ => (hraise _).bind fun lost _ => ?_
    refine (destroyShips_solvent w hself lost).bind fun rest hrest => ?_
    refine (hdestroyAll defenders).bind fun _ _ => ?_
    refine (save_solvent (hrest.solvent hself)).bind fun _ _ => ?_
    refine Safe.mapSome (φ := Solvent) ?_
    have htake : ∀ type (amount : ℤ), type ≠ Resource.energy →
        Safe Db.Solvent (Planet.take planet type amount) fun back => 0 ≤ back.toI :=
      fun type amount htype =>
        (Planet.take_solvent planet type fun _ => show (Numeric.int amount).Rounded from trivial).weaken
          fun _ hback => Numeric.toI_nonneg (hback htype)
    refine (htake .crystal _ (by decide)).bind fun gotCrystal hcrystal => ?_
    refine (htake .ore _ (by decide)).bind fun gotOre hore => ?_
    refine (htake .money _ (by decide)).bind fun gotMoney hmoney => ?_
    have hlooted : Solvent { rest with
        ore := gotOre.toI, credit := gotMoney.toI, crystal := gotCrystal.toI } :=
      ⟨hore, hcrystal, hmoney⟩
    exact (save_solvent hlooted).bind fun _ _ => Safe.pure hlooted
  · refine (hdestroyAll defenders).bind fun _ _ => ?_
    exact (destroy_solvent self).bind fun _ _ => Safe.pureNone

theorem attack_solvent (draws : Draws) (planet : PlanetId) :
    Safe Db.Solvent (self.attack w draws planet) anything := by
  refine Safe.get.bind fun db _ => ?_
  cases db.relation self.user planet with
  | unknown => exact returnToOrigin_solvent w hself planet
  | own => exact returnToOrigin_solvent w hself planet
  | allied => exact returnToOrigin_solvent w hself planet
  | enemy =>
      refine (fight_solvent w hself draws planet).bind fun winner hwinner => ?_
      cases winner with
      | none => exact Safe.pure trivial
      | some fleet => exact returnToOrigin_solvent w (hwinner fleet rfl) planet

end Arrival

end Fleet

/-! ## Requests -/

theorem MissionsController.checkHelper_solvent (w : World) (params : Params) :
    Safe Db.Solvent (MissionsController.checkHelper w params) anything := by
  refine (Fleet.find_solvent params.fleet).attempt.bind fun found hfound => ?_
  cases found with
  | none => exact Safe.throw _ _
  | some fleet =>
      have hfleet := hfound fleet rfl
      refine Safe.get.bind fun db _ => ?_
      refine Safe.ite (fun _ => Safe.pure trivial) fun _ => ?_
      refine (Fleet.shipfleets_solvent fleet).bind fun rows _ => ?_
      refine Safe.ite (fun _ => Safe.pure trivial) fun _ => ?_
      refine (Fleet.splitFleet_solvent w hfleet _).attempt.bind fun split hparted => ?_
      cases split with
      | none => exact Safe.throw _ _
      | some fleets =>
          obtain ⟨staying, leaving⟩ := fleets
          refine (Fleet.flight_safe w leaving _).attempt.bind fun needed _ => ?_
          exact (Fleet.mergeFleet_solvent w (hparted (staying, leaving) rfl).merged).bind fun _ _ => Safe.pure trivial

theorem MissionsController.sendFleet_solvent (w : World) (params : Params) :
    Safe Db.Solvent (MissionsController.sendFleet w params) anything := by
  refine (checkHelper_solvent w params).bind fun fehler _ => ?_
  refine Safe.ite (fun _ => ?_) fun _ => Safe.pure trivial
  refine (Fleet.find_solvent params.fleet).bind fun fleet hfleet => ?_
  split
  · exact Fleet.move_solvent w hfleet _ _ _ _ _ _
  · exact Safe.throw _ _

theorem FleetsController.breakup_solvent (fleet : FleetId) :
    Safe Db.Solvent (FleetsController.breakup fleet) anything :=
  (Fleet.find_solvent fleet).bind fun _ hfleet => Fleet.breakupMission_solvent hfleet

theorem FleetsController.unload_solvent (fleet : FleetId) (planet : PlanetId) :
    Safe Db.Solvent (FleetsController.unload fleet planet) anything := by
  refine (Fleet.find_solvent fleet).bind fun found hfound => ?_
  refine Safe.ite (fun _ => ?_) fun _ => Safe.pure trivial
  exact (Fleet.unloadRessources_solvent found planet).bind fun _ _ => Safe.pure trivial

end Mmog
