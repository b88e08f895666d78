import Mmog.Access.Belongings
import Mmog.Requests.Sound

/-!
# Own fleets

Checking, sending, breaking up and unloading a fleet of the session's user that
is based on one of the user's planets touches nothing that belongs to others.
-/

namespace Mmog

open Ruby Action Db Fleet

variable {session : Option UserId} {base : Db} (w : World) {self fleet : Fleet}

namespace Fleet

/-! ## Ships -/

section Own

variable (hself : Own session base self)

include hself

theorem Own.updateValuesOf (types : List ShipId) :
    Safe (KeepsOthers session base) (Fleet.updateValuesOf w types self) (Follows self) := by
  refine (Fleet.getShipsOf_safe types self).bind fun ships _ => Safe.get.bind fun db _ => ?_
  have hfollows := withValues_follows w (db.users self.user).userSetting ships self
  exact (hself.follows hfollows).save.bind fun _ _ => Safe.pure hfollows

theorem Own.updateValues : Safe (KeepsOthers session base) (self.updateValues w) (Follows self) :=
  (Fleet.ships_safe self).bind fun types _ => hself.updateValuesOf w types

theorem Own.addToRows (entries : List (ShipId × ℤ)) (newShips : Hash ShipId ℤ) :
    Safe (KeepsOthers session base) (self.addToRows entries newShips) anything := by
  induction entries generalizing newShips with
  | nil => exact Safe.pure trivial
  | cons entry entries ih =>
      refine (Fleet.ships_safe self).bind fun types _ => Safe.ite (fun _ => ?_) fun _ => ih _
      exact (hself.writeShipfleets _).bind fun _ _ => ih _

theorem Own.addRows (entries : List (ShipId × ℤ)) :
    Safe (KeepsOthers session base) (self.addRows entries) anything := by
  induction entries with
  | nil => exact Safe.pure trivial
  | cons entry entries ih =>
      refine (hself.writeShipfleets _).bind fun _ _ => ?_
      exact (hself.writeShipfleets _).bind fun _ _ => ih

theorem Own.addShips (shipHash : Hash ShipId ℤ) :
    Safe (KeepsOthers session base) (self.addShips w shipHash) (Follows self) := by
  refine Safe.ite (fun _ => Safe.throw_bind _ _ _) fun _ => ?_
  refine (hself.addToRows _ _).bind fun newShips _ => ?_
  exact (hself.addRows _).bind fun _ _ => hself.updateValues w

theorem Own.takeFromRows (entries : List (ShipId × ℤ)) :
    Safe (KeepsOthers session base) (self.takeFromRows entries) anything := by
  induction entries with
  | nil => exact Safe.pure trivial
  | cons entry entries ih => exact (hself.writeShipfleets _).bind fun _ _ => ih

theorem Own.destroyShips (shipHash : Hash ShipId ℤ) :
    Safe (KeepsOthers session base) (self.destroyShips w shipHash) (Follows self) := by
  refine (Fleet.shipfleets_safe self).bind fun rows _ => ?_
  refine Safe.ite (fun _ => Safe.throw_bind _ _ _) fun _ => ?_
  exact (hself.takeFromRows _).bind fun _ _ => hself.updateValues w

theorem Own.mergeFleet (hfleet : Own session base fleet) :
    Safe (KeepsOthers session base) (self.mergeFleet w (some fleet)) anything := by
  refine (Fleet.getShips_safe fleet).bind fun shipHash _ => ?_
  have hfilled : Own session base { self with
      ore := self.ore + fleet.ore
      credit := self.credit + fleet.credit
      crystal := self.crystal + fleet.crystal } := hself.follows ⟨rfl, rfl, rfl⟩
  refine (hfilled.addShips w shipHash).bind fun merged hmerged => ?_
  refine (Fleet.ships_safe merged).bind fun types _ => ?_
  exact hfleet.destroy.bind fun _ _ => ((hfilled.follows hmerged).updateValuesOf w types).forget

end Own

/-- A fleet that is created on a planet of the session is based there. -/
theorem new_based {planet : PlanetId} (hplanet : ¬Foreign session (base.planets planet).user) :
    Safe (KeepsOthers session base) (new planet) (Based session base) := by
  intro db hdb
  unfold new
  rw [run_bind_get]
  cases huser : (db.planets planet).user with
  | none => exact ⟨hdb, nofun⟩
  | some user =>
      have hown := eq_session_of_not_foreign hplanet ((hdb.owner planet).symm.trans huser)
      have hfree : base.fleets.pick (FleetRow.foreign session) db.fleets.nextId = none := by
        rw [← hdb.fleets, Table.pick, db.fleets.fresh _ le_rfl]
        rfl
      refine ⟨?_, fun found hfound => ?_⟩
      · exact hdb.setFleets (Table.pick_create_of_not _ (decide_eq_false (not_not.mpr hown)))
      · cases hfound
        exact ⟨⟨hown, hfree⟩, hplanet⟩

section Based

variable (hself : Based session base self)

include hself

/-- Both fleets after a split are based where the fleet was. -/
theorem Based.splitFleet (shipHash : Hash ShipId ℤ) :
    Safe (KeepsOthers session base) (self.splitFleet w shipHash) fun fleets =>
      Based session base fleets.1 ∧ Based session base fleets.2 := by
  refine (Fleet.shipfleets_safe self).bind fun rows _ => ?_
  refine Safe.ite (fun _ => Safe.throw_bind _ _ _) fun _ => ?_
  refine (hself.updateValues w).bind fun old hold => ?_
  have hvalued := hself.follows hold
  refine (new_based hvalued.origin).bind fun created hcreated => ?_
  refine hcreated.save.bind fun _ _ => ?_
  refine (hcreated.addShips w shipHash).bind fun leaving hleaving => ?_
  refine (hvalued.destroyShips w shipHash).bind fun staying hstaying => ?_
  have hboth := And.intro (hvalued.follows hstaying) (hcreated.follows hleaving)
  refine Safe.ite (fun _ => ?_) fun _ => Safe.pure hboth
  refine Safe.ite (fun _ => Safe.throw_bind _ _ _) fun _ => Safe.pure ?_
  exact ⟨hboth.1.follows ⟨rfl, rfl, rfl⟩, hboth.2.follows ⟨rfl, rfl, rfl⟩⟩

/-! ## Departure -/

theorem Based.loadRessources (ore crystal credit : ℤ) :
    Safe (KeepsOthers session base) (self.loadRessources ore crystal credit self.originPlanet)
      (Follows self) := by
  refine Safe.ite (fun _ => Safe.throw_bind _ _ _) fun _ => ?_
  refine (Planet.take_keeps hself.origin .ore _).bind fun gotOre _ => ?_
  refine (Planet.take_keeps hself.origin .crystal _).bind fun gotCrystal _ => ?_
  refine (Planet.take_keeps hself.origin .money _).bind fun gotCredit _ => ?_
  refine Safe.bind (Own.save ?_) fun _ _ => Safe.pure ⟨rfl, rfl, rfl⟩
  exact hself.toOwn.follows ⟨rfl, rfl, rfl⟩

theorem Based.spyPlanetIn (time : ℤ) (planet : PlanetId) :
    Safe (KeepsOthers session base) (self.spyPlanetIn time planet) anything := by
  refine (Fleet.getShips_safe self).bind fun ships _ => ?_
  refine Safe.ite (fun _ => Safe.throw_bind _ _ _) fun _ => ?_
  refine Safe.ite (fun _ => Safe.throw_bind _ _ _) fun _ => ?_
  exact Safe.get.bind fun db _ => hself.enqueueAt _ rfl

theorem Based.colonizePlanetIn (time : ℤ) (planet : PlanetId) :
    Safe (KeepsOthers session base) (self.colonizePlanetIn w time planet) anything := by
  refine (Fleet.getShips_safe self).bind fun ships _ => ?_
  refine Safe.ite (fun _ => Safe.throw_bind _ _ _) fun _ => ?_
  refine Safe.ite (fun _ => Safe.throw_bind _ _ _) fun _ => ?_
  exact (hself.loadRessources _ _ _).bind fun _ _ => hself.enqueueAt _ rfl

end Based

theorem depart_keeps (hself : Own session base self) (hfleet : Based session base fleet)
    (mission : MissionId) (energy : Numeric) {prepare : Fleet → Act Fleet} {enqueue : Fleet → Act Unit}
    (hprepare : ∀ {fleet}, Based session base fleet →
      Safe (KeepsOthers session base) (prepare fleet) (Follows fleet))
    (henqueue : ∀ {fleet}, Based session base fleet →
      Safe (KeepsOthers session base) (enqueue fleet) anything) :
    Safe (KeepsOthers session base) (depart w self fleet mission energy prepare enqueue) anything := by
  refine Safe.get.bind fun db _ => Safe.ite (fun _ => ?_) fun _ => ?_
  · refine (Planet.take_keeps hfleet.origin .energy _).bind fun _ _ => ?_
    refine (hprepare hfleet).bind fun prepared hprepared => ?_
    have hready : Based session base { prepared with missionId := mission } :=
      (hfleet.follows hprepared).follows ⟨rfl, rfl, rfl⟩
    exact hready.save.bind fun _ _ => henqueue hready
  · exact (hself.mergeFleet w hfleet.toOwn).bind fun _ _ => Safe.throw _ _

theorem launch_keeps (hself : Own session base self) (hfleet : Based session base fleet)
    (mission : MissionId) (energy : Numeric) (destination : PlanetId) (ore crystal credit : ℤ) :
    Safe (KeepsOthers session base)
      (launch w self fleet mission energy destination ore crystal credit) anything := by
  have hload : ∀ {fleet}, Based session base fleet → Safe (KeepsOthers session base)
      (fleet.loadRessources ore crystal credit fleet.originPlanet) (Follows fleet) :=
    fun hfleet => hfleet.loadRessources _ _ _
  have hpure : ∀ {fleet}, Based session base fleet → Safe (KeepsOthers session base)
      (pure fleet : Act Fleet) (Follows fleet) := fun _ => Safe.pure (Follows.refl _)
  unfold launch
  dsimp only
  split
  · exact depart_keeps w hself hfleet 2 _ hload fun hready => hready.colonizePlanetIn w _ _
  · exact depart_keeps w hself hfleet 3 _ hpure fun hready =>
      Safe.ite (fun _ => Safe.throw_bind _ _ _) fun _ => hready.enqueueAt _ rfl
  · exact depart_keeps w hself hfleet 4 _ hpure fun hready =>
      Safe.ite (fun _ => Safe.throw_bind _ _ _) fun _ => hready.enqueueAt _ rfl
  · exact depart_keeps w hself hfleet 5 _ hpure fun hready => hready.spyPlanetIn _ _
  · exact depart_keeps w hself hfleet 6 _ hload fun hready =>
      Safe.ite (fun _ => Safe.throw_bind _ _ _) fun _ => hready.enqueueAt _ rfl
  · exact (hself.mergeFleet w hfleet.toOwn).bind fun _ _ => Safe.throw _ _

theorem Based.move (hself : Based session base self) (mission : MissionId) (destination : PlanetId)
    (shipHash : Hash ShipId ℤ) (ore crystal credit : ℤ) :
    Safe (KeepsOthers session base)
      (self.move w mission destination shipHash ore crystal credit) anything := by
  refine Safe.ite (fun _ => Safe.throw_bind _ _ _) fun _ => ?_
  refine (hself.splitFleet w shipHash).bind fun fleets hfleets => ?_
  obtain ⟨staying, leaving⟩ := fleets
  obtain ⟨hstaying, hleaving⟩ := hfleets
  refine (Fleet.flight_safe w leaving _).bind fun needs _ => ?_
  obtain ⟨time, energy⟩ := needs
  refine Safe.get.bind fun db _ => launch_keeps w hstaying.toOwn ?_ mission energy destination _ _ _
  exact hleaving.follows ⟨rfl, rfl, rfl⟩

/-! ## Return and unloading -/

theorem Own.breakupMission (hself : Own session base self) :
    Safe (KeepsOthers session base) self.breakupMission anything := by
  have hjob : ∀ spypower, (self.missionJob spypower).fleet? = some self.id := by
    intro spypower
    unfold missionJob
    split <;> rfl
  refine Safe.ite (fun _ => Safe.throw_bind _ _ _) fun _ => Safe.get.bind fun db _ => ?_
  refine (hself.removeDelayed (hjob _)).bind fun _ _ => Safe.get.bind fun later _ => ?_
  refine Safe.bind (hself.enqueueAt _ rfl) fun _ _ => Own.save ?_
  exact hself.follows ⟨rfl, rfl, rfl⟩

theorem Own.unloadRessources (hself : Own session base self) {planet : PlanetId}
    (hplanet : ¬Foreign session (base.planets planet).user) :
    Safe (KeepsOthers session base) (self.unloadRessources planet) anything := by
  refine (Planet.give_keeps hplanet .ore _).bind fun backOre _ => ?_
  refine (Planet.give_keeps hplanet .crystal _).bind fun backCrystal _ => ?_
  refine (Planet.give_keeps hplanet .money _).bind fun backCredit _ => ?_
  refine Safe.bind (Own.save ?_) fun _ _ => Safe.pure trivial
  exact hself.follows ⟨rfl, rfl, rfl⟩

end Fleet

/-! ## Requests -/

/-- The fleet, if there is one with this id, belongs to the user of the session. -/
def Db.OwnsFleet (session : Option UserId) (db : Db) (fleet : FleetId) : Prop :=
  ∀ row, db.fleets.get fleet = some row → some row.attributes.user = session

/-- The planet on which the fleet is based is not foreign. -/
def Db.OwnsHome (session : Option UserId) (db : Db) (fleet : FleetId) : Prop :=
  ∀ row, db.fleets.get fleet = some row → ¬Foreign session (db.planets row.attributes.originPlanet).user

theorem Db.OwnsFleet.pick {fleet : FleetId} (hfleet : base.OwnsFleet session fleet) :
    base.fleets.pick (FleetRow.foreign session) fleet = none := by
  rw [Table.pick, Option.filter_eq_none_iff]
  intro row hrow
  simpa [FleetRow.foreign] using hfleet row hrow

namespace MissionsController

variable {params : Params} (hfleet : base.OwnsFleet session params.fleet)
  (hhome : base.OwnsHome session params.fleet)

include hfleet hhome

theorem checkHelper_keeps : KeepsOthers session base (after ((checkHelper w params).run base)) := by
  cases hget : base.fleets.get params.fleet with
  | none =>
      rw [checkHelper, run_bind_of_ok (run_rescue_of_error (find_of_none hget))]
      exact KeepsOthers.refl base
  | some row =>
      have hself : Based session base (ofRow params.fleet row) :=
        ⟨⟨hfleet row hget, hfleet.pick⟩, hhome row hget⟩
      rw [checkHelper, run_bind_of_ok (run_rescue_of_ok (find_of_some hget))]
      dsimp only
      refine Safe.after (φ := anything) ?_ (KeepsOthers.refl base)
      refine Safe.get.bind fun db _ => Safe.ite (fun _ => Safe.pure trivial) fun _ => ?_
      refine (Fleet.shipfleets_safe _).bind fun rows _ => Safe.ite (fun _ => Safe.pure trivial) fun _ => ?_
      refine (hself.splitFleet w _).attempt.bind fun split hsplit => ?_
      cases split with
      | none => exact Safe.throw _ _
      | some fleets =>
          obtain ⟨hstaying, hleaving⟩ := hsplit fleets rfl
          refine (Fleet.flight_safe w fleets.2 _).attempt.bind fun needed _ => ?_
          exact (hstaying.mergeFleet w hleaving.toOwn).bind fun _ _ => Safe.pure trivial

theorem sendFleet_keeps : KeepsOthers session base (after ((sendFleet w params).run base)) := by
  have hkeeps := checkHelper_keeps w hfleet hhome
  have hcheck := check_outcome w base params
  cases hrun : (checkHelper w params).run base with
  | error err next =>
      rw [run_sendFleet_of_error w hrun]
      rwa [hrun] at hkeeps
  | ok fehler next =>
      rw [hrun] at hkeeps hcheck
      by_cases hfehler : fehler = []
      swap
      · rw [run_sendFleet_of_complaints w hrun hfehler]
        exact hkeeps
      cases hcheck with
      | early row fehler hget hne hearly => exact absurd hfehler hne
      | undone row user hget hships henough howner hfails =>
          have hpassed : Passed w base params row user :=
            ⟨hget, hships, henough, howner, hfails, accepted_of_allErrors w hfehler⟩
          obtain ⟨planet, hplanet, -⟩ := hpassed.accepted.planet
          have hroute := checkedRow_toRoute w base params row user
          -- the check leaves the user and the origin of the fleet
          have horigin : ¬Foreign session
              (base.planets (checkedRow w base params row user).attributes.originPlanet).user := by
            rw [congrArg Route.originPlanet hroute]
            exact hhome row hget
          have hself : Based session base (ofRow params.fleet (checkedRow w base params row user)) := by
            refine ⟨⟨?_, hfleet.pick⟩, horigin⟩
            exact (congrArg (fun route => some route.user) hroute).trans (hfleet row hget)
          rw [run_sendFleet_of_passed w hpassed hplanet (hfehler ▸ hrun)]
          exact (hself.move w _ _ _ _ _ _).after hkeeps

end MissionsController

namespace FleetsController

theorem breakup_keeps {fleet : FleetId} (hfleet : base.OwnsFleet session fleet) :
    Safe (KeepsOthers session base) (breakup fleet) anything :=
  (find_follows hfleet.pick).bind fun _ hself => hself.breakupMission

theorem unload_keeps {fleet : FleetId} {planet : PlanetId} (hfleet : base.OwnsFleet session fleet)
    (hplanet : ¬Foreign session (base.planets planet).user) :
    Safe (KeepsOthers session base) (unload fleet planet) anything := by
  refine (find_follows hfleet.pick).bind fun self hself => Safe.ite (fun _ => ?_) fun _ => ?_
  · exact (hself.unloadRessources hplanet).bind fun _ _ => Safe.pure trivial
  · exact Safe.pure trivial

end FleetsController

end Mmog
