import Mmog.Missions.Arrival
import Mmog.Cargo.Unloading
import Mmog.Post.Spying

/-!
# Receivers

Who receives the report of a mission.  Three kinds of report look before they
register somebody, and the other two register the owner of the planet and the
user of the fleet even if they are the same.
-/

namespace Mmog

open Ruby Action Fleet

namespace Report

variable {report : Report} {user : UserId}

/-- Somebody receives the report, and nobody twice. -/
structure Registered (report : Report) : Prop where
  nodup : report.receivers.Nodup
  ne_nil : report.receivers ≠ []

theorem nodup_addReceiver (hnodup : report.receivers.Nodup) (user : UserId) :
    (report.addReceiver user).receivers.Nodup := by
  unfold addReceiver
  split
  · exact hnodup
  · exact List.nodup_append'.mpr ⟨hnodup, List.nodup_singleton user, List.disjoint_singleton.mpr ‹_›⟩

theorem mem_addReceiver (report : Report) (user : UserId) : user ∈ (report.addReceiver user).receivers := by
  unfold addReceiver
  split
  · assumption
  · exact List.mem_append_right _ List.mem_cons_self

theorem registered_addReceiver (hnodup : report.receivers.Nodup) (user : UserId) : (report.addReceiver user).Registered :=
  ⟨nodup_addReceiver hnodup user, List.ne_nil_of_mem (mem_addReceiver report user)⟩

theorem registered_both (hnodup : report.receivers.Nodup) (owner : Option UserId) (user : UserId) :
    ((owner.elim report report.addReceiver).addReceiver user).Registered := by
  cases owner with
  | none => exact registered_addReceiver hnodup user
  | some owner => exact registered_addReceiver (nodup_addReceiver hnodup owner) user

/-- The owner and the user are registered apart. -/
theorem receivers_push (hnil : report.receivers = []) (owner : Option UserId) (user : UserId) :
    ((owner.elim report report.push).push user).receivers = owner.toList ++ [user] := by
  cases owner with
  | none => exact congrArg (· ++ [user]) hnil
  | some owner => exact congrArg (fun receivers => (receivers ++ [owner]) ++ [user]) hnil

theorem nodup_push_iff (owner : Option UserId) (user : UserId) : (owner.toList ++ [user]).Nodup ↔ owner ≠ some user := by
  cases owner with
  | none => exact iff_of_true (List.nodup_singleton user) nofun
  | some owner =>
      rw [Option.toList_some, List.singleton_append, List.nodup_cons, List.mem_singleton, Ne, Option.some.injEq]
      exact and_iff_left (List.nodup_singleton user)

end Report

/-! ## Reports that look first -/

section Looking

variable {I : Db → Prop}

theorem finishTravelreport_registered (planet : PlanetId) (fleet : Fleet) (mode : ℕ) :
    Safe I (finishTravelreport planet fleet mode) fun report => report.report.Registered := by
  refine Safe.get.bind fun db _ => ?_
  refine ((shipfleets_safe fleet).bind fun rows _ => Safe.pure (φ := anything) trivial).bind fun sightings _ => ?_
  exact Safe.pure (Report.registered_both List.nodup_nil _ fleet.user)

theorem travelReported_registered (self : Fleet) (planet : PlanetId) :
    Safe I (self.travelReported planet) fun report => report.report.Registered := by
  refine Safe.get.bind fun db _ => ?_
  cases db.relation self.user planet with
  | unknown | own | allied | enemy => exact finishTravelreport_registered planet self _

namespace Spyreport

theorem header_registered (db : Db) (planet : PlanetId) (fleet : Fleet) (mode : ℕ) :
    (header db planet fleet mode).Registered := by
  unfold header
  dsimp only
  split
  · exact Report.registered_both List.nodup_nil _ fleet.user
  · exact Report.registered_addReceiver List.nodup_nil fleet.user

theorem finishSpyreport_registered (known : List UserTechnology) (draw : LevelDraw) (planet : PlanetId) (fleet : Fleet)
    (atkSpyFactor defSpyFactor : ℚ) (mode : ℕ) :
    Safe I (finishSpyreport known draw planet fleet atkSpyFactor defSpyFactor mode) fun report => report.report.Registered := by
  intro db hdb
  rw [finishSpyreport_apply]
  refine ⟨hdb, fun report hreport => ?_⟩
  cases hreport
  exact header_registered db planet fleet mode

end Spyreport

theorem spyReported_registered (w : World) (known : List UserTechnology) (r : ℚ) (draw : LevelDraw) (self : Fleet)
    (ownSpyFactor : Factor) (planet : PlanetId) :
    Safe (fun _ => True) (self.spyReported w known r draw ownSpyFactor planet) fun report => report.report.Registered := by
  have hback : ∀ (factor : ℚ) (type : ℕ), Safe (fun _ => True) (do
      self.returnToOrigin w planet
      Spyreport.finishSpyreport known draw planet (← find self.id) ownSpyFactor factor type : Act Spyreport)
        fun report => report.report.Registered := by
    intro factor type
    refine (Safe.always _).bind fun _ _ => (Safe.always _).bind fun fleet _ => ?_
    exact Spyreport.finishSpyreport_registered known draw planet fleet _ factor type
  refine Safe.get.bind fun db _ => ?_
  cases db.relation self.user planet with
  | unknown => exact hback 0 1
  | own => exact hback 0 3
  | allied => exact hback 0 2
  | enemy =>
      cases (db.planets planet).user with
      | none => exact Safe.throw _ _
      | some owner =>
          refine Safe.ite (fun _ => ?_) fun _ => hback _ 0
          exact Spyreport.finishSpyreport_registered known draw planet self _ _ 4

/-! ## Battle reports -/

namespace Battlereport

theorem addFleetInfo_report (fleet : Option Fleet) (type : ℕ) (self : Battlereport) :
    Safe I (self.addFleetInfo fleet type) fun found => found.report = self.report := by
  cases fleet with
  | none => exact Safe.pure rfl
  | some fleet =>
      refine Safe.get.bind fun db _ => Safe.foldlM rfl fun found row _ hfound => ?_
      refine Safe.ite (fun _ => ?_) fun _ => Safe.pure hfound
      split
      · exact Safe.pure hfound
      · exact Safe.throw _ _

theorem initBattlereport_registered (fleets : List Fleet) (self : Fleet) (mode : ℕ) :
    Safe I (initBattlereport fleets self mode) fun report => report.report.Registered := by
  refine Safe.get.bind fun db _ => ?_
  refine Safe.bind (φ := fun report : Battlereport => report.report.receivers.Nodup)
    (Safe.foldlM List.nodup_nil fun report fleet _ hnodup => ?_) fun report hnodup => ?_
  · refine (addFleetInfo_report (some fleet) 0 _).weaken fun found hfound => ?_
    rw [hfound]
    exact Report.nodup_addReceiver hnodup fleet.user
  · refine (addFleetInfo_report (some self) 1 _).weaken fun found hfound => ?_
    rw [hfound]
    exact Report.registered_addReceiver hnodup self.user

theorem finishBattlereport_report (fleets : List Fleet) (left : Option Fleet) (defended : Bool) (self : Battlereport) :
    Safe I (self.finishBattlereport fleets left defended) fun found => found.report = self.report := by
  refine Safe.bind (φ := fun found : Battlereport => found.report = self.report)
    (Safe.foldlM rfl fun found fleet _ hfound => ?_) fun counted hcounted => ?_
  · exact (addFleetInfo_report (some fleet) 2 found).weaken fun _ hadded => hadded.trans hfound
  · refine (addFleetInfo_report left 3 counted).bind fun found hfound => Safe.pure ?_
    exact hfound.trans hcounted

end Battlereport

open Battlereport

theorem fightReported_report (w : World) (draws : Draws) (self : Fleet) (planet : PlanetId) (report : Battlereport) :
    Safe (fun _ => True) (self.fightReported w draws planet report) fun found => found.2.report = report.report := by
  refine (Safe.always _).bind fun defenders _ => Safe.ite (fun _ => ?_) fun _ => Safe.ite (fun _ => ?_) fun _ => ?_
  · refine (Safe.always _).bind fun ships _ => (Safe.always _).bind fun lost _ => (Safe.always _).bind fun _ _ => ?_
    refine (finishBattlereport_report defenders none true report).bind fun found hfound => ?_
    exact (Safe.always _).bind fun _ _ => Safe.pure hfound
  · refine (Safe.always _).bind fun ships _ => (Safe.always _).bind fun lost _ => (Safe.always _).bind fun left _ => ?_
    refine (Safe.always _).bind fun _ _ => (Safe.always _).bind fun _ _ => (Safe.always _).bind fun winner _ => ?_
    refine (finishBattlereport_report [] (some winner) false report).bind fun found hfound => ?_
    exact Safe.pure hfound
  · refine (finishBattlereport_report [] none true report).bind fun found hfound => ?_
    exact (Safe.always _).bind fun _ _ => (Safe.always _).bind fun _ _ => Safe.pure hfound

theorem attackReported_registered (w : World) (draws : Draws) (self : Fleet) (planet : PlanetId) :
    Safe (fun _ => True) (self.attackReported w draws planet) fun found => found.2.report.Registered := by
  have hpeaceful : ∀ mode : ℕ, Safe (fun _ => True) (do
      let report ← initBattlereport [] self mode
      let report ← report.finishBattlereport [] (some self) false
      return (some self, report) : Act (Option Fleet × Battlereport)) fun found => found.2.report.Registered := by
    intro mode
    refine (initBattlereport_registered [] self mode).bind fun report hreport => ?_
    refine (finishBattlereport_report [] (some self) false report).bind fun found hfound => Safe.pure ?_
    rwa [hfound]
  refine Safe.get.bind fun db _ => ?_
  cases db.relation self.user planet with
  | unknown => exact hpeaceful 3
  | own => exact hpeaceful 5
  | allied => exact hpeaceful 4
  | enemy =>
      refine (Safe.always _).bind fun fleets _ => (initBattlereport_registered fleets self 0).bind fun report hreport => ?_
      refine (fightReported_report w draws self planet report).weaken fun found hfound => ?_
      rwa [hfound]

end Looking

/-! ## The missions go on as they do without a report -/

section Missions

variable (w : World) (db : Db) (self : Fleet) (planet : PlanetId)

theorem transport_eq : (self.transport w planet).run db = (do
    let (self, _) ← self.transportReported planet
    self.returnToOrigin w planet : Act Unit).run db := by
  rw [transport, transportReported, bind_assoc, run_bind_get, run_bind_get]
  cases db.relation self.user planet with
  | unknown | enemy => rfl
  | own | allied =>
      dsimp only
      rw [bind_assoc, run_bind_of_ok (unloadRessources_apply db planet self),
        run_bind_of_ok (unloadRessources_apply db planet self)]
      rfl

/-- Nothing happens before a travel is reported. -/
theorem travelReported_reads : after ((self.travelReported planet).run db) = db :=
  (travelReported_registered (I := fun state => state = db) self planet).after rfl

/-- Nothing but the report follows a colonisation. -/
theorem colonizeReported_after :
    after ((self.colonizeReported w planet).run db) = after ((self.colonize w planet).run db) := by
  have hreads : ∀ (middle : Db) (mode : ℕ), Safe (fun state => state = middle) (do
      finishColonisationreport planet (← find self.id) mode : Act Colonisationreport) anything :=
    fun middle mode => (find_safe self.id).bind fun fleet _ => Safe.get.bind fun _ _ => Safe.pure trivial
  rw [colonizeReported, run_bind_get]
  dsimp only
  rw [run_bind]
  cases (self.colonize w planet).run db with
  | error err middle => rfl
  | ok value middle =>
      cases db.relation self.user planet with
      | unknown => exact (hreads middle 1).after rfl
      | own => exact (hreads middle 3).after rfl
      | allied => exact (hreads middle 2).after rfl
      | enemy => exact (hreads middle 0).after rfl

/-- A drone is destroyed only after its report, and it is if it was found. -/
theorem spy_after (known : List UserTechnology) (r : ℚ) (draw : LevelDraw) (ownSpyFactor : Factor) :
    after ((self.spy w r ownSpyFactor planet).run db) = after ((do
      let report ← self.spyReported w known r draw ownSpyFactor planet
      if report.mode = 4 then self.destroy : Act Unit).run db) := by
  let lost (report : Spyreport) : Act Unit := if report.mode = 4 then self.destroy else pure ⟨⟩
  have hback : ∀ (factor : ℚ) (type : ℕ), type ≠ 4 → after ((self.returnToOrigin w planet).run db) = after (((do
      self.returnToOrigin w planet
      Spyreport.finishSpyreport known draw planet (← find self.id) ownSpyFactor factor type : Act Spyreport) >>= lost).run db) := by
    intro factor type htype
    rw [bind_assoc, run_bind]
    cases (self.returnToOrigin w planet).run db with
    | error err middle => rfl
    | ok value middle =>
        dsimp only
        rw [bind_assoc]
        cases hget : middle.fleets.get self.id with
        | none =>
            rw [run_bind_of_error (find_of_none hget)]
            rfl
        | some row =>
            rw [run_bind_of_ok (find_of_some hget), run_bind_of_ok (Spyreport.finishSpyreport_apply ..)]
            exact (congrArg (fun action : Act Unit => after (action.run middle)) (if_neg htype)).symm
  rw [spy, spyReported, bind_assoc, run_bind_get, run_bind_get]
  cases hrelation : db.relation self.user planet with
  | unknown => exact hback 0 1 (by decide)
  | own => exact hback 0 3 (by decide)
  | allied => exact hback 0 2 (by decide)
  | enemy =>
      cases howner : (db.planets planet).user with
      | none =>
          rw [Db.relation, howner] at hrelation
          cases hrelation
      | some owner =>
          dsimp only
          by_cases hweak : Numeric.float ownSpyFactor - .float r < Numeric.lit (4 / 5)
          · rw [if_pos hweak, if_pos hweak, run_bind_of_ok (Spyreport.finishSpyreport_apply ..)]
            rfl
          · rw [if_neg hweak, if_neg hweak]
            exact hback _ 0 (by decide)

end Missions

end Mmog
