import Mmog.Model.Seeds
import Mmog.Post.Laws
import Mmog.Post.Receivers

/-!
# A report reaches each reader once

A report that names nobody twice is read once, removed once, and deleted with
its last receiver.  A trade with oneself and a colonisation of an own or a free
planet name the same user twice.
-/

namespace Mmog

open Ruby Action Fleet

/-! ## Reports that do not look -/

section Pushing

variable {w : World} {db next : Db} {id : FleetId} {row : FleetRow} {planet : PlanetId}

theorem finishTradereport_receivers (fleet : Fleet) (mode : ℕ) (owner : Option UserId) :
    Safe (fun db => (db.planets planet).user = owner) (finishTradereport fleet planet mode)
      fun report => report.report.receivers = owner.toList ++ [fleet.user] := by
  refine Safe.get.bind fun db howner => Safe.pure ?_
  rw [← howner]
  exact Report.receivers_push rfl _ fleet.user

theorem finishColonisationreport_receivers (fleet : Fleet) (mode : ℕ) (owner : Option UserId) :
    Safe (fun db => (db.planets planet).user = owner) (finishColonisationreport planet fleet mode)
      fun report => report.report.receivers = owner.toList ++ [fleet.user] := by
  refine Safe.get.bind fun db howner => Safe.pure ?_
  rw [← howner]
  exact Report.receivers_push rfl _ fleet.user

theorem transportReported_receivers {self left : Fleet} {report : Tradereport}
    (hrun : (self.transportReported planet).run db = .ok (left, report) next) :
    report.report.receivers = (db.planets planet).user.toList ++ [self.user] := by
  have hfinish : ∀ (fleet : Fleet) (mode : ℕ) (middle : Db), fleet.user = self.user →
      (middle.planets planet).user = (db.planets planet).user →
      (finishTradereport fleet planet mode >>= fun found => (return (fleet, found) : Act (Fleet × Tradereport))).run middle =
        .ok (left, report) next → report.report.receivers = (db.planets planet).user.toList ++ [self.user] := by
    intro fleet mode middle huser howner hfinished
    obtain ⟨found, final, hfound, hpure⟩ := run_bind_eq_ok hfinished
    cases hpure
    have hreceivers := ((finishTradereport_receivers left mode _) middle howner).2 report (by rw [hfound]; rfl)
    rwa [huser] at hreceivers
  rw [transportReported, run_bind_get] at hrun
  have hunload := unloadRessources_apply db planet self
  cases hrelation : db.relation self.user planet with
  | unknown =>
      rw [hrelation] at hrun
      exact hfinish self 1 db rfl rfl hrun
  | enemy =>
      rw [hrelation] at hrun
      exact hfinish self 0 db rfl rfl hrun
  | own =>
      rw [hrelation] at hrun
      dsimp only at hrun
      rw [run_bind_of_ok hunload] at hrun
      exact hfinish (unloaded db planet self) 3 _ rfl user_unloadedDb hrun
  | allied =>
      rw [hrelation] at hrun
      dsimp only at hrun
      rw [run_bind_of_ok hunload] at hrun
      exact hfinish (unloaded db planet self) 2 _ rfl user_unloadedDb hrun

/-- The owner of the planet when the colonisation is reported. -/
def ownerAfter (db : Db) (user : UserId) (planet : PlanetId) : Option UserId :=
  if db.relation user planet = .unknown then some user else (db.planets planet).user

theorem Fleet.Colonizes.reported (hget : db.fleets.get id = some row) (hcolonizes : Colonizes w db id row planet next) :
    (∃ new, next.fleets.get id = some new ∧ new.attributes.user = row.attributes.user) ∧
      (next.planets planet).user = ownerAfter db row.attributes.user planet := by
  have hput : ∀ {t : Table FleetRow} {new : FleetRow}, t = db.fleets → next.fleets = t.put id new →
      new.attributes.user = row.attributes.user →
      ∃ new, next.fleets.get id = some new ∧ new.attributes.user = row.attributes.user := by
    rintro t new rfl hput huser
    exact ⟨new, (congrArg (Table.get · id) hput).trans ((Table.get_put _ hget id).trans (if_pos rfl)), huser⟩
  cases hcolonizes with
  | turned next hrelation hturns =>
      rw [ownerAfter, if_neg hrelation]
      cases hturns with
      | stuck hrows => exact ⟨⟨row, hget, rfl⟩, rfl⟩
      | turned velocity next hrows hboard =>
          refine ⟨hput rfl (congrArg Board.fleets hboard) rfl, ?_⟩
          exact congrArg (fun board : Board => board.owner planet) hboard
  | settled cargo jobs next hrelation hjobs henough hboard =>
      rw [ownerAfter, if_pos hrelation]
      have hroute := valued_toRoute w db (removed (.single colonyShip 1) row.shipfleets)
        ((Fleet.settled planet db.now (ofRow id row)).withCargo cargo).toAttributes
      have huser : (valued w db (removed (.single colonyShip 1) row.shipfleets)
          ((Fleet.settled planet db.now (ofRow id row)).withCargo cargo).toAttributes).user = row.attributes.user :=
        (congrArg Route.user hroute).trans rfl
      refine ⟨hput rfl (congrArg Board.fleets hboard) huser, ?_⟩
      exact (congrArg (fun board : Board => board.owner planet) hboard).trans (Function.update_self _ _ _)
  | unmanned cargo jobs next hrelation hjobs hlacks hboard =>
      rw [ownerAfter, if_pos hrelation]
      refine ⟨hput rfl (congrArg Board.fleets hboard) rfl, ?_⟩
      exact (congrArg (fun board : Board => board.owner planet) hboard).trans (Function.update_self _ _ _)

theorem colonizeReported_receivers (hget : db.fleets.get id = some row) {report : Colonisationreport}
    (hrun : ((ofRow id row).colonizeReported w planet).run db = .ok report next) :
    report.report.receivers = (ownerAfter db row.attributes.user planet).toList ++ [row.attributes.user] := by
  rw [colonizeReported, run_bind_get] at hrun
  obtain ⟨_, middle, hcolonize, hrest⟩ := run_bind_eq_ok hrun
  have hcolonizes := colonize_colonizes w hget planet
  rw [hcolonize] at hcolonizes
  obtain ⟨⟨new, hnew, huser⟩, howner⟩ := hcolonizes.reported hget
  obtain ⟨found, final, hfind, hfinish⟩ := run_bind_eq_ok hrest
  rw [show (find (ofRow id row).id).run middle = _ from find_of_some hnew] at hfind
  cases hfind
  have hall : ∀ mode : ℕ, (finishColonisationreport planet (ofRow id new) mode).run middle = .ok report next →
      report.report.receivers = (ownerAfter db row.attributes.user planet).toList ++ [row.attributes.user] := by
    intro mode hmode
    have hreceivers := ((finishColonisationreport_receivers (ofRow id new) mode _) middle howner).2 report (by rw [hmode]; rfl)
    rwa [show (ofRow id new).user = row.attributes.user from huser] at hreceivers
  cases hrelation : db.relation (ofRow id row).user planet with
  | unknown | own | allied | enemy =>
      rw [hrelation] at hfinish
      exact hall _ hfinish

end Pushing

/-! ## The missions -/

/-- The mission does not report to the same user twice: a trade is not with oneself, and a colonisation
finds a planet of somebody else. -/
def Job.Distinct (db : Db) : Job → Prop
  | .transportToPlanet fleet planet =>
      ∀ row, db.fleets.get fleet = some row → db.relation row.attributes.user planet ≠ .own
  | .colonizePlanet fleet planet =>
      ∀ row, db.fleets.get fleet = some row →
        db.relation row.attributes.user planet ≠ .own ∧ db.relation row.attributes.user planet ≠ .unknown
  | _ => True

section Missions

variable {w : World} {known : List UserTechnology} {draws : ReportDraws} {job : Job} {db next : Db}
  {action : Act Reportable} {reportable : Reportable}

theorem relation_own_iff {user : UserId} {planet : PlanetId} :
    db.relation user planet = .own ↔ (db.planets planet).user = some user := by
  rw [Db.relation]
  cases (db.planets planet).user with
  | none => exact iff_of_false (by rintro ⟨⟩) (Option.some_ne_none user).symm
  | some owner =>
      rw [Option.some.injEq]
      dsimp only
      split
      · exact iff_of_true rfl ‹_›
      · refine iff_of_false ?_ ‹_›
        split <;> decide

theorem ownerAfter_ne_iff {user : UserId} {planet : PlanetId} :
    ownerAfter db user planet ≠ some user ↔ db.relation user planet ≠ .own ∧ db.relation user planet ≠ .unknown := by
  rw [ownerAfter]
  split
  · exact iff_of_false (fun hne => hne rfl) fun hboth => hboth.2 ‹_›
  · exact ⟨fun hne => ⟨fun hown => hne (relation_own_iff.mp hown), ‹_›⟩, fun hboth howner => hboth.1 (relation_own_iff.mpr howner)⟩

/-- A job that reports has found its fleet. -/
theorem find_of_bind_ok {α : Type} {id : FleetId} {rest : Fleet → Act α} {value : α}
    (hrun : (find id >>= rest).run db = .ok value next) :
    ∃ row, db.fleets.get id = some row ∧ (rest (ofRow id row)).run db = .ok value next := by
  cases hget : db.fleets.get id with
  | none =>
      rw [run_bind_of_error (find_of_none hget)] at hrun
      cases hrun
  | some row =>
      rw [run_bind_of_ok (find_of_some hget)] at hrun
      exact ⟨row, rfl, hrun⟩

/-- Somebody receives every report, and nobody twice exactly if the mission has to do with somebody else
or its report looks whom it has. -/
theorem report_receivers (hjob : job.report w known draws = some action) (hrun : action.run db = .ok reportable next) :
    reportable.report.receivers ≠ [] ∧ (reportable.report.receivers.Nodup ↔ job.Distinct db) := by
  have hregistered : ∀ {α : Type} {found : Act α} (wrap : α → Reportable) {φ : α → Prop}, Safe (fun _ => True) found φ →
      (∀ value, φ value → (wrap value).report.Registered) →
      (do return wrap (← found) : Act Reportable).run db = .ok reportable next →
      reportable.report.receivers ≠ [] ∧ reportable.report.receivers.Nodup := by
    intro α found wrap φ hsafe hwrap hfound
    obtain ⟨value, middle, hvalue, hpure⟩ := run_bind_eq_ok hfound
    cases hpure
    have hreport := hwrap value ((hsafe db trivial).2 value (by rw [hvalue]; rfl))
    exact ⟨hreport.ne_nil, hreport.nodup⟩
  have hpushed : ∀ {owner : Option UserId} {user : UserId} {distinct : Prop}, (owner ≠ some user ↔ distinct) →
      reportable.report.receivers = owner.toList ++ [user] →
      reportable.report.receivers ≠ [] ∧ (reportable.report.receivers.Nodup ↔ distinct) := by
    intro owner user distinct hdistinct hreceivers
    rw [hreceivers, ← hdistinct]
    exact ⟨List.append_ne_nil_of_right_ne_nil _ (List.cons_ne_nil user []), Report.nodup_push_iff owner user⟩
  cases job with
  | attackPlanet fleet planet =>
      cases hjob
      obtain ⟨row, hget, hrest⟩ := find_of_bind_ok hrun
      have hboth := hregistered (fun found : Option Fleet × Battlereport => .battle found.2)
        (attackReported_registered w draws.draws (ofRow fleet row) planet) (fun _ hreport => hreport) hrest
      exact ⟨hboth.1, iff_of_true hboth.2 trivial⟩
  | travelToPlanet fleet planet =>
      cases hjob
      obtain ⟨row, hget, hrest⟩ := find_of_bind_ok hrun
      have hboth := hregistered .travel (travelReported_registered (ofRow fleet row) planet) (fun _ hreport => hreport) hrest
      exact ⟨hboth.1, iff_of_true hboth.2 trivial⟩
  | spyPlanet fleet planet factor =>
      cases hjob
      obtain ⟨row, hget, hrest⟩ := find_of_bind_ok hrun
      have hboth := hregistered .spy
        (spyReported_registered w known draws.draws.spyRate draws.level (ofRow fleet row) factor planet)
        (fun _ hreport => hreport) hrest
      exact ⟨hboth.1, iff_of_true hboth.2 trivial⟩
  | transportToPlanet fleet planet =>
      cases hjob
      obtain ⟨row, hget, hrest⟩ := find_of_bind_ok hrun
      obtain ⟨⟨left, report⟩, middle, hreport, hpure⟩ := run_bind_eq_ok hrest
      cases hpure
      refine hpushed (?_ : (db.planets planet).user ≠ some row.attributes.user ↔ _) (transportReported_receivers hreport)
      rw [Ne, ← relation_own_iff]
      exact ⟨fun hne other hother => Option.some.inj (hget.symm.trans hother) ▸ hne, fun hall => hall row hget⟩
  | colonizePlanet fleet planet =>
      cases hjob
      obtain ⟨row, hget, hrest⟩ := find_of_bind_ok hrun
      obtain ⟨report, middle, hreport, hpure⟩ := run_bind_eq_ok hrest
      cases hpure
      refine hpushed (?_ : ownerAfter db row.attributes.user planet ≠ some row.attributes.user ↔ _)
        (colonizeReported_receivers hget hreport)
      rw [ownerAfter_ne_iff]
      exact ⟨fun hboth other hother => Option.some.inj (hget.symm.trans hother) ▸ hboth, fun hall => hall row hget⟩
  | returnToOrigin fleet => cases hjob
  | buildBuildings planet type => cases hjob
  | produceResources planet => cases hjob

end Missions

/-! ## Runs -/

/-- The missions of a run do not report to the same user twice. -/
def PostEvent.Distinct (office : Office) : PostEvent → Prop
  | .mission _ _ job => job.Distinct office.db
  | _ => True

section Runs

variable {w : World} {office next : Office} {event : PostEvent}

theorem Office.step_sound (hsound : office.post.Sound) (hdistinct : event.Distinct office)
    (hstep : Office.step w office event = some next) : next.post.Sound := by
  cases event with
  | play action =>
      cases hstep
      exact hsound
  | showReport user id =>
      cases hstep
      exact hsound.showReport user id
  | destroyReport user id =>
      cases hstep
      exact hsound.destroyReceiver user id
  | mission known draws job =>
      obtain ⟨action, hjob, rfl⟩ := Option.map_eq_some_iff.mp hstep
      cases hrun : action.run office.db with
      | ok reportable db =>
          obtain ⟨hne, hnodup⟩ := report_receivers hjob hrun
          exact hsound.file (hnodup.mpr hdistinct) hne
      | error err db => exact hsound

theorem Post.sound_empty : ({} : Post).Sound := ⟨List.nodup_nil, fun _ => iff_of_false nofun nofun⟩

/-- In every run whose missions report to different users, each report reaches each reader once; the first
mission that does not leaves a report that reaches its reader twice. -/
theorem reaches_once_iff (w : World) {db : Db} {events : List PostEvent} {office : Office}
    (hdistinct : Along (Office.step w) PostEvent.Distinct ⟨db, {}⟩ events)
    (hrun : run (Office.step w) ⟨db, {}⟩ events = some office) :
    office.post.Lawful ∧
      ∀ known draws (job : Job) action reportable next, job.report w known draws = some action →
        action.run office.db = .ok reportable next →
        (reportable.report.receivers.Nodup ↔ job.Distinct office.db) ∧
          ((office.post.file reportable).Lawful ↔ job.Distinct office.db) := by
  have hsound := run_keeps (fun office => office.post.Sound)
    (fun _ _ _ hsound hdistinct hstep => Office.step_sound hsound hdistinct hstep) Post.sound_empty hdistinct hrun
  refine ⟨hsound.lawful, fun known draws job action reportable next hjob haction => ?_⟩
  obtain ⟨hne, hnodup⟩ := report_receivers hjob haction
  refine ⟨hnodup, fun hlawful => hnodup.mp ?_, fun hjobDistinct => (hsound.file (hnodup.mpr hjobDistinct) hne).lawful⟩
  exact hsound.receivers_file reportable ▸ hlawful.once office.post.reports.nextId

end Runs

/-- User 1 has a fleet on its way to planet 2, which is his own. -/
def trading : Db := Seeds.start.setFleets
  (Table.empty.create ⟨{ Seeds.scout with missionId := 6, targetPlanet := 2 }, [⟨1, 1⟩]⟩)

/-- The fleet travels there, and its user reads the report and removes it. -/
def reading : List PostEvent := [.mission [] {} (.travelToPlanet 1 2), .showReport 1 1, .destroyReport 1 1]

theorem reaches_once_iff_travel :
    ∃ office, run (Office.step Seeds.world) ⟨trading, {}⟩ reading = some office ∧ office.post.Lawful := by
  have hsome : (run (Office.step Seeds.world) ⟨trading, {}⟩ reading).isSome := by decide
  obtain ⟨office, hrun⟩ := Option.isSome_iff_exists.mp hsome
  have hdistinct : Along (Office.step Seeds.world) PostEvent.Distinct ⟨trading, {}⟩ reading :=
    ⟨trivial, fun _ _ => ⟨trivial, fun _ _ => ⟨trivial, fun _ _ => trivial⟩⟩⟩
  exact ⟨office, hrun, (reaches_once_iff Seeds.world hdistinct hrun).1⟩

/-- Who unloads on his own planet receives the report twice. -/
theorem own_trade_reported_twice : ¬∀ (w : World) (db : Db) (events : List PostEvent) (office : Office),
    run (Office.step w) ⟨db, {}⟩ events = some office → office.post.Lawful := by
  intro hlawful
  have htwice : (run (Office.step Seeds.world) ⟨trading, {}⟩ [.mission [] {} (.transportToPlanet 1 2)]).any
      fun office => decide ¬(office.post.receivers 1).Nodup := by decide
  obtain ⟨office, hrun, htest⟩ := (Option.any_eq_true _ _).mp htwice
  exact of_decide_eq_true htest ((hlawful Seeds.world trading _ office hrun).once 1)

end Mmog
