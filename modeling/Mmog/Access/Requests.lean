import Mmog.Access.Fleets
import Mmog.Access.Orders
import Mmog.Buildings.Refunds
import Mmog.Research.Outcome

/-!
# Requests and owners

When a request of a player leaves planets, fleets, jobs, research, orders and
money of all other users as they are.
-/

namespace Mmog

open Ruby Action Game Db

variable {session : Option UserId}

namespace PlanetsController

/-- The comparison with the owner stands before the order. -/
theorem upgradeBuilding_keeps (base : Game) (rules : Rules) (planet : PlanetId) (btype : BuildingName) :
    Safe (Untouched session base) (upgradeBuilding rules session planet btype) anything := by
  refine Safe.get.bind fun game hgame => ?_
  split
  · rename_i owner currentUser huser
    refine Safe.ite (fun howner => ?_) fun _ => Safe.pure trivial
    have hplanet : ¬Foreign (some currentUser) (base.db.planets planet).user := by
      rw [← hgame.db.owner, huser, howner]
      exact not_foreign_session _
    exact (untouched_onDb (Planet.createBuildingJob_keeps hplanet _ btype)).bind fun _ _ => Safe.pure trivial
  · exact Safe.throw _ _

end PlanetsController

namespace ShipBuildingQueue

theorem removeQueue_untouched {base : Game} (rules : Rules) {id : ℕ}
    (hown : ∀ q, base.queue.get id = some q → ¬Foreign session (base.db.planets q.planet).user) :
    Untouched session base (after ((removeQueue rules id).run base)) := by
  cases hget : base.queue.get id with
  | none =>
      rw [removeQueue, run_bind_get, hget]
      exact Untouched.refl base
  | some q =>
      have hplanet := hown q hget
      have hgive : ∀ type number,
          Safe (Untouched session base) (onDb (Planet.give q.planet type number)) anything :=
        fun type number => untouched_onDb (Planet.give_keeps hplanet type number)
      rw [removeQueue, run_bind_get, hget]
      refine Safe.after (φ := anything) ?_ (Untouched.refl base)
      refine Safe.bind (φ := anything) (Safe.modify fun game hgame => ?_) fun _ _ => ?_
      · refine hgame.setOrders ?_ rfl fun _ => rfl
        exact Backlog.waiting_removeDelayed_of_not _ (decide_eq_false hplanet)
      refine (updateTime_keeps hplanet _ _).bind fun _ _ => ?_
      refine (hgive _ _).bind fun _ _ => (hgive _ _).bind fun _ _ => ?_
      refine (hgive _ _).bind fun _ _ => (hgive _ _).bind fun _ _ => Safe.modify fun game hgame => ?_
      refine hgame.setOrders rfl rfl (Table.pick_destroy_of_not fun row hrow => ?_)
      by_contra hforeign
      -- a foreign row under this id would be the entry that was asked for
      have hpick : game.queue.pick (ShipBuildingQueue.foreign session base.db) id = some row :=
        Table.pick_eq_some.mpr ⟨hrow, by simpa using hforeign⟩
      rw [hgame.queue, Table.pick_eq_some, hget] at hpick
      obtain ⟨heq, htest⟩ := hpick
      cases heq
      exact hplanet (of_decide_eq_true htest)

end ShipBuildingQueue

namespace ShipBuildingQueuesController

theorem destroyQueue_untouched (game : Game) (rules : Rules) (currentUser : UserId) (id : ℕ) :
    Untouched (some currentUser) game (after ((destroyQueue rules currentUser id).run game)) := by
  rw [destroyQueue, run_bind_get]
  cases hget : game.queue.get id with
  | none => exact Untouched.refl game
  | some entry =>
      dsimp only
      split
      · rename_i huser
        refine ShipBuildingQueue.removeQueue_untouched rules fun q hq => ?_
        obtain rfl : entry = q := Option.some.inj (hget.symm.trans hq)
        rw [huser]
        exact not_foreign_session _
      · exact Untouched.refl game

end ShipBuildingQueuesController

/-! ## Requests on the records of others -/

/-- No job for the building type waits, and the planet builds nothing. -/
def Game.NothingBuilt (game : Game) (planet : PlanetId) (bid : ℕ) : Prop :=
  (game.db.planets planet).underConstruction = 0 ∧
    ∀ entry ∈ game.db.delayed, entry.job ≠ .buildBuildings planet bid

/-- The user researches nothing, and the refund is nothing. -/
def Game.NothingResearched (rules : Rules) (game : Game) (technology : TechnologyId) (uid : UserId) : Prop :=
  ∀ row, rules.technology technology = some row →
    (game.profiles uid).researching = 0 ∧ row.getTechnologyCost (game.ranks uid technology) / 2 = 0 ∧
      ∀ entry ∈ game.researches.delayed, entry.job ≠ ⟨uid, technology⟩

namespace Planet

variable {rules : Rules} {game : Game} {p : PlanetId} {buildingtype : ℕ}

/-- Without such a job, an abort only says that nothing is built. -/
theorem abortUpgrade_of_none (hnone : ∀ entry ∈ game.db.delayed, entry.job ≠ .buildBuildings p buildingtype) :
    after ((abortUpgrade rules p buildingtype).run game) = game.setDb (constructing game.db p 0) := by
  have hlength : (game.db.delayed.filter fun entry => entry.job = .buildBuildings p buildingtype).length ≠ 1 := by
    rw [List.filter_eq_nil_iff.mpr fun entry hentry => by simpa using hnone entry hentry]
    exact Nat.zero_ne_one
  have hremoved : removed game.db p buildingtype = game.db := by
    have hkept := List.filter_eq_self.mpr fun entry hentry => decide_eq_true (hnone entry hentry)
    rw [removed, hkept]
  rw [abortUpgrade, run_bind_of_ok (deleteBuildingJob_of_many hlength), hremoved]
  rfl

/-- After an abort no such job waits. -/
theorem abortUpgrade_delayed : (after ((abortUpgrade rules p buildingtype).run game)).db.delayed =
    game.db.delayed.filter fun entry => entry.job ≠ .buildBuildings p buildingtype := by
  have hdelayed := (deleteBuildingJob_refunds rules p buildingtype game).delayed
  rw [abortUpgrade, run_bind]
  cases hrun : (deleteBuildingJob rules p buildingtype).run game with
  | error err next =>
      rw [hrun] at hdelayed
      exact hdelayed
  | ok deleted next =>
      rw [hrun] at hdelayed
      cases deleted with
      | true => exact hdelayed
      | false => exact hdelayed

theorem abortUpgrade_untouched_iff (hp : Foreign session (game.db.planets p).user) :
    Untouched session game (after ((abortUpgrade rules p buildingtype).run game)) ↔
      game.NothingBuilt p buildingtype := by
  constructor
  · intro huntouched
    have hnone : ∀ entry ∈ game.db.delayed, entry.job ≠ .buildBuildings p buildingtype := by
      intro entry hentry heq
      have hforeign : entry.job.foreign session game.db = true := by
        rw [heq]
        exact decide_eq_true hp
      have hkept := huntouched.db.delayed
      rw [abortUpgrade_delayed] at hkept
      have hmem : entry ∈ game.db.delayed.filter fun entry => entry.job.foreign session game.db :=
        List.mem_filter.mpr ⟨hentry, hforeign⟩
      rw [← hkept] at hmem
      exact of_decide_eq_true (List.mem_filter.mp (List.mem_filter.mp hmem).1).2 heq
    refine ⟨?_, hnone⟩
    have hplanet := huntouched.db.planets p hp
    rw [abortUpgrade_of_none hnone] at hplanet
    rw [← hplanet]
    exact congrArg Planet.underConstruction (if_pos rfl)
  · rintro ⟨hidle, hnone⟩
    have hsame : (constructing game.db p 0).planets = game.db.planets := by
      funext q
      change (if q = p then { game.db.planets p with underConstruction := 0 } else game.db.planets q) = _
      split
      · rename_i heq
        rw [heq, ← hidle]
      · rfl
    have hgame : game.setDb (constructing game.db p 0) = game := by
      change ({ game with db := { game.db with planets := (constructing game.db p 0).planets } } : Game) = game
      rw [hsame]
    rw [abortUpgrade_of_none hnone, hgame]
    exact Untouched.refl game

end Planet

namespace Technology

variable {rules : Rules} {game : Game} {id : TechnologyId} {user : UserId}

theorem upgradeTechnology_untouched_iff (huser : some user ≠ session) :
    Untouched session game (after ((upgradeTechnology rules id user).run game)) ↔
      startable rules game id user = none := by
  rw [upgrade_outcome]
  cases startable rules game id user with
  | none => exact ⟨fun _ => rfl, fun _ => Untouched.refl game⟩
  | some row =>
      refine ⟨fun huntouched => ?_, nofun⟩
      -- the new job is one of another user
      have hwaiting := huntouched.researches
      have hforeign : ResearchTechnology.foreign session ⟨user, id⟩ = true := decide_eq_true huser
      change (game.researches.enqueueAt _ ⟨user, id⟩).waiting _ = _ at hwaiting
      rw [Backlog.waiting_enqueueAt, if_pos hforeign] at hwaiting
      exact absurd hwaiting (by simp)

theorem abortTechnology_untouched_iff (huser : some user ≠ session) :
    Untouched session game (after ((abortTechnology rules id user).run game)) ↔
      game.NothingResearched rules id user := by
  rw [abort_outcome]
  unfold Game.NothingResearched
  cases rules.technology id with
  | none => exact ⟨fun _ => nofun, fun _ => Untouched.refl game⟩
  | some row =>
      have hforeign : ResearchTechnology.foreign session ⟨user, id⟩ = true := decide_eq_true huser
      constructor
      · intro huntouched found hfound
        obtain rfl : row = found := Option.some.inj hfound
        have hprofile := congrArg Profile.researching (huntouched.profiles user huser)
        have hmoney := congrArg User.money (huntouched.db.users user huser)
        change (if user = user then { game.profiles user with researching := 0 } else _ : Profile).researching
          = _ at hprofile
        change (if user = user then { game.db.users user with
          money := (game.db.users user).money + row.getTechnologyCost (game.ranks user id) / 2 } else _ :
            User).money = _ at hmoney
        rw [if_pos rfl] at hprofile hmoney
        refine ⟨hprofile.symm, add_eq_left.mp hmoney, ?_⟩
        exact Backlog.not_delayed_of_waiting_removeDelayed hforeign huntouched.researches
      · intro hnothing
        obtain ⟨hidle, hfree, hnone⟩ := hnothing row rfl
        have hprofiles : (game.setProfile user { game.profiles user with researching := 0 }).profiles =
            game.profiles := by
          funext other
          change (if other = user then { game.profiles user with researching := 0 } else
            game.profiles other) = _
          split
          · rename_i heq
            rw [heq, ← hidle]
          · rfl
        have husers : (game.db.setMoney user ((game.db.users user).money +
            row.getTechnologyCost (game.ranks user id) / 2)).users = game.db.users := by
          rw [hfree, add_zero]
          funext other
          change (if other = user then game.db.users user else game.db.users other) = _
          split
          · rename_i heq
            rw [heq]
          · rfl
        have hkept : game.researches.removeDelayed ⟨user, id⟩ = game.researches := by
          unfold Backlog.removeDelayed
          rw [List.filter_eq_self.mpr fun entry hentry => decide_eq_true (hnone entry hentry)]
        have hgame : aborted game id user row = game := by
          change ({ game with
            db := { game.db with users := (game.db.setMoney user ((game.db.users user).money +
              row.getTechnologyCost (game.ranks user id) / 2)).users }
            profiles := (game.setProfile user { game.profiles user with researching := 0 }).profiles
            researches := game.researches.removeDelayed ⟨user, id⟩ } : Game) = game
          rw [hprofiles, husers, hkept]
        dsimp only
        rw [hgame]
        exact Untouched.refl game

end Technology

/-! ## Requests that touch nothing of others -/

/-- Without enough ships the check ends before its split. -/
theorem MissionsController.sendFleet_of_refused (w : World) {db : Db} {params : Params}
    (hrefused : ∀ row, db.fleets.get params.fleet = some row → (params.shipHash w).entries = [] ∨
      ¬Fleet.enoughShips? row.shipfleets (params.shipHash w) = true) :
    after ((sendFleet w params).run db) = db := by
  have hfar : ∀ row, db.fleets.get params.fleet = some row → (params.shipHash w).entries ≠ [] →
      ¬Fleet.enoughShips? row.shipfleets (params.shipHash w) = true := fun row hget hships =>
    (hrefused row hget).resolve_left hships
  have hcheck := check_outcome w db params
  cases hrun : (checkHelper w params).run db with
  | error err next =>
      rw [hrun] at hcheck
      rw [run_sendFleet_of_error w hrun]
      cases hcheck with
      | missing hget => rfl
      | unowned row hget hships henough howner => exact absurd henough (hfar row hget hships)
      | leftSplit row user hget hships henough howner hfails => exact absurd henough (hfar row hget hships)
  | ok fehler next =>
      rw [hrun] at hcheck
      cases hcheck with
      | early row fehler hget hfehler hearly =>
          rw [run_sendFleet_of_complaints w hrun hfehler]
          rfl
      | undone row user hget hships henough howner hfails => exact absurd henough (hfar row hget hships)

namespace FleetsController

theorem unload_of_refused {db : Db} {fleet : FleetId} {planet : PlanetId}
    (hrefused : ∀ row, db.fleets.get fleet = some row →
      row.attributes.targetPlanet ≠ row.attributes.startPlanet ∨ planet ≠ row.attributes.originPlanet) :
    after ((unload fleet planet).run db) = db := by
  cases hget : db.fleets.get fleet with
  | none =>
      rw [unload, run_bind_of_error (Fleet.find_of_none hget)]
      rfl
  | some row =>
      have hnot : ¬((Fleet.ofRow fleet row).targetPlanet = (Fleet.ofRow fleet row).startPlanet ∧
          planet = (Fleet.ofRow fleet row).originPlanet) := by
        rintro ⟨htarget, horigin⟩
        exact (hrefused row hget).elim (absurd htarget) (absurd horigin)
      rw [unload, run_bind_of_ok (Fleet.find_of_some hget), if_neg hnot]
      rfl

/-- A fleet that is no session's stays as it is only if it does not fly. -/
theorem breakup_keeps_iff {db : Db} {fleet : FleetId} {row : FleetRow} (hget : db.fleets.get fleet = some row)
    (hforeign : row.foreign session = true) :
    KeepsOthers session db (after ((breakup fleet).run db)) ↔ row.attributes.missionId = 1 := by
  have hfind : (breakup fleet).run db = (Fleet.breakupMission (Fleet.ofRow fleet row)).run db :=
    run_bind_of_ok (Fleet.find_of_some hget) _
  by_cases hmission : (Fleet.ofRow fleet row).missionId = 1
  · refine ⟨fun _ => hmission, fun _ => ?_⟩
    rw [hfind, Fleet.breakupMission, if_pos hmission]
    exact KeepsOthers.refl db
  · refine ⟨fun hkeeps => ?_, fun hbased => absurd hbased hmission⟩
    let job := (Fleet.ofRow fleet row).missionJob
      (db.users row.attributes.user).userSetting.increasedSpypower
    have hreturn : job ≠ .returnToOrigin fleet := by
      unfold job Fleet.missionJob
      split <;> exact nofun
    have htest : (Job.returnToOrigin fleet).foreign session db = true := by
      change (db.fleets.pick (FleetRow.foreign session) fleet).isSome = true
      rw [Table.pick_eq_some.mpr ⟨hget, hforeign⟩]
      rfl
    obtain ⟨timestamp, hafter⟩ : ∃ timestamp, (after ((breakup fleet).run db)).delayed =
        (db.delayed.filter fun entry => entry.job ≠ job) ++ [⟨timestamp, .returnToOrigin fleet⟩] := by
      rw [hfind, Fleet.breakupMission, if_neg hmission]
      exact ⟨_, rfl⟩
    have hdelayed := hkeeps.delayed
    rw [hafter, List.filter_append, List.filter_singleton, htest] at hdelayed
    -- the job of the mission was removed, since the list did not grow
    by_cases hjob : ∃ entry ∈ db.delayed.filter fun entry => entry.job.foreign session db, entry.job = job
    · obtain ⟨entry, hentry, heq⟩ := hjob
      rw [← hdelayed] at hentry
      rcases List.mem_append.mp hentry with hold | hnew
      · have hkept := (List.mem_filter.mp (List.mem_filter.mp hold).1).2
        exact absurd heq (of_decide_eq_true hkept)
      · obtain rfl := List.mem_singleton.mp hnew
        exact absurd heq.symm hreturn
    · have hsame : ((db.delayed.filter fun entry => entry.job ≠ job).filter
          fun entry => entry.job.foreign session db) =
          db.delayed.filter fun entry => entry.job.foreign session db := by
        rw [List.filter_comm]
        exact List.filter_eq_self.mpr fun entry hentry =>
          decide_eq_true fun heq => hjob ⟨entry, hentry, heq⟩
      rw [hsame] at hdelayed
      exact absurd (congrArg List.length hdelayed) (by simp)

end FleetsController

/-! ## When others keep what is theirs -/

namespace PlayerRequest

/-- The records that the request names are those of the session's user, or nothing is to be done to them. -/
def Permitted (rules : Rules) (session : Option UserId) (game : Game) : PlayerRequest → Prop
  | .sendFleet params => session = none ∨
      (game.db.OwnsFleet session params.fleet ∧ game.db.OwnsHome session params.fleet) ∨
      ∀ row, game.db.fleets.get params.fleet = some row →
        (params.shipHash rules.toWorld).entries = [] ∨
          ¬Fleet.enoughShips? row.shipfleets (params.shipHash rules.toWorld) = true
  | .breakup fleet => session = none ∨ ∀ row, game.db.fleets.get fleet = some row →
      some row.attributes.user = session ∨ row.attributes.missionId = 1
  | .unload fleet planet => session = none ∨
      (game.db.OwnsFleet session fleet ∧ ¬Foreign session (game.db.planets planet).user) ∨
      ∀ row, game.db.fleets.get fleet = some row →
        row.attributes.targetPlanet ≠ row.attributes.startPlanet ∨ planet ≠ row.attributes.originPlanet
  | .upgradeBuilding _ _ => True
  | .abortUpgrade planet bid =>
      ¬Foreign session (game.db.planets planet).user ∨ game.NothingBuilt planet bid
  | .upgradeTechnology technology uid =>
      session = none ∨ some uid = session ∨ Technology.startable rules game technology uid = none
  | .abortTechnology technology uid =>
      session = none ∨ some uid = session ∨ game.NothingResearched rules technology uid
  | .build planet _ => session = none ∨ ¬Foreign session (game.db.planets planet).user
  | .destroyQueue _ => True

/-- The requests that may take amounts and give the same amounts back. -/
def Restores : PlayerRequest → Prop
  | .sendFleet _ => True
  | .unload _ _ => True
  | .build _ _ => True
  | _ => False

variable {rules : Rules} {game : Game} {request : PlayerRequest}

theorem untouched_of_permitted (hpermitted : request.Permitted rules session game) :
    Untouched session game (after ((request.perform rules session).run game)) := by
  have hsignedOut : ∀ action, session = none →
      Untouched session game (after ((authenticateUser session action).run game)) := by
    rintro action rfl
    exact Untouched.refl game
  have hdb : ∀ (action : Act Unit), KeepsOthers session game.db (after (action.run game.db)) →
      Untouched session game (after ((onDb action).run game)) := by
    intro action hkeeps
    rw [after_onDb]
    exact (Untouched.refl game).setDb hkeeps
  have hsignedIn : ∀ action, (∀ currentUser, session = some currentUser →
      Untouched session game (after ((action currentUser : GameAct Unit).run game))) →
      Untouched session game (after ((authenticateUser session action).run game)) := by
    intro action haction
    cases hsession : session with
    | none => exact Untouched.refl game
    | some currentUser =>
        subst hsession
        exact haction currentUser rfl
  cases request with
  | sendFleet params =>
      obtain hnone | ⟨hfleet, hhome⟩ | hrefused := hpermitted
      · exact hsignedOut _ hnone
      · exact hsignedIn _ fun _ _ => hdb _ (MissionsController.sendFleet_keeps _ hfleet hhome)
      · refine hsignedIn _ fun _ _ => hdb _ ?_
        rw [MissionsController.sendFleet_of_refused _ hrefused]
        exact KeepsOthers.refl game.db
  | breakup fleet =>
      obtain hnone | hown := hpermitted
      · exact hsignedOut _ hnone
      refine hsignedIn _ fun _ _ => hdb _ ?_
      cases hget : game.db.fleets.get fleet with
      | none =>
          rw [FleetsController.breakup, run_bind_of_error (Fleet.find_of_none hget)]
          exact KeepsOthers.refl game.db
      | some row =>
          by_cases huser : some row.attributes.user = session
          · refine (FleetsController.breakup_keeps fun found hfound => ?_).after (KeepsOthers.refl game.db)
            obtain rfl : row = found := Option.some.inj (hget.symm.trans hfound)
            exact huser
          · have hbased := (hown row hget).resolve_left huser
            exact (FleetsController.breakup_keeps_iff hget (decide_eq_true huser)).mpr hbased
  | unload fleet planet =>
      obtain hnone | ⟨hfleet, hplanet⟩ | hrefused := hpermitted
      · exact hsignedOut _ hnone
      · refine hsignedIn _ fun _ _ => hdb _ ?_
        exact (FleetsController.unload_keeps hfleet hplanet).after (KeepsOthers.refl game.db)
      · refine hsignedIn _ fun _ _ => hdb _ ?_
        rw [FleetsController.unload_of_refused hrefused]
        exact KeepsOthers.refl game.db
  | upgradeBuilding planet btype =>
      exact (PlanetsController.upgradeBuilding_keeps game rules planet btype).after (Untouched.refl game)
  | abortUpgrade planet bid =>
      by_cases hplanet : Foreign session (game.db.planets planet).user
      · have hnothing := hpermitted.resolve_left (not_not.mpr hplanet)
        exact (Planet.abortUpgrade_untouched_iff hplanet).mpr hnothing
      · exact (Planet.abortUpgrade_keeps hplanet rules bid).after (Untouched.refl game)
  | upgradeTechnology technology uid =>
      obtain hnone | hpermitted := hpermitted
      · exact hsignedOut _ hnone
      refine hsignedIn _ fun _ _ => ?_
      by_cases huid : some uid = session
      · exact (Technology.upgradeTechnology_keeps huid rules technology).after (Untouched.refl game)
      · exact (Technology.upgradeTechnology_untouched_iff huid).mpr (hpermitted.resolve_left huid)
  | abortTechnology technology uid =>
      obtain hnone | hpermitted := hpermitted
      · exact hsignedOut _ hnone
      refine hsignedIn _ fun _ _ => ?_
      by_cases huid : some uid = session
      · exact (Technology.abortTechnology_keeps huid rules technology).after (Untouched.refl game)
      · exact (Technology.abortTechnology_untouched_iff huid).mpr (hpermitted.resolve_left huid)
  | build planet ships =>
      obtain hnone | hplanet := hpermitted
      · exact hsignedOut _ hnone
      refine hsignedIn _ fun _ _ => ?_
      have hinsert : Safe (Untouched session game)
          (do let _ ← ShipBuildingQueue.insert rules ships planet : GameAct Unit) anything :=
        (ShipBuildingQueue.insert_keeps hplanet rules ships).bind fun _ _ => Safe.pure trivial
      exact hinsert.after (Untouched.refl game)
  | destroyQueue id =>
      refine hsignedIn _ fun currentUser hsession => ?_
      subst hsession
      exact ShipBuildingQueuesController.destroyQueue_untouched game rules currentUser id

theorem permitted_of_untouched (hrestores : ¬request.Restores)
    (huntouched : Untouched session game (after ((request.perform rules session).run game))) :
    request.Permitted rules session game := by
  cases session with
  | none =>
      cases request with
      | sendFleet params => exact .inl rfl
      | breakup fleet => exact .inl rfl
      | unload fleet planet => exact .inl rfl
      | upgradeBuilding planet btype => trivial
      | abortUpgrade planet bid =>
          by_cases hplanet : Foreign none (game.db.planets planet).user
          · exact .inr ((Planet.abortUpgrade_untouched_iff hplanet).mp huntouched)
          · exact .inl hplanet
      | upgradeTechnology technology uid => exact .inl rfl
      | abortTechnology technology uid => exact .inl rfl
      | build planet ships => exact .inl rfl
      | destroyQueue id => trivial
  | some currentUser =>
      cases request with
      | sendFleet params => exact absurd trivial hrestores
      | breakup fleet =>
          refine .inr fun row hget => ?_
          by_cases huser : some row.attributes.user = some currentUser
          · exact .inl huser
          · have hkeeps : KeepsOthers (some currentUser) game.db
                (after ((FleetsController.breakup fleet).run game.db)) := by
              have hdb := huntouched.db
              change KeepsOthers _ _ (after ((onDb (FleetsController.breakup fleet)).run game)).db at hdb
              rwa [after_onDb] at hdb
            exact .inr ((FleetsController.breakup_keeps_iff hget (decide_eq_true huser)).mp hkeeps)
      | unload fleet planet => exact absurd trivial hrestores
      | upgradeBuilding planet btype => trivial
      | abortUpgrade planet bid =>
          by_cases hplanet : Foreign (some currentUser) (game.db.planets planet).user
          · exact .inr ((Planet.abortUpgrade_untouched_iff hplanet).mp huntouched)
          · exact .inl hplanet
      | upgradeTechnology technology uid =>
          refine .inr ?_
          by_cases huid : some uid = some currentUser
          · exact .inl huid
          · exact .inr ((Technology.upgradeTechnology_untouched_iff huid).mp huntouched)
      | abortTechnology technology uid =>
          refine .inr ?_
          by_cases huid : some uid = some currentUser
          · exact .inl huid
          · exact .inr ((Technology.abortTechnology_untouched_iff huid).mp huntouched)
      | build planet ships => exact absurd trivial hrestores
      | destroyQueue id => trivial

/-- A permitted request leaves what belongs to others, and one that cannot give back what it took
leaves it only if it is permitted. -/
theorem permitted_leaves_others (rules : Rules) (session : Option UserId) (game : Game)
    (request : PlayerRequest) :
    (request.Permitted rules session game →
      Untouched session game (after ((request.perform rules session).run game))) ∧
    (¬request.Restores →
      (Untouched session game (after ((request.perform rules session).run game)) ↔
        request.Permitted rules session game)) :=
  ⟨untouched_of_permitted, fun hrestores => ⟨permitted_of_untouched hrestores, untouched_of_permitted⟩⟩

/-- User 1 gives up a research of user 1. -/
theorem permitted_leaves_others_own :
    Untouched (some 1) (Seeds.game Seeds.start)
      (after (((abortTechnology 1 1).perform Seeds.rules (some 1)).run (Seeds.game Seeds.start))) :=
  (permitted_leaves_others Seeds.rules (some 1) (Seeds.game Seeds.start) (.abortTechnology 1 1)).1
    (.inr (.inl rfl))

/-- User 1 gives up a research of user 2, who is paid for it. -/
theorem others_are_paid :
    ¬ ∀ (rules : Rules) (session : Option UserId) (game : Game) (request : PlayerRequest),
      Untouched session game (after ((request.perform rules session).run game)) := by
  intro hall
  have huntouched := hall Seeds.rules (some 1) (Seeds.game Seeds.start) (.abortTechnology 1 2)
  have hmoney := congrArg User.money (huntouched.db.users 2 (by decide))
  revert hmoney
  decide +kernel

end PlayerRequest

end Mmog
