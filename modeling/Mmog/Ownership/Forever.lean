import Mmog.Model.Seeds
import Mmog.Ownership.Tick

/-!
# One owner, one chain

Whatever happens in the game, an owned planet keeps its owner and has exactly
one pending tick, and a planet without an owner has none.  Only a direct call of
`claim` or `update_resources`, which no caller makes, would break this.
-/

namespace Mmog

open Ruby Action Game

namespace Db

def owners (db : Db) (p : PlanetId) : Option UserId := (db.planets p).user

/-- One tick for every planet that has an owner. -/
def oneTick (who : PlanetId → Option UserId) (p : PlanetId) : ℕ := if (who p).isSome then 1 else 0

/-- An owned planet has one pending tick, and one without an owner none. -/
def Chained (rules : Rules) (db : Db) : Prop := db.Chains rules db.owners (oneTick db.owners)

/-- After a step the chains are as they should be, and no owner has changed. -/
structure Follows (rules : Rules) (db next : Db) : Prop where
  chained : next.Chained rules
  owner : ∀ p u, db.owners p = some u → next.owners p = some u

theorem oneTick_claimed {who : PlanetId → Option UserId} {p : PlanetId} (hfree : who p = none)
    (u : UserId) : oneTick (Function.update who p (some u)) =
      Function.update (oneTick who) p (oneTick who p + 1) := by
  funext q
  by_cases heq : q = p
  · subst heq
    simp [oneTick, hfree]
  · simp [oneTick, heq]

variable {rules : Rules} {db next : Db}

theorem follows_of_chains (hnext : next.Chains rules db.owners (oneTick db.owners)) :
    Follows rules db next := by
  have howners : next.owners = db.owners := funext hnext.owner
  refine ⟨?_, fun p u hown => howners ▸ hown⟩
  rw [Chained, howners]
  exact hnext

theorem follows_of_claim {p : PlanetId} {u : UserId} (hfree : db.owners p = none)
    (hnext : next.Chains rules (Function.update db.owners p (some u))
      (Function.update (oneTick db.owners) p (oneTick db.owners p + 1))) : Follows rules db next := by
  have howners : next.owners = Function.update db.owners p (some u) := funext hnext.owner
  constructor
  · rw [Chained, howners, oneTick_claimed hfree]
    exact hnext
  · intro q v hown
    have hne : q ≠ p := by
      rintro rfl
      rw [hfree] at hown
      cases hown
    rw [howners, Function.update_of_ne hne, hown]

/-! ## The queue -/

variable {who : PlanetId → Option UserId} {pending : PlanetId → ℕ} {index : ℕ}

theorem Chains.schedule (hdb : db.Chains rules who pending) {entry : Enqueued}
    (hget : db.delayed[index]? = some entry) :
    Chains rules who pending
      { db with delayed := db.delayed.eraseIdx index, ready := db.ready ++ [entry.job] } :=
  ⟨hdb.owner, fun p => ((jobs_schedule hget).count_eq _).trans (hdb.ticks p), hdb.typed⟩

theorem Chains.take (hdb : db.Chains rules who pending) {job : Job} (hget : db.ready[index]? = some job)
    (hjob : ∀ p, job ≠ .produceResources p) :
    Chains rules who pending { db with ready := db.ready.eraseIdx index } := by
  refine ⟨hdb.owner, fun p => ?_, hdb.typed⟩
  have hcount := (jobs_take hget).count_eq (.produceResources p)
  rw [List.count_cons_of_ne (hjob p)] at hcount
  exact hcount.symm.trans (hdb.ticks p)

theorem Chains.queue : QueueFrame (Chains rules who pending) where
  wait _ hdb := hdb.of_eq (fun _ => rfl) rfl rfl rfl
  schedule := @fun _ _ _ hget hdb => hdb.schedule hget
  take := @fun _ _ _ _ hget hfleet hdb => hdb.take hget (by rintro p rfl; cases hfleet)

/-- A worker takes a tick out of the queue. -/
theorem Chains.takeTick (hdb : db.Chains rules who pending) {p : PlanetId}
    (hget : db.ready[index]? = some (.produceResources p)) :
    ∃ left, pending = Function.update left p (left p + 1) ∧
      Chains rules who left { db with ready := db.ready.eraseIdx index } := by
  let taken : Db := { db with ready := db.ready.eraseIdx index }
  refine ⟨taken.ticks, funext fun q => ?_, hdb.owner, fun _ => rfl, hdb.typed⟩
  have hcount := (jobs_take hget).count_eq (.produceResources q)
  rw [← hdb.ticks q]
  by_cases heq : q = p
  · subst heq
    rw [Function.update_self]
    exact hcount.trans List.count_cons_self
  · have hne : Job.produceResources p ≠ .produceResources q := fun h => heq (Job.produceResources.inj h).symm
    rw [Function.update_of_ne heq]
    exact hcount.trans (List.count_cons_of_ne hne)

end Db

/-! ## Buildings -/

namespace Planet

variable {rules : Rules} {who : PlanetId → Option UserId} {pending : PlanetId → ℕ} {p : PlanetId}

theorem upgradeFirst_typed {buildMe : Buildingtype}
    (htype : (rules.buildingtype buildMe.id).isSome = true) {buildings upgraded : List Building}
    (htyped : rules.Typed buildings) (hupgrade : upgradeFirst rules p buildMe buildings = .ok (some upgraded)) :
    rules.Typed upgraded := by
  induction buildings generalizing upgraded with
  | nil => cases hupgrade
  | cons building rest ih =>
      obtain ⟨hhead, htail⟩ := List.forall_mem_cons.mp htyped
      have hskip : (upgradeFirst rules p buildMe rest).map (fun found => found.map (building :: ·)) =
          .ok (some upgraded) → rules.Typed upgraded := by
        intro hmap
        cases hrest : upgradeFirst rules p buildMe rest with
        | error err =>
            rw [hrest] at hmap
            cases hmap
        | ok found =>
            rw [hrest] at hmap
            obtain ⟨others, rfl, rfl⟩ := Option.map_eq_some_iff.mp (Except.ok.inj hmap)
            exact List.forall_mem_cons.mpr ⟨hhead, ih htail hrest⟩
      rw [upgradeFirst] at hupgrade
      split at hupgrade
      · split at hupgrade
        · cases hupgrade
        · split at hupgrade
          · cases hupgrade
            exact List.forall_mem_cons.mpr ⟨htype, htail⟩
          · exact hskip hupgrade
      · exact hskip hupgrade

theorem built_typed {buildMe : Buildingtype} (htype : (rules.buildingtype buildMe.id).isSome = true)
    {old new : List Building} (htyped : rules.Typed old) (hbuilt : Built rules p buildMe old new) :
    rules.Typed new := by
  cases hbuilt with
  | upgraded hupgrade => exact upgradeFirst_typed htype htyped hupgrade
  | added hnone hlevel =>
      intro building hbuilding
      rcases List.mem_append.mp hbuilding with hold | hnew
      · exact htyped building hold
      · rw [List.mem_singleton.mp hnew]
        exact htype

theorem buildBuilding_chains (rules : Rules) (p : PlanetId) (buildingtype : ℕ) :
    Safe (fun game : Game => game.db.Chains rules who pending)
      (buildBuilding rules p buildingtype) anything := by
  refine fun game hgame => ⟨?_, fun _ _ => trivial⟩
  change (after ((buildBuilding rules p buildingtype).run game)).db.Chains rules who pending
  have hidle : (constructing game.db p 0).Chains rules who pending := hgame.setPlanet rfl
  obtain hsame | ⟨buildMe, new, htype, hbuilt, hfinished⟩ := buildBuilding_outcome rules p buildingtype game
  · rw [hsame]
    exact hidle
  · have hid : (rules.buildingtype buildMe.id).isSome = true := by
      rw [rules.buildingtype_of_mem (List.mem_of_find?_eq_some htype)]
      rfl
    have hnew : Db.Chains rules who pending { constructing game.db p 0 with buildings := new } :=
      ⟨hidle.owner, hidle.ticks, built_typed hid hgame.typed hbuilt⟩
    rw [hfinished, finished]
    dsimp only
    split
    · exact hnew.setPlanet rfl
    · exact hnew

theorem removeDelayed_chains (p : PlanetId) (buildingtype : ℕ) :
    Safe (Db.Chains rules who pending) (Resque.removeDelayed (.buildBuildings p buildingtype)) anything :=
  Safe.modify fun _ hdb => hdb.remove nofun

theorem deleteBuildingJob_chains (rules : Rules) (p : PlanetId) (buildingtype : ℕ) :
    Safe (fun game : Game => game.db.Chains rules who pending)
      (deleteBuildingJob rules p buildingtype) anything :=
  Db.Chains.frame.deleteBuildingJob rules p buildingtype (fun _ hdb => hdb.setPlanet rfl)
    (removeDelayed_chains p buildingtype)

theorem abortUpgrade_chains (rules : Rules) (p : PlanetId) (buildingtype : ℕ) :
    Safe (fun game : Game => game.db.Chains rules who pending)
      (abortUpgrade rules p buildingtype) anything :=
  Db.Chains.frame.abortUpgrade rules p buildingtype (fun _ hdb => hdb.setPlanet rfl)
    (removeDelayed_chains p buildingtype)

/-- A new user claims a planet without an owner, or none. -/
theorem claimStartplanetFor_follows {game : Game} (hgame : game.db.Chained rules) (u : UserId)
    (markerPos : ℕ) :
    game.db.Follows rules (after ((claimStartplanetFor rules u markerPos).run game)).db := by
  rw [claimStartplanetFor, run_bind_get]
  split
  · exact Db.follows_of_chains hgame
  · cases hsearch : searchStartplanet rules game.db markerPos with
    | none => exact Db.follows_of_chains hgame
    | some p =>
        have hfree : game.db.owners p = none := by
          have hmem := List.mem_of_mem_take (List.mem_of_getElem? hsearch)
          have htest := List.of_mem_filter hmem
          exact (of_decide_eq_true htest).2
        obtain ⟨next, hrun, hnext⟩ := claim_chains rules.toWorld hgame hfree u
        dsimp only
        rw [run_bind_of_ok (run_onDb_of_ok hrun), run_bind_modify]
        exact Db.follows_of_claim hfree hnext

end Planet

/-! ## Every event -/

section Fleets

variable {rules : Rules} {db next : Db}

theorem colonist_follows (w : World) (fleet : FleetId) (planet : PlanetId) {start : Db}
    (hstart : start.Chains rules db.owners (Db.oneTick db.owners)) :
    db.Follows rules (after ((do (← Fleet.find fleet).colonize w planet : Act Unit).run start)) := by
  cases hget : start.fleets.get fleet with
  | none =>
      rw [run_bind_of_error (Fleet.find_of_none hget)]
      exact Db.follows_of_chains hstart
  | some row =>
      rw [run_bind_of_ok (Fleet.find_of_some hget)]
      rcases Fleet.colonize_chains w (Fleet.ofRow fleet row) planet hstart with hsame | ⟨hfree, hclaimed⟩
      · exact Db.follows_of_chains hsame
      · exact Db.follows_of_claim hfree hclaimed

theorem step_follows (hdb : db.Chained rules) {event : Event}
    (hstep : step rules.toWorld db event = some next) : db.Follows rules next := by
  refine Db.Chains.frame.step Db.Chains.queue (fun _ hchains => Db.follows_of_chains hchains) ?_ hdb hstep
  exact fun fleet planet start hstart => colonist_follows rules.toWorld fleet planet hstart

end Fleets

namespace GameEvent

/-- Not a direct call of `claim` or `update_resources`, which only their callers make. -/
def ordinary : GameEvent → Bool
  | .claim _ _ => false
  | .updateResources _ => false
  | _ => true

variable {rules : Rules} {game next : Game}

theorem ends_follows {α : Type} {action : GameAct α} {φ : α → Prop}
    (hsafe : Safe (fun state : Game => state.db.Chains rules game.db.owners (Db.oneTick game.db.owners)) action φ)
    {start : Game} (hstart : start.db.Chains rules game.db.owners (Db.oneTick game.db.owners))
    (hends : ends action start = some next) : game.db.Follows rules next.db := by
  cases hends
  exact Db.follows_of_chains (hsafe.after hstart)

theorem step_follows (hgame : game.db.Chained rules) {event : GameEvent} (hordinary : event.ordinary = true)
    (hstep : event.step rules game = some next) : game.db.Follows rules next.db := by
  have hchains : game.db.Chains rules game.db.owners (Db.oneTick game.db.owners) := hgame
  cases event with
  | claim planet user => cases hordinary
  | updateResources planet => cases hordinary
  | fleets event =>
      obtain ⟨db, hdb, rfl⟩ := Option.map_eq_some_iff.mp hstep
      exact Mmog.step_follows hgame hdb
  | claimStartplanetFor user markerPos =>
      cases hstep
      exact Planet.claimStartplanetFor_follows hgame user markerPos
  | createBuildingJob planet name =>
      exact ends_follows (safe_onDb (Planet.createBuildingJob_chains rules.toWorld planet name)) hchains hstep
  | deleteBuildingJob planet buildingtype =>
      exact ends_follows (Planet.deleteBuildingJob_chains rules planet buildingtype) hchains hstep
  | abortUpgrade planet buildingtype =>
      exact ends_follows (Planet.abortUpgrade_chains rules planet buildingtype) hchains hstep
  | workPlanet index =>
      simp only [step] at hstep
      split at hstep
      · rename_i job hget
        cases job with
        | buildBuildings planet buildingtype =>
            refine ends_follows (φ := anything) ?_ (hchains.take hget (by rintro _ ⟨⟩)) hstep
            exact (Planet.buildBuilding_chains rules planet buildingtype).bind fun _ _ => Safe.pure trivial
        | produceResources planet =>
            cases hstep
            obtain ⟨left, hleft, htaken⟩ := hchains.takeTick hget
            -- a tick is only pending for a planet with an owner
            have hone := congrFun hleft planet
            rw [Function.update_self, Db.oneTick] at hone
            cases hown : game.db.owners planet with
            | none =>
                rw [hown] at hone
                cases hone
            | some u =>
                let taken := game.setDb { game.db with ready := game.db.ready.eraseIdx index }
                have htick := Planet.updateResources_chains
                  (show taken.db.Chains rules game.db.owners left from htaken) hown
                rw [← hleft] at htick
                exact Db.follows_of_chains htick
        | _ => cases hstep
      · cases hstep
  -- the shipyard, research and mere gifts leave owners and ticks alone
  | _ => exact Db.follows_of_chains (Db.Chains.frame.jobless hchains rfl hstep)

end GameEvent

/-- Owners stay for ever, and a planet has one pending tick if and only if it has an owner. -/
theorem one_owner_one_chain (rules : Rules) {start middle game : Game} {before events : List GameEvent}
    (hstart : start.db.Chained rules)
    (hbefore : ∀ event ∈ before, event.ordinary = true) (hevents : ∀ event ∈ events, event.ordinary = true)
    (hmiddle : run (GameEvent.step rules) start before = some middle)
    (hrun : run (GameEvent.step rules) middle events = some game) :
    (∀ p u, (middle.db.planets p).user = some u → (game.db.planets p).user = some u) ∧
      (∀ p, (game.db.planets p).user = none → game.db.ticks p = 0) ∧
      ∀ p u, (game.db.planets p).user = some u → game.db.ticks p = 1 := by
  have hgood : Along (GameEvent.step rules) (fun _ event => event.ordinary = true) start before :=
    along_of_forall hbefore
  have hlater : Along (GameEvent.step rules) (fun _ event => event.ordinary = true) middle events :=
    along_of_forall hevents
  have hchained : middle.db.Chained rules :=
    run_keeps (fun game : Game => game.db.Chained rules)
      (fun _ _ _ hgame hordinary hstep => (GameEvent.step_follows hgame hordinary hstep).chained) hstart hgood
      hmiddle
  have hfollows : middle.db.Follows rules game.db :=
    run_keeps (fun game : Game => middle.db.Follows rules game.db)
      (fun state event next hstate hordinary hstep => by
        have hnext := GameEvent.step_follows hstate.chained hordinary hstep
        exact ⟨hnext.chained, fun p u hown => hnext.owner p u (hstate.owner p u hown)⟩)
      (Db.follows_of_chains hchained) hlater hrun
  refine ⟨hfollows.owner, fun p hown => ?_, fun p u hown => ?_⟩
  · rw [hfollows.chained.ticks p, Db.oneTick, Db.owners, hown]
    rfl
  · rw [hfollows.chained.ticks p, Db.oneTick, Db.owners, hown]
    rfl

/-- A user is created and gets planet 2. -/
def landing : List GameEvent := [.claimStartplanetFor 1 0]

/-- The first tick of the planet's production. -/
def firstTick : List GameEvent := [.fleets (.wait 30), .fleets (.schedule 4), .workPlanet 0]

def landedGame : Game :=
  (run (GameEvent.step Seeds.rules) deserted landing).get (by decide)

def tickedGame : Game :=
  (run (GameEvent.step Seeds.rules) landedGame firstTick).get (by decide)

theorem one_owner_one_chain_sample :
    (tickedGame.db.planets 2).user = some 1 ∧ tickedGame.db.ticks 2 = 1 := by
  have hstart : deserted.db.Chained Seeds.rules := ⟨fun _ => rfl, fun _ => rfl, List.forall_mem_nil _⟩
  have hlanding : run (GameEvent.step Seeds.rules) deserted landing = some landedGame :=
    (Option.some_get _).symm
  have htick : run (GameEvent.step Seeds.rules) landedGame firstTick = some tickedGame :=
    (Option.some_get _).symm
  have hchain := one_owner_one_chain Seeds.rules hstart (by decide) (by decide) hlanding htick
  have hlanded : (landedGame.db.planets 2).user = some 1 := by decide
  have howner := hchain.1 2 1 hlanded
  exact ⟨howner, hchain.2.2 2 1 howner⟩

end Mmog
