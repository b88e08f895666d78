import Mmog.Homes.Unique
import Mmog.Model.Seeds
import Mmog.Model.Startplanets

/-!
# Start planets

The list of a process is shorter than eight after every call, so it is read anew at
the next one.  A new user gets a planet exactly if the next position is within the
free planets, of which there may be fewer than eight.  No planet is given twice.
-/

namespace Mmog

open Ruby Action Game

namespace PlanetsHelper

variable {rules : Rules} {db : Db} {marker : Marker} {process : Process} {u : UserId}

/-- The list is read anew at the next call. -/
def Short (marker : Marker) : Prop := marker.marker.length < 8

theorem searchStartplanet_of_short (hshort : Short marker) : searchStartplanet rules db marker =
    if (candidates rules db).isEmpty then (none, ⟨candidates rules db, marker.markerPos⟩)
    else ((candidates rules db)[(marker.markerPos + 1) % 8]?,
      ⟨(candidates rules db).eraseIdx ((marker.markerPos + 1) % 8), (marker.markerPos + 1) % 8⟩) := by
  simp only [searchStartplanet, show marker.marker.length < 8 from hshort, if_true]

theorem search_eq (hshort : Short marker) :
    (searchStartplanet rules db marker).1 = (candidates rules db)[(marker.markerPos + 1) % 8]? := by
  rw [searchStartplanet_of_short hshort]
  split
  · rename_i hempty
    rw [List.isEmpty_iff.mp hempty]
    rfl
  · rfl

theorem short_search (hshort : Short marker) : Short (searchStartplanet rules db marker).2 := by
  have hle : (candidates rules db).length ≤ 8 := by
    rw [candidates, List.length_map]
    exact List.length_take_le _ _
  rw [searchStartplanet_of_short hshort]
  split
  · rename_i hempty
    rw [Short, List.isEmpty_iff.mp hempty]
    exact Nat.zero_lt_succ 7
  · -- either the list is shorter than eight, or the position is in it
    have hpos : (marker.markerPos + 1) % 8 < 8 := Nat.mod_lt _ (by omega)
    rename_i hcandidates
    rw [List.isEmpty_iff, ← List.length_eq_zero_iff] at hcandidates
    simp only [Short, List.length_eraseIdx]
    split <;> omega

theorem mem_freePlanets {p : PlanetId} : p ∈ freePlanets rules db ↔
    p ∈ rules.planetIds ∧ (db.planets p).special = 0 ∧ (db.planets p).user = none := by
  rw [freePlanets, List.mem_filter, decide_eq_true_eq]

/-- What is found is free. -/
theorem mem_freePlanets_of_search (hshort : Short marker) {found : Candidate}
    (hfound : (searchStartplanet rules db marker).1 = some found) :
    found.id ∈ freePlanets rules db ∧ (db.planets found.id).user = none ∧ found.user = none := by
  rw [search_eq hshort] at hfound
  obtain ⟨p, hp, rfl⟩ := List.mem_map.mp (List.mem_of_getElem? hfound)
  have hfree := List.mem_of_mem_take hp
  exact ⟨hfree, (mem_freePlanets.mp hfree).2.2, (mem_freePlanets.mp hfree).2.2⟩

theorem search_isSome_iff (hshort : Short marker) : (searchStartplanet rules db marker).1.isSome ↔
    (marker.markerPos + 1) % 8 < (freePlanets rules db).length := by
  have hpos : (marker.markerPos + 1) % 8 < 8 := Nat.mod_lt _ (by omega)
  rw [search_eq hshort, isSome_getElem?, candidates, List.length_map, List.length_take]
  omega

/-! ## Claims -/

/-- Starting a building keeps the owner. -/
theorem startBuilding_owner (w : World) {p : PlanetId} {u : UserId} {db : Db} (hdb : (db.planets p).user = some u)
    (name : BuildingName) : ∃ next, (Planet.startBuilding w p name).run db = .ok ⟨⟩ next ∧
      (next.planets p).user = some u := by
  refine ⟨_, Planet.startBuilding_run w hdb name, ?_⟩
  rw [Planet.constructing, Db.setPlanet]
  dsimp only
  rw [if_pos rfl]
  obtain hsame | ⟨type, payer, -, -, -, hordered⟩ := Planet.createBuildingJob_outcome w p name db
  · rw [hsame]
    exact hdb
  · rw [hordered, Planet.paid, Db.setPlanet]
    dsimp only
    rw [if_pos rfl]
    exact hdb

theorem claim_of_free_owner (w : World) {db : Db} {p : PlanetId} (hfree : (db.planets p).user = none) (u : UserId) :
    ∃ next, (Planet.claim w p u).run db = .ok ⟨⟩ next ∧ (next.planets p).user = some u := by
  obtain ⟨next, hnext, hrun⟩ := Planet.claim_of_free (w := w) (J := fun _ db => (db.planets p).user = some u)
    hfree (congrArg Planet.user (if_pos rfl)) fun _ name db hdb => startBuilding_owner w hdb name
  exact ⟨_, hrun, hnext⟩

/-- The user becomes the owner of a free planet and has it as home planet, and the call says so. -/
def GetsPlanet (rules : Rules) (process : Process) (u : UserId) : Prop :=
  ∃ p ∈ freePlanets rules process.game.db, ∃ next, (claimStartplanetFor rules u).run process = .ok true next ∧
    (next.game.db.planets p).user = some u ∧ (next.game.profiles u).homePlanet = p

theorem run_of_hasPlanets (hplanets : hasPlanets rules process.game.db u = true) :
    (claimStartplanetFor rules u).run process = .ok false process := by
  rw [claimStartplanetFor, run_bind_get, if_pos hplanets]
  rfl

theorem run_of_none (hplanets : hasPlanets rules process.game.db u = false)
    (hsearch : (searchStartplanet rules process.game.db process.marker).1 = none) :
    (claimStartplanetFor rules u).run process =
      .ok false ⟨process.game, (searchStartplanet rules process.game.db process.marker).2⟩ := by
  rw [claimStartplanetFor, run_bind_get, if_neg (Bool.eq_false_iff.mp hplanets)]
  dsimp only
  rw [hsearch]
  rfl

theorem run_of_some (hshort : Short process.marker) (hplanets : hasPlanets rules process.game.db u = false)
    {found : Candidate} (hsearch : (searchStartplanet rules process.game.db process.marker).1 = some found) :
    ∃ db, (Planet.claim rules.toWorld found.id u).run process.game.db = .ok ⟨⟩ db ∧
      (db.planets found.id).user = some u ∧ (claimStartplanetFor rules u).run process =
        .ok true ⟨(process.game.setDb db).setProfile u { process.game.profiles u with homePlanet := found.id },
          (searchStartplanet rules process.game.db process.marker).2⟩ := by
  obtain ⟨-, hfree, hread⟩ := mem_freePlanets_of_search hshort hsearch
  obtain ⟨db, hclaim, howner⟩ := claim_of_free_owner rules.toWorld hfree u
  refine ⟨db, hclaim, howner, ?_⟩
  obtain ⟨p, user⟩ := found
  cases hread
  have hsettle : (claimAndSettle rules p u).run process.game =
      .ok ⟨⟩ ((process.game.setDb db).setProfile u { process.game.profiles u with homePlanet := p }) := by
    rw [claimAndSettle, run_bind_of_ok (run_onDb_of_ok hclaim)]
    rfl
  let marked : Process := ⟨process.game, (searchStartplanet rules process.game.db process.marker).2⟩
  have hgame : (Process.onGame (claimAndSettle rules p u)).run marked = .ok ⟨⟩ ⟨_, marked.marker⟩ :=
    Process.run_onGame_of_ok hsettle
  rw [claimStartplanetFor, run_bind_get, if_neg (Bool.eq_false_iff.mp hplanets)]
  dsimp only
  rw [hsearch]
  exact run_bind_of_ok hgame fun _ => pure true

/-- With a short list the position is all that is remembered. -/
theorem claimStartplanetFor_refines (hshort : Short process.marker) :
    value? ((claimStartplanetFor rules u).run process) =
        value? ((Planet.claimStartplanetFor rules u process.marker.markerPos).run process.game) ∧
      (after ((claimStartplanetFor rules u).run process)).game =
        after ((Planet.claimStartplanetFor rules u process.marker.markerPos).run process.game) := by
  have hsearch : Planet.searchStartplanet rules process.game.db process.marker.markerPos =
      (searchStartplanet rules process.game.db process.marker).1.map Candidate.id := by
    rw [search_eq hshort, candidates, ← List.getElem?_map, List.map_map]
    exact congrArg (·[_]?) (List.map_id _).symm
  rw [Planet.claimStartplanetFor, run_bind_get, ← hasPlanets]
  cases hplanets : hasPlanets rules process.game.db u with
  | true =>
      rw [run_of_hasPlanets hplanets, if_pos rfl]
      exact ⟨rfl, rfl⟩
  | false =>
      rw [if_neg Bool.false_ne_true, hsearch]
      cases hfound : (searchStartplanet rules process.game.db process.marker).1 with
      | none =>
          rw [run_of_none hplanets hfound]
          exact ⟨rfl, rfl⟩
      | some found =>
          obtain ⟨db, hclaim, -, hrun⟩ := run_of_some hshort hplanets hfound
          dsimp only [Option.map_some]
          rw [hrun, run_bind_of_ok (run_onDb_of_ok hclaim)]
          exact ⟨rfl, rfl⟩

theorem getsPlanet_iff (hshort : Short process.marker) (hplanets : hasPlanets rules process.game.db u = false) :
    GetsPlanet rules process u ↔
      (process.marker.markerPos + 1) % 8 < (freePlanets rules process.game.db).length := by
  rw [← search_isSome_iff hshort]
  cases hsearch : (searchStartplanet rules process.game.db process.marker).1 with
  | none =>
      refine iff_of_false ?_ Bool.false_ne_true
      rintro ⟨p, -, next, hrun, -⟩
      rw [run_of_none hplanets hsearch] at hrun
      cases hrun
  | some found =>
      refine iff_of_true ?_ rfl
      obtain ⟨db, -, howner, hrun⟩ := run_of_some hshort hplanets hsearch
      refine ⟨found.id, (mem_freePlanets_of_search hshort hsearch).1, _, hrun, howner, ?_⟩
      exact congrArg Profile.homePlanet (if_pos rfl)

end PlanetsHelper

/-! ## Runs -/

namespace Process

open PlanetsHelper

variable {rules : Rules} {process next : Process}

/-- The planet that a call hands out, and the user who gets it. -/
def handed (rules : Rules) (process : Process) : Event → List (PlanetId × UserId)
  | .claimStartplanetFor u =>
      if hasPlanets rules process.game.db u then []
      else ((searchStartplanet rules process.game.db process.marker).1.map fun found => (found.id, u)).toList
  | .change _ => []

/-- Nothing else takes a planet from its owner without giving it to another. -/
def KeepsOwned (process : Process) : Event → Prop
  | .claimStartplanetFor _ => True
  | .change game => ∀ p, (process.game.db.planets p).user.isSome → (game.db.planets p).user.isSome

/-- Every planet of the log is there once and has an owner. -/
def Distinct (log : List (PlanetId × UserId)) (process : Process) : Prop :=
  (log.map Prod.fst).Nodup ∧ ∀ p ∈ log.map Prod.fst, (process.game.db.planets p).user.isSome

/-- A call leaves a short list, and owned planets owned. -/
theorem call_outcome (hshort : Short process.marker) (u : UserId)
    (hstep : step rules process (.claimStartplanetFor u) = some next) : Short next.marker ∧
      (∀ p, (process.game.db.planets p).user.isSome → (next.game.db.planets p).user.isSome) ∧
      ∀ pair ∈ handed rules process (.claimStartplanetFor u),
        (process.game.db.planets pair.1).user = none ∧ (next.game.db.planets pair.1).user = some u := by
  cases hstep
  rw [handed]
  cases hplanets : hasPlanets rules process.game.db u with
  | true =>
      rw [run_of_hasPlanets hplanets]
      exact ⟨hshort, fun _ => id, by simp⟩
  | false =>
      cases hsearch : (searchStartplanet rules process.game.db process.marker).1 with
      | none =>
          rw [run_of_none hplanets hsearch]
          exact ⟨short_search hshort, fun _ => id, by simp⟩
      | some found =>
          obtain ⟨db, hclaim, howner, hrun⟩ := run_of_some hshort hplanets hsearch
          have howned : (after ((Planet.claim rules.toWorld found.id u).run process.game.db)).Owned
              fun p => (process.game.db.planets p).user.isSome = true :=
            (Db.claim_owned rules.toWorld found.id u).after fun _ => id
          rw [hclaim] at howned
          rw [hrun]
          refine ⟨short_search hshort, howned, ?_⟩
          simp only [Bool.false_eq_true, if_false, Option.map_some, Option.toList_some, List.mem_singleton]
          rintro pair rfl
          exact ⟨(mem_freePlanets_of_search hshort hsearch).2.1, howner⟩

theorem step_short (event : Event) (hshort : Short process.marker) (hstep : step rules process event = some next) :
    Short next.marker := by
  cases event with
  | claimStartplanetFor u => exact (call_outcome hshort u hstep).1
  | change game =>
      cases hstep
      exact hshort

theorem length_handed_le (event : Event) : (handed rules process event).length ≤ 1 := by
  cases event with
  | change game => exact Nat.zero_le 1
  | claimStartplanetFor u =>
      rw [handed]
      split
      · exact Nat.zero_le 1
      · cases (searchStartplanet rules process.game.db process.marker).1 <;> simp

theorem step_distinct {log : List (PlanetId × UserId)} {event : Event} (hshort : Short process.marker)
    (hlog : Distinct log process) (hkeeps : KeepsOwned process event) (hstep : step rules process event = some next) :
    Distinct (log ++ handed rules process event) next := by
  cases event with
  | change game =>
      cases hstep
      rw [handed, List.append_nil]
      exact ⟨hlog.1, fun p hp => hkeeps p (hlog.2 p hp)⟩
  | claimStartplanetFor u =>
      obtain ⟨-, hkeep, hhanded⟩ := call_outcome hshort u hstep
      have hone : ((handed rules process (.claimStartplanetFor u)).map Prod.fst).Nodup := by
        refine List.nodup_iff_sublist.mpr fun p hsub => ?_
        have hle := hsub.length_le
        rw [List.length_map] at hle
        exact absurd (hle.trans (length_handed_le _)) (Nat.not_succ_le_self 1)
      rw [Distinct, List.map_append]
      constructor
      · refine List.Nodup.append hlog.1 hone fun p hold hnew => ?_
        -- what is handed out had no owner
        obtain ⟨pair, hpair, rfl⟩ := List.mem_map.mp hnew
        have hsome := hlog.2 pair.1 hold
        rw [(hhanded pair hpair).1] at hsome
        cases hsome
      · intro p hp
        rcases List.mem_append.mp hp with hold | hnew
        · exact hkeep p (hlog.2 p hold)
        · obtain ⟨pair, hpair, rfl⟩ := List.mem_map.mp hnew
          exact Option.isSome_of_eq_some (hhanded pair hpair).2

/-- A new user gets a start planet if the next position is one of a free planet, and no planet is handed out twice. -/
theorem startplanets_iff (rules : Rules) (game : Game) (events : List Event) (process : Process)
    (hrun : run (step rules) ⟨game, .initial⟩ events = some process) :
    (∀ u, hasPlanets rules process.game.db u = false → (GetsPlanet rules process u ↔
      (process.marker.markerPos + 1) % 8 < (freePlanets rules process.game.db).length)) ∧
    (Along (step rules) KeepsOwned ⟨game, .initial⟩ events →
      ((collect (step rules) (handed rules) ⟨game, .initial⟩ events).map Prod.fst).Nodup) := by
  have hinitial : Short (Process.mk game .initial).marker := Nat.zero_lt_succ 7
  constructor
  · intro u hplanets
    have hshort : Short process.marker :=
      run_invariant (fun _ event _ hshort hstep => step_short event hshort hstep) hinitial hrun
    exact getsPlanet_iff hshort hplanets
  · intro hkeeps
    have hstart : Distinct [] ⟨game, .initial⟩ := ⟨List.nodup_nil, fun _ hp => absurd hp List.not_mem_nil⟩
    have hfinal := run_collects (fun log process => Short process.marker ∧ Distinct log process)
      (fun _ _ event _ hinv hkept hstep =>
        ⟨step_short event hinv.1 hstep, step_distinct hinv.1 hinv.2 hkept hstep⟩)
      ⟨hinitial, hstart⟩ hkeeps hrun
    exact hfinal.2.1

/-- A second user comes to a universe with twelve planets. -/
theorem startplanets_iff_second : ∃ process,
    run (step Seeds.rules) ⟨deserted, .initial⟩ [.claimStartplanetFor 1] = some process ∧
      GetsPlanet Seeds.rules process 2 := by
  have htest : (run (step Seeds.rules) ⟨deserted, .initial⟩ [.claimStartplanetFor 1]).any (fun process =>
      !hasPlanets Seeds.rules process.game.db 2 &&
        decide ((process.marker.markerPos + 1) % 8 < (freePlanets Seeds.rules process.game.db).length)) = true := by
    decide
  obtain ⟨process, hrun, hboth⟩ := (Option.any_eq_true _ _).mp htest
  rw [Bool.and_eq_true, Bool.not_eq_true', decide_eq_true_eq] at hboth
  exact ⟨process, hrun,
    ((startplanets_iff Seeds.rules deserted _ process hrun).1 2 hboth.1).mpr hboth.2⟩

/-- All planets but the first belong to user 2. -/
def crowded : Game :=
  deserted.setDb { deserted.db with planets := fun p => Seeds.planet (if p = 1 then none else some 2) }

theorem last_planet_missed : ¬∀ rules game events process,
    run (step rules) ⟨game, .initial⟩ events = some process →
      ∀ u, hasPlanets rules process.game.db u = false → freePlanets rules process.game.db ≠ [] →
        GetsPlanet rules process u := by
  intro hall
  obtain ⟨p, -, next, hrun, -⟩ := hall Seeds.rules crowded [] ⟨crowded, .initial⟩ rfl 3 (by decide)
    (by decide)
  have hfalse : value? ((claimStartplanetFor Seeds.rules 3).run ⟨crowded, .initial⟩) = some false := by
    decide
  rw [hrun] at hfalse
  cases hfalse

end Process

end Mmog
